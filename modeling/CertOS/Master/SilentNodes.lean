import CertOS.Master.Footprint

/-!
# Silent nodes

The scheduler gives work to the nodes that the registry shows as online. A node is
shown as online from its registration on, and only `check_timeouts` would ever change
that; the server has a time after which it should, but starts no thread that calls it.

The registry does know when it last heard of a node, and
`CertOS.Heard` ties what it knows to what has happened in the run. So an assignment
goes to a node that was heard of in time just when the registry shows it so at that
moment (`CertOS.attended_iff`), and `CertOS.silent_node_gets_work` is a run in which it
does not.
-/

namespace CertOS

open Interleave

variable {Db Fs : Type} {P : Platform Db Fs}

/-! ### What happens, and when -/

/-- The two times of the server's configuration, with the values out of the box. -/
structure ServerTimes where
  /-- `heartbeat_timeout_sec`. -/
  heartbeatTimeoutSec : UInt32 := 15
  /-- `scheduler_interval_ms`. -/
  schedulerIntervalMs : UInt32 := 1000

/-- A node that was last heard of at time `s` is silent at time `t`: it has exceeded the
timeout by more than one interval of the scheduler. -/
def ServerTimes.silent (cfg : ServerTimes) (s t : ℤ) : Bool :=
  1000 * (t - s) > 1000 * cfg.heartbeatTimeoutSec.toNat + cfg.schedulerIntervalMs.toNat

/-- Silence lasts. -/
theorem ServerTimes.silent_of_le {cfg : ServerTimes} {s s' t : ℤ} (h : cfg.silent s' t = true)
    (hs : s ≤ s') : cfg.silent s t = true := by
  have hlt := of_decide_eq_true h
  refine decide_eq_true ?_
  omega

/-- The time of an event. -/
def eventTime : MasterEvent → Option ℤ
  | .start _ => none
  | .did _ _ e _ _ => some e.now

/-- The time at which the event hears of the node: it is the step of a registration
that answers with the node, or of a heartbeat of the node that is acknowledged. -/
def heardAt (n : String) : MasterEvent → Option ℤ
  | .did _ _ e (.node op) r => if op.hears n r then some e.now else none
  | _ => none

theorem eventTime_of_heardAt {n : String} {ev : MasterEvent} {s : ℤ} (h : heardAt n ev = some s) :
    eventTime ev = some s := by
  cases ev with
  | start t => cases h
  | did i t e op r =>
    cases op with
    | node op =>
      simp only [heardAt] at h
      split at h
      · exact h
      · cases h
    | _ => cases h

/-- The assignment the scheduler writes in the event: the node it names, and the time. -/
def assignment : MasterEvent → Option (String × ℤ)
  | .did _ (.schedulePass _) e (.job (.updateJobStatus _ .assigned n)) _ => some (n, e.now)
  | _ => none

theorem eq_of_assignment {ev : MasterEvent} {n : String} {t : ℤ}
    (h : assignment ev = some (n, t)) :
    ∃ i sort e j r, ev = .did i (.schedulePass sort) e (.job (.updateJobStatus j .assigned n)) r ∧
      e.now = t := by
  simp only [assignment] at h
  split at h
  · rename_i i sort e j n' r
    obtain ⟨rfl, rfl⟩ := Prod.mk.inj (Option.some.inj h)
    exact ⟨i, sort, e, j, r, rfl, rfl⟩
  · cases h

/-- **Silent nodes get no work**: before every assignment of a job to a node, the node
was heard of, and not too long ago. -/
def Attended (cfg : ServerTimes) (es : List MasterEvent) : Prop :=
  ∀ es₁ ev n t, es₁ ++ [ev] <+: es → assignment ev = some (n, t) →
    ∃ ev' ∈ es₁, ∃ s, heardAt n ev' = some s ∧ cfg.silent s t = false

/-- **The registry shows no silence**: an assignment is not written to a node whose
entry is online but was last heard of too long ago. -/
def prompt (cfg : ServerTimes) (c : MasterConfig Db Fs) (ev : MasterEvent) : Bool :=
  match assignment ev with
  | none => true
  | some (n, t) =>
    match c.state.nodeRegistry.nodes.lookup n with
    | none => true
    | some node => !(node.status = .online && cfg.silent node.lastHeartbeat t)

theorem Attended.nil (cfg : ServerTimes) : Attended cfg [] := by
  intro es₁ ev n t hpre
  have hlen := hpre.length_le
  simp at hlen

theorem Attended.initial {cfg : ServerTimes} {es es' : List MasterEvent} (h : Attended cfg es')
    (hpre : es <+: es') : Attended cfg es :=
  fun es₁ ev n t hes => h es₁ ev n t (hes.trans hpre)

/-- One more event. -/
theorem Attended.snoc {cfg : ServerTimes} {es : List MasterEvent} {ev : MasterEvent}
    (h : Attended cfg es)
    (hev : ∀ n t, assignment ev = some (n, t) →
      ∃ ev' ∈ es, ∃ s, heardAt n ev' = some s ∧ cfg.silent s t = false) :
    Attended cfg (es ++ [ev]) := by
  intro es₁ ev₁ n t hpre hass
  rcases List.prefix_concat_iff.mp hpre with heq | hpre
  · obtain ⟨rfl, rfl⟩ := List.append_inj' heq rfl |>.imp_right List.singleton_inj.mp
    exact hev n t hass
  · exact h es₁ ev₁ n t hpre hass

/-! ### Where a pass can be -/

/-- **The pass knows only nodes of the registry**: it is in front of one of its reads,
or whatever it still writes are assignments to nodes that are there. -/
inductive PassKnows (s : MasterState Db Fs) : MasterProg Unit → Prop
  | jobs (sort : Reorder JobInfo) : PassKnows s (schedulePass sort)
  | decay (sort : Reorder JobInfo) (jobs : List JobInfo) :
      PassKnows s (.call .applyDecay fun _ => .call (.node .getAllNodes) (passWalk sort jobs))
  | nodes (sort : Reorder JobInfo) (jobs : List JobInfo) :
      PassKnows s (.call (.node .getAllNodes) (passWalk sort jobs))
  | walk {jobs : List JobInfo} {ids : List String} {p : MasterProg Unit}
      (hids : ∀ n ∈ ids, (s.nodeRegistry.nodes.lookup n).isSome = true)
      (hp : p.Only (AssignsOne jobs ids)) : PassKnows s p

/-- No node of the registry gets lost. -/
def KeepsNodes (s s' : MasterState Db Fs) : Prop :=
  ∀ n, (s.nodeRegistry.nodes.lookup n).isSome = true →
    (s'.nodeRegistry.nodes.lookup n).isSome = true

theorem PassKnows.mono {s s' : MasterState Db Fs} {p : MasterProg Unit} (h : PassKnows s p)
    (hs : KeepsNodes s s') : PassKnows s' p := by
  cases h with
  | jobs sort => exact .jobs sort
  | decay sort jobs => exact .decay sort jobs
  | nodes sort jobs => exact .nodes sort jobs
  | walk hids hp => exact .walk (fun n hn => hs n (hids n hn)) hp

theorem PassKnows.done (s : MasterState Db Fs) : PassKnows s (.ret ()) :=
  @PassKnows.walk _ _ s [] [] _ (fun _ h => absurd h List.not_mem_nil) trivial

/-- A step of the pass. -/
theorem PassKnows.step {s : MasterState Db Fs} (hn : s.nodeRegistry.Keyed) {op : MasterOp}
    {k : op.Res → MasterProg Unit} {e : Env} (h : PassKnows s (.call op k)) :
    PassKnows (s.exec P e op).2 (k (s.exec P e op).1) := by
  generalize hp : Prog.call op k = p at h
  cases h with
  | jobs sort =>
    rw [schedulePass_eq] at hp
    cases hp
    dsimp only
    split
    · exact .done _
    · exact .decay sort _
  | decay sort jobs =>
    cases hp
    exact .nodes sort jobs
  | nodes sort jobs =>
    cases hp
    rw [passWalk]
    split
    · exact .done _
    · -- the snapshot shows nodes of the registry only
      refine .walk (fun n hmem => ?_) (only_assignsOne _ _)
      obtain ⟨node, hnode, rfl⟩ := List.mem_map.mp hmem
      obtain ⟨m, hm⟩ := NodeRegistry.mem_getAllNodes.mp (List.mem_filter.mp hnode).1
      rw [(hn m node hm).1]
      exact Option.isSome_iff_exists.mpr ⟨node, hm⟩
  | walk hids hp' =>
    subst hp
    obtain ⟨⟨job, -, n, -, rfl⟩, hrest⟩ := hp'
    exact .walk hids (hrest _)

/-- An assignment is to a node that the registry knows. -/
theorem PassKnows.assigned {s : MasterState Db Fs} {j n : String} {op : MasterOp}
    {k : op.Res → MasterProg Unit} (h : PassKnows s (.call op k))
    (hop : op = .job (.updateJobStatus j .assigned n)) :
    ∃ node, s.nodeRegistry.nodes.lookup n = some node := by
  generalize hp : Prog.call op k = p at h
  cases h with
  | jobs sort =>
    rw [schedulePass_eq] at hp
    cases hp
    cases hop
  | decay sort jobs =>
    cases hp
    cases hop
  | nodes sort jobs =>
    cases hp
    cases hop
  | walk hids hp' =>
    subst hp
    obtain ⟨⟨job, -, n', hn', heq⟩, -⟩ := hp'
    rw [hop] at heq
    cases heq
    exact Option.isSome_iff_exists.mp (hids n hn')

/-! ### What the registry knows -/

/-- The operation neither removes a node nor marks one as offline. -/
def keepsOnline : MasterOp → Bool
  | .node op => op.keepsOnline
  | _ => true

/-- The tasks of the server keep the nodes online: `check_timeouts` is not one of
them. -/
theorem only_keepsOnline {c : MasterConfig Db Fs} {t : Task} (hw : wired c (.start t) = true) :
    ((master P).body t).Only fun op => keepsOnline op = true := by
  refine (only_mayDo P t).mono fun op hop => ?_
  cases op with
  | node op =>
    cases op with
    | unregisterNode nodeId =>
      cases t with
      | rpc metadata call => cases call <;> cases hop
      | _ => cases hop
    | checkTimeouts timeoutSec =>
      cases t with
      | rpc metadata call => cases call <;> cases hop
      | checkTimeouts timeoutSec => cases hw
      | _ => cases hop
    | _ => rfl
  | _ => rfl

/-- What happens to the entry of a node in one step that keeps the nodes online: it is
the step that hears of it, or nothing. -/
theorem lookup_after {e : Env} {op : MasterOp} {s : MasterState Db Fs}
    (hk : keepsOnline op = true) (i : ℕ) (t : Task) (n : String) :
    (heardAt n (.did i t e op (s.exec P e op).1) = some e.now ∧
      ∃ node, (s.exec P e op).2.nodeRegistry.nodes.lookup n = some node ∧ node.status = .online ∧
        node.lastHeartbeat = e.now) ∨
    (heardAt n (.did i t e op (s.exec P e op).1) = none ∧
      (s.exec P e op).2.nodeRegistry.nodes.lookup n = s.nodeRegistry.nodes.lookup n) := by
  cases op with
  | node op =>
    cases hh : op.hears n (s.nodeRegistry.exec e op).1 with
    | true => exact Or.inl ⟨if_pos hh, NodeRegistry.exec_of_hears hh⟩
    | false =>
      refine Or.inr ⟨if_neg ?_, NodeRegistry.exec_of_not_hears hk hh⟩
      rw [MasterState.exec_node, hh]
      exact nofun
  | _ => exact Or.inr ⟨rfl, rfl⟩

/-- **The registry knows what was heard**: every entry is online, and its last heartbeat
is the time of an event that heard of the node; and nothing that is under way will
change that, or assign a job to a node that is not there. -/
structure Heard (es : List MasterEvent) (c : MasterConfig Db Fs) : Prop where
  keyed : c.state.nodeRegistry.Keyed
  entry : ∀ n node, c.state.nodeRegistry.nodes.lookup n = some node →
    node.status = .online ∧ ∃ ev ∈ es, heardAt n ev = some node.lastHeartbeat
  threads : ∀ th ∈ c.threads, th.prog.Only fun op => keepsOnline op = true
  passes : ∀ (i : ℕ) (th : Thread MasterOp.Res Task Reply) (sort : Reorder JobInfo),
    c.threads[i]? = some th → th.task = .schedulePass sort →
    ∃ p, th.prog = (fun _ => Reply.done) <$> p ∧ PassKnows c.state p

theorem Heard.start (db : Option Db) (adminDb : Db) (fs : Fs) :
    Heard [] (masterStart db adminDb fs) where
  keyed _ _ h := by cases h
  entry _ _ h := by cases h
  threads _ h := by cases h
  passes _ _ _ h := by cases h

/-- **One step** of the server. -/
theorem Heard.step {es : List MasterEvent} {c c' : MasterConfig Db Fs} {ev : MasterEvent}
    (h : Heard es c) (hw : wired c ev = true) (hstep : (master P).Step c ev c') :
    Heard (es ++ [ev]) c' := by
  cases hstep with
  | start t =>
    refine ⟨h.keyed, fun n node hn => ?_, fun th hth => ?_, fun i th sort hth htask => ?_⟩
    · obtain ⟨hon, ev, hev, hheard⟩ := h.entry n node hn
      exact ⟨hon, ev, List.mem_append_left _ hev, hheard⟩
    · rcases List.mem_append.mp hth with hth | hth
      · exact h.threads th hth
      · obtain rfl := List.mem_singleton.mp hth
        exact only_keepsOnline hw
    · rcases System.getElem?_start hth with hth | ⟨-, rfl⟩
      · exact h.passes i th sort hth htask
      · obtain rfl : t = .schedulePass sort := htask
        exact ⟨_, rfl, .jobs sort⟩
  | did i t e op cont hi =>
    obtain ⟨hk, hcont⟩ := h.threads _ (List.mem_of_getElem? hi)
    have hentry := lookup_after (P := P) (s := c.state) (e := e) hk i t
    -- no task of the server takes a node out of the registry
    have hkeeps : KeepsNodes c.state (c.state.exec P e op).2 := by
      intro n hn
      rcases hentry n with ⟨-, node, hl, -⟩ | ⟨-, hl⟩
      · exact Option.isSome_iff_exists.mpr ⟨node, hl⟩
      · rw [hl]
        exact hn
    refine ⟨?_, fun n node hn => ?_, fun th hth => ?_, fun j th sort hth htask => ?_⟩
    · change (c.state.exec P e op).2.nodeRegistry.Keyed
      cases op with
      | node o => exact h.keyed.exec o
      | _ => exact h.keyed
    · rcases hentry n with ⟨hheard, node', hl, hon, hlast⟩ | ⟨-, hl⟩
      · obtain rfl := Option.some.inj (hl.symm.trans hn)
        exact ⟨hon, _, by simp, hlast.symm ▸ hheard⟩
      · obtain ⟨hon, ev, hev, hheard⟩ := h.entry n node (hl.symm.trans hn)
        exact ⟨hon, ev, List.mem_append_left _ hev, hheard⟩
    · obtain ⟨j, hj⟩ := List.getElem?_of_mem hth
      rcases getElem?_after_master hj with ⟨-, rfl⟩ | ⟨-, hj⟩
      · exact hcont _
      · exact h.threads th (List.mem_of_getElem? hj)
    · rcases getElem?_after_master hth with ⟨-, rfl⟩ | ⟨-, hth⟩
      · obtain ⟨p, hprog, hp⟩ := h.passes i _ sort hi htask
        obtain ⟨k, rfl, rfl⟩ := Prog.map_eq_call hprog.symm
        exact ⟨_, rfl, hp.step h.keyed⟩
      · obtain ⟨p, hprog, hp⟩ := h.passes j th sort hth htask
        exact ⟨p, hprog, hp.mono hkeeps⟩

/-- In every run of the server the registry knows what was heard. -/
theorem heard_of_run {ok : MasterConfig Db Fs → MasterEvent → Prop} {db : Option Db}
    {adminDb : Db} {fs : Fs} {c : MasterConfig Db Fs} {es : List MasterEvent}
    (h : (master P).Run ok (masterStart db adminDb fs) es c)
    (hok : ∀ c ev, ok c ev → wired c ev = true) : Heard es c :=
  h.invariant (I := Heard) (Heard.start db adminDb fs)
    fun _ _ _ _ hI hg hstep => hI.step (hok _ _ hg) hstep

/-- **A node that is given a job** is in the registry, is online, and was heard of at the
time the registry says. -/
theorem Heard.assigned {es : List MasterEvent} {c c' : MasterConfig Db Fs} {ev : MasterEvent}
    (h : Heard es c) (hstep : (master P).Step c ev c') {n : String} {t : ℤ}
    (hass : assignment ev = some (n, t)) :
    ∃ node, c.state.nodeRegistry.nodes.lookup n = some node ∧ node.status = .online ∧
      ∃ ev' ∈ es, heardAt n ev' = some node.lastHeartbeat := by
  obtain ⟨i, sort, e, j, r, rfl, -⟩ := eq_of_assignment hass
  obtain ⟨k, hi, -, -⟩ := hstep.did_inv
  obtain ⟨p, hprog, hp⟩ := h.passes i _ sort hi rfl
  obtain ⟨k', rfl, -⟩ := Prog.map_eq_call hprog.symm
  obtain ⟨node, hnode⟩ := hp.assigned rfl
  exact ⟨node, hnode, h.entry n node hnode⟩

/-! ### The clock -/

/-- **Nothing is newer than the registry**: under a clock that does not go back, no event
has heard of a node later than its entry says. -/
theorem heardAt_le {ok : MasterConfig Db Fs → MasterEvent → Prop} {db : Option Db}
    {adminDb : Db} {fs : Fs} {c : MasterConfig Db Fs} {es : List MasterEvent}
    (h : (master P).Run ok (masterStart db adminDb fs) es c)
    (hok : ∀ c ev, ok c ev → wired c ev = true)
    (hclock : (es.filterMap eventTime).Pairwise (· ≤ ·)) {n : String} {node : NodeInfo}
    (hn : c.state.nodeRegistry.nodes.lookup n = some node) {ev : MasterEvent} (hev : ev ∈ es)
    {s : ℤ} (hs : heardAt n ev = some s) : s ≤ node.lastHeartbeat := by
  induction h generalizing node with
  | nil => cases hev
  | @snoc es c₁ c₂ ev₀ hrun hg hstep ih =>
    have hI := heard_of_run hrun hok
    rw [List.filterMap_append, List.pairwise_append] at hclock
    obtain ⟨hclock, -, hlast⟩ := hclock
    cases hstep with
    | start t =>
      rcases List.mem_append.mp hev with hev | hev
      · exact ih hclock hn hev
      · obtain rfl := List.mem_singleton.mp hev
        cases hs
    | did i t e op cont hi =>
      obtain ⟨hk, -⟩ := hI.threads _ (List.mem_of_getElem? hi)
      rcases lookup_after (P := P) (s := c₁.state) (e := e) hk i t n with
        ⟨-, node', hl, -, htime⟩ | ⟨hnot, hl⟩
      · -- the entry has just been written, and the clock has not gone back
        obtain rfl := Option.some.inj (hl.symm.trans hn)
        rw [htime]
        rcases List.mem_append.mp hev with hev | hev
        · refine hlast s (List.mem_filterMap.mpr ⟨ev, hev, eventTime_of_heardAt hs⟩) e.now ?_
          simp [eventTime]
        · obtain rfl := List.mem_singleton.mp hev
          have htime' := eventTime_of_heardAt hs
          obtain rfl : e.now = s := Option.some.inj htime'
          exact le_rfl
      · rcases List.mem_append.mp hev with hev | hev
        · exact ih hclock (hl.symm.trans hn) hev
        · obtain rfl := List.mem_singleton.mp hev
          rw [master_exec, hnot] at hs
          cases hs

/-! ### Every run -/

/-- **Silent nodes get no work**, in a run of the server under a clock that does not go
back, just when at every assignment the registry shows the node as heard of in time. -/
theorem attended_iff {db : Option Db} {adminDb : Db} {fs : Fs} {c : MasterConfig Db Fs}
    {es : List MasterEvent}
    (h : (master P).Run (fun c ev => wired c ev = true) (masterStart db adminDb fs) es c)
    (hclock : (es.filterMap eventTime).Pairwise (· ≤ ·)) (cfg : ServerTimes) :
    (master P).Run (fun c ev => wired c ev = true ∧ prompt cfg c ev = true)
        (masterStart db adminDb fs) es c ↔ Attended cfg es := by
  constructor
  · intro hp
    clear h hclock
    induction hp with
    | nil => exact .nil cfg
    | @snoc es c₁ c₂ ev hrun hg hstep ih =>
      refine ih.snoc fun n t hass => ?_
      have hI := heard_of_run hrun fun _ _ hg => hg.1
      obtain ⟨node, hnode, hon, ev', hev', hheard⟩ := hI.assigned hstep hass
      refine ⟨ev', hev', _, hheard, ?_⟩
      have hprompt := hg.2
      simpa [prompt, hass, hnode, hon] using hprompt
  · intro hatt
    induction h with
    | nil => exact .nil
    | @snoc es c₁ c₂ ev hrun hg hstep ih =>
      -- the node was heard of in time, and the entry is at least as recent
      have hclock' := hclock
      rw [List.filterMap_append, List.pairwise_append] at hclock'
      refine (ih hclock'.1 (hatt.initial (List.prefix_append _ _))).snoc ⟨hg, ?_⟩ hstep
      simp only [prompt]
      split
      · rfl
      · rename_i n t hass
        split
        · rfl
        · rename_i node hnode
          obtain ⟨ev', hev', s, hheard, hs⟩ := hatt es ev n t (List.prefix_refl _) hass
          have hle := heardAt_le hrun (fun _ _ hg => hg) hclock'.1 hnode hev' hheard
          cases hsil : cfg.silent node.lastHeartbeat t with
          | false => simp
          | true =>
            rw [ServerTimes.silent_of_le hsil hle] at hs
            cases hs

/-- The law at work: in the run of `assignSchedule` the node has registered two seconds
before the pass, and its job comes to a node that was heard of in time. -/
theorem attended_iff_assignSchedule :
    ∃ es c,
      (master barePlatform).Run (fun c ev => wired c ev = true) (masterStart none {} ()) es c ∧
      (es.filterMap eventTime).Pairwise (· ≤ ·) ∧
      (es.filterMap assignment) = [("node-00000000", 102)] ∧ Attended {} es := by
  obtain ⟨es, c, hrun, hc⟩ := System.exists_trace (S := master barePlatform)
    (g := fun c ev => wired c ev && prompt {} c ev) (c := masterStart none {} ())
    (p := fun es _ => (es.filterMap eventTime).Pairwise (· ≤ ·) ∧
      es.filterMap assignment = [("node-00000000", 102)])
    assignSchedule (by decide)
  obtain ⟨hclock, hass⟩ := of_decide_eq_true hc
  have hprompt := hrun.mono fun c ev hg => (Bool.and_eq_true _ _).mp hg
  have hwired := hprompt.mono fun c ev hg => hg.1
  exact ⟨es, c, hwired, hclock, hass, (attended_iff hwired hclock {}).mp hprompt⟩

/-- A node registers at time 100 and is never heard of again; a job is submitted at time
9999, and a pass assigns it at time 10000. -/
def lateSchedule : List (Choice Env Task) :=
  performs 0 (.rpc [] (.registerNode agentRegistration)) { now := 100 } 1 ++
  performs 1 (.rpc [] (.submitJob { resources := { cpuCores := 1, ramMb := 1024 } }))
    { now := 9999 } 2 ++
  performs 2 (.schedulePass .id) { now := 10000 } 4

/-- **A silent node gets work**: in a run of the server under a clock that does not go
back, a job is assigned at time 10000 to a node that was heard of at time 100 and never
since. -/
theorem silent_node_gets_work :
    ∃ es ev c, (master barePlatform).Run (fun c ev => wired c ev = true)
        (masterStart none {} ()) (es ++ [ev]) c ∧
      ((es ++ [ev]).filterMap eventTime).Pairwise (· ≤ ·) ∧
      assignment ev = some ("node-00000000", 10000) ∧
      (es.filterMap (heardAt "node-00000000")) = [100] ∧ ¬ Attended {} (es ++ [ev]) := by
  obtain ⟨es, c, hrun, hc⟩ := System.exists_trace (S := master barePlatform)
    (g := wired) (c := masterStart none {} ())
    (p := fun es _ => (es.filterMap eventTime).Pairwise (· ≤ ·) ∧
      (es.getLast?.bind assignment) = some ("node-00000000", 10000) ∧
      (es.dropLast.filterMap (heardAt "node-00000000")) = [100])
    lateSchedule (by decide)
  obtain ⟨hclock, hlast, hheard⟩ := of_decide_eq_true hc
  obtain ⟨ev, hev, hass⟩ := Option.bind_eq_some_iff.mp hlast
  have hes : es.dropLast ++ [ev] = es := List.dropLast_append_getLast? ev hev
  refine ⟨es.dropLast, ev, c, hes.symm ▸ hrun, hes.symm ▸ hclock, hass, hheard, fun hatt => ?_⟩
  obtain ⟨ev', hev', s, hs, hsil⟩ := hatt _ ev _ _ (List.prefix_refl _) hass
  have hmem : s ∈ es.dropLast.filterMap (heardAt "node-00000000") :=
    List.mem_filterMap.mpr ⟨ev', hev', hs⟩
  rw [hheard] at hmem
  obtain rfl := List.mem_singleton.mp hmem
  exact absurd hsil (by decide)

end CertOS
