import CertOS.Master.Queue
import CertOS.Master.Submissions

/-!
# A job is assigned once

What a pass may still assign is the part of its snapshot that it has not walked over
yet (`CertOS.PassHolds`). A snapshot shows a job once and shows no job that has been
assigned before, every assignment is taken off it, and there is no second pass that
could hold the same job; so each job is assigned at most once in the whole run of the
server (`CertOS.assigned_at_most_once`).

Since nothing but an assignment makes a job `ASSIGNED`, the record of such a job names
the node that one assignment gave it to, after the submission that the record stems from
(`CertOS.AssignedAfter`), and the registry knows this node (`CertOS.assigned_on_record`):
the node that polls for the job finds it.
-/

namespace CertOS

open Interleave

variable {Db Fs : Type} {P : Platform Db Fs}

/-- The event assigns the job. -/
def assignsJob (j : String) : MasterEvent → Bool
  | .did _ _ _ (.job (.updateJobStatus jobId status _)) _ => jobId = j ∧ status = .assigned
  | _ => false

theorem assignsJob_did {j : String} {i : ℕ} {t : Task} {e : Env} {op : MasterOp} {r : op.Res}
    (h : assignsJob j (.did i t e op r) = true) :
    ∃ n, op = .job (.updateJobStatus j .assigned n) := by
  cases op with
  | job o =>
    cases o with
    | updateJobStatus jobId status n =>
      obtain ⟨rfl, rfl⟩ := of_decide_eq_true h
      exact ⟨n, rfl⟩
    | _ => cases h
  | _ => cases h

/-! ### What a pass may still assign -/

/-- The identifiers of the jobs a pass holds, at each of its places: none in front of
the snapshot, those of the snapshot after it, and those left in the walk. -/
inductive PassHolds : List String → MasterProg Unit → Prop
  | jobs (sort : Reorder JobInfo) : PassHolds [] (schedulePass sort)
  | decay (sort : Reorder JobInfo) (jobs : List JobInfo) :
      PassHolds (jobs.map JobInfo.jobId)
        (.call .applyDecay fun _ => .call (.node .getAllNodes) (passWalk sort jobs))
  | nodes (sort : Reorder JobInfo) (jobs : List JobInfo) :
      PassHolds (jobs.map JobInfo.jobId) (.call (.node .getAllNodes) (passWalk sort jobs))
  | walk (jobs : List JobInfo) (nodes : List NodeInfo) :
      PassHolds (jobs.map JobInfo.jobId) (assignAll jobs nodes)

theorem PassHolds.done : PassHolds [] (.ret ()) :=
  show PassHolds (List.map JobInfo.jobId []) (assignAll [] []) from .walk [] []

/-- The walk goes on behind the job it has assigned. -/
theorem assignAll_sublist (jobs : List JobInfo) (nodes : List NodeInfo) :
    assignAll jobs nodes = .ret () ∨
      ∃ job jobs' n nodes', (job :: jobs').Sublist jobs ∧
        assignAll jobs nodes = .call (.job (.updateJobStatus job.jobId .assigned n)) fun _ =>
          assignAll jobs' nodes' := by
  induction jobs with
  | nil => exact Or.inl rfl
  | cons job jobs ih =>
    cases hp : place job.spec.resources nodes with
    | none =>
      have hskip : assignAll (job :: jobs) nodes = assignAll jobs nodes := by rw [assignAll, hp]
      rw [hskip]
      rcases ih with h | ⟨job', jobs', n, nodes', hsub, h⟩
      · exact Or.inl h
      · exact Or.inr ⟨job', jobs', n, nodes', hsub.cons _, h⟩
    | some r =>
      refine Or.inr ⟨job, jobs, r.1.nodeId, r.2, .refl _, ?_⟩
      rw [assignAll, hp]
      rfl

/-- What a step of a pass does to the jobs it holds: it takes the snapshot, it assigns
one of them, or it does something else and keeps them. -/
inductive HoldsStep (snapshot : List JobInfo) (ids : List String) : MasterOp → List String → Prop
  | took : HoldsStep snapshot ids (.job (.listJobs .queued)) (snapshot.map JobInfo.jobId)
  | assigned {j n : String} {ids' : List String} (h : (j :: ids').Subperm ids) :
      HoldsStep snapshot ids (.job (.updateJobStatus j .assigned n)) ids'
  | kept {op : MasterOp} {ids' : List String} (hop : ∀ o, op ≠ .job o) (h : ids'.Subperm ids) :
      HoldsStep snapshot ids op ids'

/-- **One step of a pass.** -/
theorem PassHolds.step {ids : List String} {op : MasterOp} {k : op.Res → MasterProg Unit}
    (h : PassHolds ids (.call op k)) (e : Env) (s : MasterState Db Fs) :
    ∃ ids', PassHolds ids' (k (s.exec P e op).1) ∧
      HoldsStep (s.jobMgr.listJobs e .queued) ids op ids' := by
  generalize hp : Prog.call op k = p at h
  cases h with
  | jobs sort =>
    rw [schedulePass_eq] at hp
    cases hp
    refine ⟨_, ?_, .took⟩
    dsimp only
    split
    · rename_i hnil
      have hnil' : s.jobMgr.listJobs e .queued = [] := hnil
      rw [hnil']
      exact .done
    · exact .decay sort _
  | decay sort jobs =>
    cases hp
    exact ⟨_, .nodes sort jobs, .kept (fun o h => by cases h) (.refl _)⟩
  | nodes sort jobs =>
    cases hp
    rw [passWalk]
    split
    · exact ⟨[], .done, .kept (fun o h => by cases h) List.nil_subperm⟩
    · exact ⟨_, .walk (sort jobs) _, .kept (fun o h => by cases h) ((sort.perm jobs).map _).subperm⟩
  | walk jobs nodes =>
    rcases assignAll_sublist jobs nodes with hret | ⟨job, jobs', n, nodes', hsub, hcall⟩
    · rw [hret] at hp
      cases hp
    · rw [hcall] at hp
      cases hp
      exact ⟨_, .walk jobs' nodes', .assigned (hsub.map JobInfo.jobId).subperm⟩

theorem nodup_of_subperm {α : Type} {l l' : List α} (h : l.Subperm l') (hl : l'.Nodup) :
    l.Nodup := by
  obtain ⟨m, hperm, hsub⟩ := h
  exact hperm.nodup_iff.mp (hl.sublist hsub)

/-! ### The invariant -/

/-- No operation removes a job. -/
theorem exists_lookup_exec {e : Env} {s : MasterState Db Fs} (op : MasterOp) {j : String}
    (h : ∃ info, s.jobMgr.jobs.lookup j = some info) :
    ∃ info, (s.exec P e op).2.jobMgr.jobs.lookup j = some info := by
  cases op with
  | job o => exact JobManager.exists_lookup_exec P.store e s.jobMgr o h
  | _ => exact h

/-- What is known of a pass that holds these jobs: it holds each of them once, and if it
may still assign `j`, then `j` is in the table and has not been assigned. -/
structure MayAssign (j : String) (es : List MasterEvent) (s : MasterState Db Fs)
    (ids : List String) : Prop where
  nodup : ids.Nodup
  waiting : j ∈ ids → es.countP (assignsJob j) = 0 ∧ ∃ info, s.jobMgr.jobs.lookup j = some info

/-- Where a run stands with respect to the assignments of a job. -/
structure AssignGuard (j : String) (es : List MasterEvent) (c : MasterConfig Db Fs) : Prop where
  keyed : c.state.jobMgr.Keyed
  onePass : OnePass c
  writes : ∀ th ∈ c.threads, th.prog.Only th.task.WritesOnly
  once : es.countP (assignsJob j) ≤ 1
  left : 0 < es.countP (assignsJob j) → Left j c.state
  passes : ∀ (i : ℕ) (th : Thread MasterOp.Res Task Reply) (sort : Reorder JobInfo),
    c.threads[i]? = some th → th.task = .schedulePass sort →
    ∃ p ids, th.prog = (fun _ => Reply.done) <$> p ∧ PassHolds ids p ∧
      (isPass th = true → MayAssign j es c.state ids)

namespace AssignGuard

variable {j : String} {es : List MasterEvent} {c : MasterConfig Db Fs}

theorem start (db : Option Db) (adminDb : Db) (fs : Fs) :
    AssignGuard j [] (masterStart db adminDb fs) where
  keyed _ _ h := by cases h
  onePass _ _ _ _ h := by cases h
  writes _ h := by cases h
  once := Nat.zero_le _
  left h := absurd h (Nat.lt_irrefl 0)
  passes _ _ _ h := by cases h

/-- A pass that takes a snapshot may assign what the snapshot shows: a job in the queue
has not been assigned. -/
theorem mayAssign_snapshot (h : AssignGuard j es c) (e : Env) :
    MayAssign j es c.state ((c.state.jobMgr.listJobs e .queued).map JobInfo.jobId) := by
  refine ⟨h.keyed.nodup_listJobs e .queued, fun hj => ?_⟩
  obtain ⟨info, hmem, rfl⟩ := List.mem_map.mp hj
  obtain ⟨⟨k, hk⟩, hst⟩ := (JobManager.mem_listJobs _ _).mp hmem
  have hid := h.keyed k info hk
  refine ⟨?_, info, hid.symm ▸ hk⟩
  by_contra hne
  obtain ⟨info', hinfo', hq⟩ := h.left (Nat.pos_of_ne_zero hne)
  rw [hid, hk] at hinfo'
  obtain rfl := Option.some.inj hinfo'
  exact hq (hst.resolve_left (by decide))

/-- The jobs a pass holds after one of its steps that assigns other jobs. -/
theorem mayAssign_step (h : AssignGuard j es c) {op : MasterOp} {ids ids' : List String} {e : Env}
    (hs : HoldsStep (c.state.jobMgr.listJobs e .queued) ids op ids')
    (hold : MayAssign j es c.state ids) : MayAssign j es (c.state.exec P e op).2 ids' := by
  cases hs with
  | took => exact h.mayAssign_snapshot e
  | assigned hsub =>
    have hnodup := nodup_of_subperm hsub hold.nodup
    refine ⟨(List.nodup_cons.mp hnodup).2, fun hj => ?_⟩
    obtain ⟨hz, hex⟩ := hold.waiting (hsub.subset (List.mem_cons_of_mem _ hj))
    exact ⟨hz, exists_lookup_exec _ hex⟩
  | kept hop hsub =>
    refine ⟨nodup_of_subperm hsub hold.nodup, fun hj => ?_⟩
    obtain ⟨hz, hex⟩ := hold.waiting (hsub.subset hj)
    exact ⟨hz, exists_lookup_exec _ hex⟩

/-- A step that does not assign the job. -/
theorem step_other (h : AssignGuard j es c) {i : ℕ} {t : Task} {e : Env} {op : MasterOp}
    {cont : op.Res → MasterProg Reply} (hi : c.threads[i]? = some ⟨t, .call op cont⟩)
    (hz : assignsJob j (.did i t e op (c.state.exec P e op).1) = false) :
    ∀ (k : ℕ) (th : Thread MasterOp.Res Task Reply) (sort : Reorder JobInfo),
      ((master P).after c i t e op cont).threads[k]? = some th → th.task = .schedulePass sort →
      ∃ p ids, th.prog = (fun _ => Reply.done) <$> p ∧ PassHolds ids p ∧
        (isPass th = true → MayAssign j (es ++ [.did i t e op (c.state.exec P e op).1])
          (c.state.exec P e op).2 ids) := by
  intro k th sort hk htask
  have hcount : (es ++ [Event.did i t e op (c.state.exec P e op).1]).countP (assignsJob j) =
      es.countP (assignsJob j) := by
    simp [List.countP_append, hz]
  rcases getElem?_after_master hk with ⟨rfl, rfl⟩ | ⟨-, hk⟩
  · obtain ⟨p, ids, hprog, hp, hold⟩ := h.passes k _ sort hi htask
    obtain ⟨k', rfl, rfl⟩ := Prog.map_eq_call hprog.symm
    obtain ⟨ids', hp', hs⟩ := hp.step (P := P) e c.state
    obtain rfl : t = .schedulePass sort := htask
    have hmay := h.mayAssign_step (P := P) hs (hold rfl)
    exact ⟨_, ids', rfl, hp', fun _ => ⟨hmay.nodup, fun hj => hcount.symm ▸ hmay.waiting hj⟩⟩
  · obtain ⟨p, ids, hprog, hp, hold⟩ := h.passes k th sort hk htask
    refine ⟨p, ids, hprog, hp, fun hpass => ⟨(hold hpass).nodup, fun hj => ?_⟩⟩
    obtain ⟨hz', hex⟩ := (hold hpass).waiting hj
    exact ⟨hcount.trans hz', exists_lookup_exec _ hex⟩

/-- **The step that assigns the job**: it is the first one, it finds the job, and the one
pass that could assign it again has taken it off its list. -/
theorem step_assigns (h : AssignGuard j es c) {i : ℕ} {t : Task} {e : Env} {n : String}
    {cont : Bool → MasterProg Reply}
    (hi : c.threads[i]? = some ⟨t, .call (.job (.updateJobStatus j .assigned n)) cont⟩) :
    es.countP (assignsJob j) = 0 ∧ (∃ info, c.state.jobMgr.jobs.lookup j = some info) ∧
      ∀ (es' : List MasterEvent) (k : ℕ) (th : Thread MasterOp.Res Task Reply)
        (sort : Reorder JobInfo),
        ((master P).after c i t e (.job (.updateJobStatus j .assigned n)) cont).threads[k]? =
          some th → th.task = .schedulePass sort →
        ∃ p ids, th.prog = (fun _ => Reply.done) <$> p ∧ PassHolds ids p ∧
          (isPass th = true → MayAssign j es'
            (c.state.exec P e (.job (.updateJobStatus j .assigned n))).2 ids) := by
  -- only a pass assigns
  obtain ⟨sort, rfl⟩ := Task.eq_of_writes_assigned
    ((h.writes _ (List.mem_of_getElem? hi)).1 j .assigned n rfl)
  obtain ⟨p, ids, hprog, hp, hold⟩ := h.passes i _ sort hi rfl
  obtain ⟨k', rfl, rfl⟩ := Prog.map_eq_call hprog.symm
  obtain ⟨ids', hp', hs⟩ := hp.step (P := P) e c.state
  cases hs with
  | kept hop hsub => exact absurd rfl (hop _)
  | assigned hsub =>
    obtain ⟨hz, hex⟩ := (hold rfl).waiting (hsub.subset List.mem_cons_self)
    obtain ⟨hnot, hnodup⟩ := List.nodup_cons.mp (nodup_of_subperm hsub (hold rfl).nodup)
    refine ⟨hz, hex, fun es' k th sort' hk htask => ?_⟩
    rcases getElem?_after_master hk with ⟨rfl, rfl⟩ | ⟨hne, hk⟩
    · exact ⟨_, ids', rfl, hp', fun _ => ⟨hnodup, fun hj => absurd hj hnot⟩⟩
    · -- a second pass under way there is none
      obtain ⟨p, ids, hprog, hp, -⟩ := h.passes k th sort' hk htask
      exact ⟨p, ids, hprog, hp, fun hpass => absurd (h.onePass k i th _ hk hi hpass rfl) hne⟩

/-- **One step of the server** keeps the guard. -/
theorem step (h : AssignGuard j es c) {c' : MasterConfig Db Fs} {ev : MasterEvent}
    (hw : wired c ev = true) (hf : freshJobId c ev = true) (hstep : (master P).Step c ev c') :
    AssignGuard j (es ++ [ev]) c' := by
  have hone := h.onePass.step hw hstep
  cases hstep with
  | start t =>
    have hcount : (es ++ [Event.start t]).countP (assignsJob j) = es.countP (assignsJob j) := by
      simp [List.countP_append, assignsJob]
    refine ⟨h.keyed, hone, ?_, hcount.symm ▸ h.once, fun hpos => h.left (hcount ▸ hpos), ?_⟩
    · intro th hth
      rcases List.mem_append.mp hth with hth | hth
      · exact h.writes th hth
      · obtain rfl := List.mem_singleton.mp hth
        exact only_writes P t
    · intro i th sort hth htask
      rcases System.getElem?_start hth with hth | ⟨-, rfl⟩
      · obtain ⟨p, ids, hprog, hp, hold⟩ := h.passes i th sort hth htask
        refine ⟨p, ids, hprog, hp, fun hpass => ⟨(hold hpass).nodup, fun hj => ?_⟩⟩
        exact hcount.symm ▸ (hold hpass).waiting hj
      · obtain rfl : t = .schedulePass sort := htask
        exact ⟨_, [], rfl, .jobs sort, fun _ => ⟨List.nodup_nil, fun hj => by cases hj⟩⟩
  | did i t e op cont hi =>
    have hwrites := h.writes _ (List.mem_of_getElem? hi)
    refine ⟨?_, hone, ?_, ?_, ?_, ?_⟩
    · change (c.state.exec P e op).2.jobMgr.Keyed
      cases op with
      | job o => exact h.keyed.exec P.store e o
      | _ => exact h.keyed
    · intro th hth
      obtain ⟨k, hk⟩ := List.getElem?_of_mem hth
      rcases getElem?_after_master hk with ⟨-, rfl⟩ | ⟨-, hk⟩
      · exact hwrites.2 _
      · exact h.writes th (List.mem_of_getElem? hk)
    · rw [List.countP_append, List.countP_singleton]
      split
      · rename_i hass
        obtain ⟨n, rfl⟩ := assignsJob_did hass
        have hz := (h.step_assigns (P := P) (e := e) hi).1
        omega
      · exact h.once
    · intro hpos
      cases hass : assignsJob j (.did i t e op (c.state.exec P e op).1) with
      | true =>
        obtain ⟨n, rfl⟩ := assignsJob_did hass
        exact left_of_update (h.step_assigns (P := P) (e := e) hi).2.1 (by decide)
      | false =>
        refine (h.left ?_).exec hwrites.1 hf
        simpa [List.countP_append, hass] using hpos
    · cases hass : assignsJob j (.did i t e op (c.state.exec P e op).1) with
      | true =>
        obtain ⟨n, rfl⟩ := assignsJob_did hass
        exact (h.step_assigns (P := P) (e := e) hi).2.2 _
      | false => exact h.step_other hi hass

end AssignGuard

/-- The guard holds in every run of the server with fresh identifiers. -/
theorem assignGuard_of_run {db : Option Db} {adminDb : Db} {fs : Fs} {c : MasterConfig Db Fs}
    {es : List MasterEvent}
    (h : (master P).Run (fun c ev => wired c ev = true ∧ freshJobId c ev = true)
      (masterStart db adminDb fs) es c) (j : String) : AssignGuard j es c :=
  h.invariant (I := AssignGuard j) (.start db adminDb fs)
    fun _ _ _ _ hI hok hstep => hI.step hok.1 hok.2 hstep

/-- **A job is assigned at most once** in every run of the server with fresh identifiers,
however the calls, the reports and the passes are interleaved. -/
theorem assigned_at_most_once {db : Option Db} {adminDb : Db} {fs : Fs} {c : MasterConfig Db Fs}
    {es : List MasterEvent}
    (h : (master P).Run (fun c ev => wired c ev = true ∧ freshJobId c ev = true)
      (masterStart db adminDb fs) es c) (j : String) : es.countP (assignsJob j) ≤ 1 :=
  (assignGuard_of_run h j).once

/-- The job of `assignSchedule` is assigned, and a second pass finds the queue empty. -/
def passAgain : List (Choice Env Task) :=
  assignSchedule ++ performs 4 (.schedulePass .id) { now := 104 } 1

/-- The law at work: two passes, and one assignment. -/
theorem assigned_at_most_once_passAgain :
    ∃ es c, (master barePlatform).Run (fun c ev => wired c ev = true ∧ freshJobId c ev = true)
        (masterStart none {} ()) es c ∧
      c.threads.countP (fun th => th.task matches .schedulePass _) = 2 ∧
      es.countP (assignsJob "job-00000000") = 1 := by
  obtain ⟨es, c, hrun, hp⟩ := System.exists_trace (S := master barePlatform)
    (g := fun c ev => wired c ev && freshJobId c ev) (c := masterStart none {} ())
    (p := fun es c => c.threads.countP (fun th => th.task matches .schedulePass _) = 2 ∧
      1 ≤ es.countP (assignsJob "job-00000000")) passAgain (by decide)
  obtain ⟨hpasses, hone⟩ := of_decide_eq_true hp
  have hrun' := hrun.mono fun c ev hg => (Bool.and_eq_true _ _).mp hg
  exact ⟨es, c, hrun', hpasses, Nat.le_antisymm (assigned_at_most_once hrun' _) hone⟩

/-! ### The submission behind a record -/

/-- The event is the submission that the record stems from. -/
def submitsJob (j : String) (info : JobInfo) (ev : MasterEvent) : Prop :=
  ∃ i t e, ev = .did i t e (.job (.submitJob info.spec info.userId info.username)) j

theorem submitsJob_congr {j : String} {info info' : JobInfo} {ev : MasterEvent}
    (h : submitsJob j info ev) (hd : info'.data = info.data) : submitsJob j info' ev := by
  obtain ⟨i, t, e, rfl⟩ := h
  simp only [JobInfo.data, SubmissionData.mk.injEq] at hd
  obtain ⟨hspec, huser, hname, -⟩ := hd
  exact ⟨i, t, e, by rw [hspec, huser, hname]⟩

/-- **Every record stems from a submission**, in every run of the master. -/
theorem submitted_of_run {ok : MasterConfig Db Fs → MasterEvent → Prop} {db : Option Db}
    {adminDb : Db} {fs : Fs} {c : MasterConfig Db Fs} {es : List MasterEvent}
    (h : (master P).Run ok (masterStart db adminDb fs) es c) :
    ∀ j info, c.state.jobMgr.jobs.lookup j = some info → ∃ ev ∈ es, submitsJob j info ev := by
  induction h with
  | nil =>
    intro j info hj
    cases hj
  | @snoc es c₁ c₂ ev hrun hg hstep ih =>
    have hold (j : String) (info : JobInfo) (hj : c₁.state.jobMgr.jobs.lookup j = some info) :
        ∃ ev' ∈ es ++ [ev], submitsJob j info ev' := by
      obtain ⟨ev', hev', hsub⟩ := ih j info hj
      exact ⟨ev', List.mem_append_left _ hev', hsub⟩
    cases hstep with
    | start t => exact hold
    | did i t e op k hi =>
      cases op with
      | job o =>
        cases hs : o.isSubmit with
        | true =>
          cases o with
          | submitJob spec userId username =>
            intro j info hj
            change (c₁.state.exec P e _).2.jobMgr.jobs.lookup j = some info at hj
            rw [MasterState.exec_job, JobManager.exec_submitJob_jobs, Table.lookup_insert] at hj
            split at hj
            · rename_i hid
              obtain rfl := Option.some.inj hj
              subst hid
              exact ⟨_, List.mem_append_right _ List.mem_cons_self, i, t, e, rfl⟩
            · exact hold j info hj
          | _ => cases hs
        | false =>
          intro j info hj
          change (c₁.state.exec P e _).2.jobMgr.jobs.lookup j = some info at hj
          rw [MasterState.exec_job, JobManager.lookup_exec _ _ _ hs] at hj
          obtain ⟨info₀, hj₀, rfl⟩ := Option.map_eq_some_iff.mp hj
          obtain ⟨ev', hev', hsub⟩ := hold j info₀ hj₀
          exact ⟨ev', hev', submitsJob_congr hsub (JobManager.touch_data e.now o j info₀)⟩
      | _ => exact hold

/-! ### The assignment on record -/

/-- The event is the assignment of the job to the node by the scheduler. -/
def assignsTo (j n : String) (ev : MasterEvent) : Prop :=
  ∃ i sort e r, ev = .did i (.schedulePass sort) e (.job (.updateJobStatus j .assigned n)) r

theorem assignsJob_of_assignsTo {j n : String} {ev : MasterEvent} (h : assignsTo j n ev) :
    assignsJob j ev = true := by
  obtain ⟨i, sort, e, r, rfl⟩ := h
  simp [assignsJob]

/-- The specification on the record was submitted, and the job assigned to the node on the
record after that. -/
def AssignedAfter (es : List MasterEvent) (j : String) (info : JobInfo) : Prop :=
  ∃ before ev after, es = before ++ ev :: after ∧ assignsTo j info.assignedNodeId ev ∧
    ∃ sub ∈ before, submitsJob j info sub

theorem AssignedAfter.concat {es : List MasterEvent} {j : String} {info : JobInfo}
    (h : AssignedAfter es j info) (ev : MasterEvent) : AssignedAfter (es ++ [ev]) j info := by
  obtain ⟨before, ev', after, rfl, hrest⟩ := h
  exact ⟨before, ev', after ++ [ev], by simp, hrest⟩

/-- If the job is assigned, the node on its record is that of an assignment, and the
registry knows it. -/
def OnRecord (es : List MasterEvent) (s : MasterState Db Fs) (j : String) (info : JobInfo) : Prop :=
  info.status = .assigned → AssignedAfter es j info ∧
    (s.nodeRegistry.nodes.lookup info.assignedNodeId).isSome = true

theorem OnRecord.concat {es : List MasterEvent} {s s' : MasterState Db Fs} {j : String}
    {info : JobInfo} (h : OnRecord es s j info) (ev : MasterEvent) (hk : KeepsNodes s s') :
    OnRecord (es ++ [ev]) s' j info := by
  intro hst
  obtain ⟨hass, hnode⟩ := h hst
  exact ⟨hass.concat ev, hk _ hnode⟩

/-- No task of the server takes a node out of the registry. -/
theorem Heard.keepsNodes {es : List MasterEvent} {c : MasterConfig Db Fs} (h : Heard es c) {i : ℕ}
    {t : Task} {e : Env} {op : MasterOp} {cont : op.Res → MasterProg Reply}
    (hi : c.threads[i]? = some ⟨t, .call op cont⟩) :
    KeepsNodes c.state (c.state.exec P e op).2 := by
  intro n hn
  have hk := (h.threads _ (List.mem_of_getElem? hi)).1
  rcases lookup_after (P := P) (s := c.state) (e := e) hk i t n with ⟨-, node, hl, -⟩ | ⟨-, hl⟩
  · exact Option.isSome_iff_exists.mpr ⟨node, hl⟩
  · rw [hl]
    exact hn

/-- A sweep leaves a job assigned only by assigning it, or as it was. -/
theorem touch_assigned {now : ℤ} {o : JobOp} {j : String} {info : JobInfo}
    (h : (o.touch now j info).status = .assigned) :
    o.touch now j info = info ∨ ∃ n, o = .updateJobStatus j .assigned n := by
  cases o with
  | updateJobStatus jobId status n =>
    rw [JobOp.touch] at h ⊢
    split at h
    · rename_i hid
      subst hid
      rw [JobManager.setStatus_status] at h
      exact Or.inr ⟨n, by rw [h]⟩
    · rename_i hid
      exact Or.inl (if_neg hid)
  | failJobsOnNode n =>
    rw [JobOp.touch, JobManager.failOnNode] at h ⊢
    split at h
    · cases h
    · rename_i hnot
      exact Or.inl (if_neg hnot)
  | cancelJob jobId =>
    refine Or.inl ?_
    by_cases hid : j = jobId
    · rw [JobOp.touch, if_pos hid, JobManager.cancel] at h ⊢
      split at h
      · rename_i hend
        exact if_pos hend
      · cases h
    · exact if_neg hid
  | _ => exact Or.inl rfl

/-- **The assignment is on record** in every run of the server. -/
theorem onRecord_of_run {db : Option Db} {adminDb : Db} {fs : Fs} {c : MasterConfig Db Fs}
    {es : List MasterEvent}
    (h : (master P).Run (fun c ev => wired c ev = true) (masterStart db adminDb fs) es c) :
    ∀ j info, c.state.jobMgr.jobs.lookup j = some info → OnRecord es c.state j info := by
  induction h with
  | nil =>
    intro j info hj
    cases hj
  | @snoc es c₁ c₂ ev hrun hw hstep ih =>
    have hheard := heard_of_run hrun fun _ _ hg => hg
    have hwrites := writes_of_run hrun
    have hassigned (n : String) (t : ℤ) (hass : assignment ev = some (n, t)) :=
      hheard.assigned hstep hass
    cases hstep with
    | start t => exact fun j info hj => (ih j info hj).concat _ fun _ hn => hn
    | did i t e op cont hi =>
      have hk : KeepsNodes c₁.state (c₁.state.exec P e op).2 := hheard.keepsNodes hi
      have hop := (hwrites _ (List.mem_of_getElem? hi)).1
      cases op with
      | job o =>
        refine JobManager.forall_exec_of_lookup P.store e c₁.state.jobMgr
          (fun _ _ _ _ hst => by cases hst) (fun j info hj => (ih j info hj).concat _ hk)
          fun j info hj hst => ?_
        rcases touch_assigned hst with hsame | ⟨n, rfl⟩
        · rw [hsame] at hst ⊢
          exact (ih j info hj).concat _ hk hst
        · -- the step is an assignment, to a node that the registry knows
          obtain ⟨sort, rfl⟩ := Task.eq_of_writes_assigned (hop j .assigned n rfl)
          obtain ⟨node, hnode, -⟩ := hassigned n e.now rfl
          have hne : n ≠ "" := (hheard.keyed n node hnode).2
          have hid : (JobOp.touch e.now (.updateJobStatus j .assigned n) j info).assignedNodeId =
              n := by
            rw [JobOp.touch, if_pos rfl, JobManager.setStatus_assignedNodeId, if_pos ⟨rfl, hne⟩]
          obtain ⟨sub, hmem, hsub⟩ := submitted_of_run hrun j info hj
          refine ⟨⟨es, _, [], rfl, ⟨i, sort, e, _, by rw [hid]⟩, sub, hmem,
            submitsJob_congr hsub (JobManager.touch_data _ _ _ _)⟩, ?_⟩
          rw [hid]
          exact hk n (Option.isSome_iff_exists.mpr ⟨node, hnode⟩)
      | _ => exact fun j info hj => (ih j info hj).concat _ hk

/-- **An assigned job is where it was put**: in every run of the server with fresh
identifiers, a job that is assigned was assigned in exactly one event, by the scheduler,
to the node that its record names, and the registry knows this node. -/
theorem assigned_on_record {db : Option Db} {adminDb : Db} {fs : Fs} {c : MasterConfig Db Fs}
    {es : List MasterEvent}
    (h : (master P).Run (fun c ev => wired c ev = true ∧ freshJobId c ev = true)
      (masterStart db adminDb fs) es c) {j : String} {info : JobInfo}
    (hj : c.state.jobMgr.jobs.lookup j = some info) (hst : info.status = .assigned) :
    es.countP (assignsJob j) = 1 ∧ (∃ ev ∈ es, assignsTo j info.assignedNodeId ev) ∧
      ∃ node, c.state.nodeRegistry.nodes.lookup info.assignedNodeId = some node := by
  obtain ⟨⟨before, ev, after, rfl, hass, -⟩, hnode⟩ :=
    onRecord_of_run (h.mono fun _ _ hg => hg.1) j info hj hst
  have hev : ev ∈ before ++ ev :: after := List.mem_append_right _ List.mem_cons_self
  have hpos : 0 < (before ++ ev :: after).countP (assignsJob j) :=
    List.countP_pos_iff.mpr ⟨ev, hev, assignsJob_of_assignsTo hass⟩
  have hle := (assignGuard_of_run h j).once
  exact ⟨by omega, ⟨ev, hev, hass⟩, Option.isSome_iff_exists.mp hnode⟩

/-- The law at work: after `assignSchedule` the job is on record with the node that has
registered. -/
theorem assigned_on_record_assignSchedule :
    ∃ es c, (master barePlatform).Run (fun c ev => wired c ev = true ∧ freshJobId c ev = true)
        (masterStart none {} ()) es c ∧
      (∃ ev ∈ es, assignsTo "job-00000000" "node-00000000" ev) ∧
      ∃ node, c.state.nodeRegistry.nodes.lookup "node-00000000" = some node := by
  obtain ⟨es, c, hrun, hp⟩ := System.exists_run (S := master barePlatform)
    (g := fun c ev => wired c ev && freshJobId c ev) (c := masterStart none {} ())
    (p := fun c => (c.state.jobMgr.jobs.lookup "job-00000000").any fun info =>
      info.status = .assigned ∧ info.assignedNodeId = "node-00000000") assignSchedule (by decide)
  obtain ⟨info, hj, hinfo⟩ := (Option.any_eq_true _ _).mp hp
  obtain ⟨hst, hn⟩ := of_decide_eq_true hinfo
  have hrun' := hrun.mono fun c ev hg => (Bool.and_eq_true _ _).mp hg
  obtain ⟨-, hass, hnode⟩ := assigned_on_record hrun' hj hst
  exact ⟨es, c, hrun', hn ▸ hass, hn ▸ hnode⟩

end CertOS
