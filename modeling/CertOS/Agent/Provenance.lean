import CertOS.Agent.MasterInside

/-!
# Where a process comes from

A process that the agent forks belongs to a job that a polling round was handed, and
the answer of that round was made from the job table of the master. So it can be traced
back: the job was submitted by a client, with just the specification the process is
started from, and the scheduler assigned it to this node; both before the fork
(`CertOS.forked_as_submitted`).

The trail is laid in two places. What the job table knows of the history is a law of the
master alone, and comes here through `CertOS.master_of_cluster`
(`CertOS.ordered_of_run`). How it gets from the table to the fork is an invariant of
the places of the agent (`CertOS.Traced`).
-/

namespace CertOS

open Interleave

variable {Db Fs : Type} {P : Platform Db Fs} {nodeId workDir : String}

/-! ### What the job table knows -/

/-- The event is a submission of the specification that was answered with the job. -/
def clusterSubmits (j : String) (spec : JobSpec) (ev : ClusterEvent) : Prop :=
  ∃ i t e userId username,
    ev = .did i t e (.master (.job (.submitJob spec userId username))) j

/-- The event is the assignment of the job to the node by the scheduler. -/
def clusterAssigns (j n : String) (ev : ClusterEvent) : Prop :=
  ∃ i sort e r, ev = .did i (.master (.schedulePass sort)) e
    (.master (.job (.updateJobStatus j .assigned n))) r

/-- **An operation of the run of the master** is one of the run of the system, for the task
that makes the call, and what comes before it there comes before it here. -/
theorem split_event {es : List ClusterEvent} {before after : List MasterEvent} {i : ℕ} {t : Task}
    {e : Env} {op : MasterOp} {r : op.Res}
    (h : List.Forall₂ (masterInside P nodeId workDir).Same
      ((before ++ .did i t e op r :: after).filterMap Event.act)
      (es.filterMap (masterInside P nodeId workDir).seenAct)) :
    ∃ before' i' t' e' after', es = before' ++ .did i' t' e' (.master op) r :: after' ∧
      (masterInside P nodeId workDir).Serves t' t ∧
      List.Forall₂ (masterInside P nodeId workDir).Same (before.filterMap Event.act)
        (before'.filterMap (masterInside P nodeId workDir).seenAct) := by
  obtain ⟨before', ev, after', y, rfl, hseen, hxy, hbefore⟩ := Contains.split_of_same h rfl
  cases ev with
  | start t => cases hseen
  | did i' t' e' op' r' =>
    cases op' with
    | master o =>
      cases hseen
      obtain ⟨hserves, heq⟩ := hxy
      cases heq
      exact ⟨before', i', t', e', after', rfl, hserves, hbefore⟩
    | _ => cases hseen

/-- The same, without its place in the run. -/
theorem exists_event {es : List ClusterEvent} {es' : List MasterEvent}
    (h : List.Forall₂ (masterInside P nodeId workDir).Same (es'.filterMap Event.act)
      (es.filterMap (masterInside P nodeId workDir).seenAct))
    {i : ℕ} {t : Task} {e : Env} {op : MasterOp} {r : op.Res} (hev : .did i t e op r ∈ es') :
    ∃ i' t' e', .did i' t' e' (.master op) r ∈ es := by
  obtain ⟨before, after, rfl⟩ := List.append_of_mem hev
  obtain ⟨before', i', t', e', after', rfl, -⟩ := split_event h
  exact ⟨i', t', e', List.mem_append_right _ List.mem_cons_self⟩

/-- A pass of the scheduler is no call of the agent. -/
theorem eq_schedulePass_of_serves {t' : ClusterTask} {sort : Reorder JobInfo}
    (h : (masterInside P nodeId workDir).Serves t' (.schedulePass sort)) :
    t' = .master (.schedulePass sort) := by
  rcases h with hopens | ⟨call, -, heq⟩
  · cases t' with
    | master t =>
      obtain rfl := Option.some.inj hopens
      rfl
    | _ => cases hopens
  · cases heq

/-- **The order of a job**: the specification was submitted as the job, and after that the
scheduler assigned the job to the node. -/
def Ordered (nodeId : String) (es : List ClusterEvent) (j : String) (spec : JobSpec) : Prop :=
  ∃ before ev after, es = before ++ ev :: after ∧ clusterAssigns j nodeId ev ∧
    ∃ sub ∈ before, clusterSubmits j spec sub

theorem Ordered.append {es : List ClusterEvent} {j : String} {spec : JobSpec}
    (h : Ordered nodeId es j spec) (es' : List ClusterEvent) :
    Ordered nodeId (es ++ es') j spec := by
  obtain ⟨before, ev, after, rfl, hrest⟩ := h
  exact ⟨before, ev, after ++ es', by simp, hrest⟩

theorem Ordered.submitted {es : List ClusterEvent} {j : String} {spec : JobSpec}
    (h : Ordered nodeId es j spec) : ∃ ev ∈ es, clusterSubmits j spec ev := by
  obtain ⟨before, ev, after, rfl, -, sub, hmem, hsub⟩ := h
  exact ⟨sub, List.mem_append_left _ hmem, hsub⟩

theorem Ordered.assigned {es : List ClusterEvent} {j : String} {spec : JobSpec}
    (h : Ordered nodeId es j spec) : ∃ ev ∈ es, clusterAssigns j nodeId ev := by
  obtain ⟨before, ev, after, rfl, hass, -⟩ := h
  exact ⟨ev, List.mem_append_right _ List.mem_cons_self, hass⟩

/-- **What the job table knows**: a job that is assigned was ordered, with the specification
and for the node on its record. -/
theorem ordered_of_run {db : Option Db} {adminDb : Db} {fairShare : Fs}
    {es : List ClusterEvent} {c : ClusterConfig Db Fs}
    (h : (cluster P nodeId workDir).Run
      (fun c ev => clusterWired c ev = true ∧ freshClusterJobId c ev = true)
      (clusterStart db adminDb fairShare) es c) {j : String} {info : JobInfo}
    (hj : c.state.master.jobMgr.jobs.lookup j = some info) (hst : info.status = .assigned) :
    Ordered info.assignedNodeId es j info.spec := by
  obtain ⟨es', d, hmaster, hstate, hsame, -⟩ :=
    Contains.run (masterInside_proper P nodeId workDir) masterInside_guards h
  have hj' : d.state.jobMgr.jobs.lookup j = some info := by
    rw [hstate]
    exact hj
  obtain ⟨⟨before, ev, after, rfl, ⟨i, sort, e, r, rfl⟩, sub, hmem, i₀, t₀, e₀, rfl⟩, -⟩ :=
    onRecord_of_run (hmaster.mono fun _ _ hg => hg.1) j info hj' hst
  obtain ⟨before', i', t', e', after', rfl, hserves, hbefore⟩ := split_event hsame
  obtain ⟨i₁, t₁, e₁, hev⟩ := exists_event hbefore hmem
  obtain rfl := eq_schedulePass_of_serves hserves
  exact ⟨before', _, after', rfl, ⟨i', sort, e', r, rfl⟩, _, hev, i₁, t₁, e₁, _, _, rfl⟩

/-! ### From the table to the fork -/

/-- A quiet place after a move was one before, or a thread has just been started there. -/
theorem Moves.quiet_inv {ps ps' : List Place} {s s' : ClusterState Db Fs} {ev : ClusterEvent}
    (h : Moves P nodeId workDir ps s ev ps' s') {i : ℕ} (hi : ps'[i]? = some .quiet) :
    ps[i]? = some .quiet ∨ (i = ps.length ∧ ∃ t, ev = .start t ∧ startPlace t = .quiet) := by
  have hset {k : ℕ} {p : Place} (hi : (ps.set k p)[i]? = some .quiet) (hp : p ≠ .quiet) :
      ps[i]? = some .quiet := by
    rcases System.getElem?_set_inv hi with ⟨-, heq⟩ | ⟨-, hi⟩
    · exact absurd heq.symm hp
    · exact hi
  cases h with
  | started t =>
    rcases System.getElem?_concat_inv hi with hi | ⟨hlen, ht⟩
    · exact Or.inl hi
    · exact Or.inr ⟨hlen, t, rfl, ht.symm⟩
  | quiet t e hk hq => exact Or.inl hi
  | fetched t e hk => exact Or.inl (hset hi nofun)
  | handed t e hk hnew =>
    rcases System.getElem?_concat_inv hi with hi | ⟨-, heq⟩
    · exact Or.inl (hset hi nofun)
    · cases heq
  | refused t e hk hold => exact Or.inl (hset hi nofun)
  | executed e hk hs => exact Or.inl (hset hi nofun)

/-- **The rule for the programs at quiet places**: what the programs of the tasks have that
are started there, and what the own step of a thread and the steps of the others keep. -/
theorem Placed.quiet_step {c c' : ClusterConfig Db Fs} {ps ps' : List Place} {ev : ClusterEvent}
    {q q' : AgentProg Reply → Prop} (h : Placed P nodeId workDir c ps)
    (hs : (cluster P nodeId workDir).Step c ev c')
    (hm : Moves P nodeId workDir ps c.state ev ps' c'.state)
    (hq : ∀ (i : ℕ) th, c.threads[i]? = some th → ps[i]? = some .quiet → q th.prog)
    (hspawn : ∀ t, ev = .start t → startPlace t = .quiet → q' ((cluster P nodeId workDir).body t))
    (hown : ∀ i t e op k, ev = .did i t e op (c.state.exec P e op).1 →
      c.threads[i]? = some ⟨t, .call op k⟩ → q (.call op k) → q' (k (c.state.exec P e op).1))
    (hmono : ∀ p, q p → q' p) :
    ∀ (i : ℕ) th, c'.threads[i]? = some th → ps'[i]? = some .quiet → q' th.prog := by
  intro k th hth hk
  rcases hm.quiet_inv hk with hold | ⟨rfl, t, rfl, ht⟩
  · cases hs with
    | start t =>
      rcases System.getElem?_start hth with hth | ⟨rfl, -⟩
      · exact hmono _ (hq k th hth hold)
      · have hlt := (List.getElem?_eq_some_iff.mp hold).1
        rw [h.length_eq] at hlt
        exact absurd hlt (Nat.lt_irrefl _)
    | did i t e op cont hi =>
      rcases System.getElem?_after hth with ⟨rfl, rfl⟩ | ⟨-, hth⟩ | ⟨hge, -⟩
      · exact hown k t e op cont rfl hi (hq k _ hi hold)
      · exact hmono _ (hq k th hth hold)
      · have hlt := (List.getElem?_eq_some_iff.mp hold).1
        rw [h.length_eq] at hlt
        exact absurd hlt (Nat.not_lt.mpr hge)
  · cases hs with
    | start t =>
      rw [h.length_eq] at hth
      have hlast : (c.threads ++ [(cluster P nodeId workDir).spawn t])[c.threads.length]? =
          some ((cluster P nodeId workDir).spawn t) := by simp
      obtain rfl := Option.some.inj (hlast.symm.trans hth)
      exact hspawn t rfl ht

/-- What a thread holds or executes was ordered. -/
def Traced (nodeId : String) (es : List ClusterEvent) : Place → Prop
  | .polling (.holding jobId spec) | .execution jobId spec _ => Ordered nodeId es jobId spec
  | _ => True

theorem Traced.append {es : List ClusterEvent} {p : Place} (h : Traced nodeId es p)
    (es' : List ClusterEvent) : Traced nodeId (es ++ es') p := by
  cases p with
  | quiet => trivial
  | polling pl =>
    cases pl with
    | holding jobId spec => exact Ordered.append h es'
    | _ => trivial
  | execution jobId spec pl => exact Ordered.append h es'

/-- A response is made from a record of the table that is assigned to the node. -/
theorem traced_polled {es : List ClusterEvent} {m : JobManager Db} (hk : m.Keyed) {e : Env}
    (hknows : ∀ j info, m.jobs.lookup j = some info → info.status = .assigned →
      Ordered info.assignedNodeId es j info.spec) :
    Traced nodeId es (.polling (polled nodeId (m.listJobs e .assigned))) := by
  rw [polled]
  cases hfind : (m.listJobs e .assigned).find? fun job => job.assignedNodeId = nodeId with
  | none => trivial
  | some info =>
    obtain ⟨⟨j, hj⟩, hst⟩ := (m.mem_listJobs e).mp (List.mem_of_find?_eq_some hfind)
    have hnode : info.assignedNodeId = nodeId := of_decide_eq_true (List.find?_some hfind :)
    have hid := hk j info hj
    have hordered := hknows j info hj (hst.resolve_left (by decide))
    rw [hnode, ← hid] at hordered
    exact hordered

/-- **A move keeps the trail.** -/
theorem Moves.traced {es : List ClusterEvent} {ev : ClusterEvent} {ps ps' : List Place}
    {s s' : ClusterState Db Fs} (hm : Moves P nodeId workDir ps s ev ps' s')
    (hk : s.master.jobMgr.Keyed) (hstart : startsNoExecution ev = true)
    (hknows : ∀ j info, s.master.jobMgr.jobs.lookup j = some info → info.status = .assigned →
      Ordered info.assignedNodeId es j info.spec)
    (h : ∀ p ∈ ps, Traced nodeId es p) : ∀ p ∈ ps', Traced nodeId (es ++ [ev]) p := by
  have hold (p : Place) (hp : p ∈ ps) : Traced nodeId (es ++ [ev]) p := (h p hp).append _
  have hset {i : ℕ} {w : Place} (hw : Traced nodeId es w) (p : Place) (hp : p ∈ ps.set i w) :
      Traced nodeId (es ++ [ev]) p := by
    rcases List.mem_or_eq_of_mem_set hp with hp | rfl
    · exact hold p hp
    · exact hw.append _
  cases hm with
  | started t =>
    intro p hp
    rcases List.mem_append.mp hp with hp | hp
    · exact hold p hp
    · obtain rfl := List.mem_singleton.mp hp
      cases t with
      | execution => cases hstart
      | _ => trivial
  | quiet t e hi hq => exact hold
  | fetched t e hi => exact hset (traced_polled hk hknows)
  | handed t e hi hnew =>
    intro p hp
    rcases List.mem_append.mp hp with hp | hp
    · exact hset (w := .polling .ended) trivial p hp
    · obtain rfl := List.mem_singleton.mp hp
      exact Traced.append (h _ (List.mem_of_getElem? hi)) _
  | refused t e hi hold => exact hset (w := .polling .ended) trivial
  | executed e hi hs =>
    exact hset (w := .execution _ _ _) (show Ordered nodeId es _ _ from
      h _ (List.mem_of_getElem? hi))

theorem traced_of_run {db : Option Db} {adminDb : Db} {fairShare : Fs} {es : List ClusterEvent}
    {c : ClusterConfig Db Fs}
    (h : (cluster P nodeId workDir).Run
      (fun c ev => clusterWired c ev = true ∧ freshClusterJobId c ev = true)
      (clusterStart db adminDb fairShare) es c) :
    ∃ ps, Placed P nodeId workDir c ps ∧ ∀ p ∈ ps, Traced nodeId es p := by
  obtain ⟨ps, hplaced, -, htraced⟩ := run_places_of_run
    (I := fun es (c : ClusterConfig Db Fs) (ps : List Place) =>
      c.state.master.jobMgr.Keyed ∧ ∀ p ∈ ps, Traced nodeId es p)
    ⟨fun j info hj => (by cases hj), fun p hp => (by cases hp)⟩
    (fun es c ev c' ps ps' hrun hplaced hI hok hs hm =>
      ⟨hm.keyed hI.1, hm.traced hI.1 (startsNoExecution_of_wired hok.1)
        (fun j info => ordered_of_run hrun) hI.2⟩) h
  exact ⟨ps, hplaced, htraced⟩

/-- A thread that forks is that of a job, and forks what the job asks for. -/
theorem Placed.fork_inv {c c' : ClusterConfig Db Fs} {ps : List Place}
    (h : Placed P nodeId workDir c ps) {i : ℕ} {t : ClusterTask} {e : ClusterEnv}
    {dir : Option String} {args : List String} {r : Option ℕ}
    (hs : (cluster P nodeId workDir).Step c (.did i t e (.executor (.fork dir args)) r) c') :
    ∃ j spec, t = .execution j spec ∧ .execution j spec .forking ∈ ps ∧
      dir = JobExecutor.childDir workDir j spec ∧
      args = JobExecutor.childArgs workDir j spec := by
  obtain ⟨k, hi, -, -⟩ := hs.did_inv
  obtain ⟨p, hp, hat⟩ := h.exists_place hi
  cases p with
  | quiet => cases (show quiet _ = true from hat.1)
  | polling pl =>
    have hprog : Prog.call (ClusterOp.executor (.fork dir args)) k = pollingAt P nodeId pl := hat
    cases pl with
    | fetching =>
      rw [pollingAt_fetching] at hprog
      cases hprog
    | holding jobId spec => cases hprog
    | ended => cases hprog
  | execution j spec pl =>
    obtain ⟨rfl, hprog⟩ : t = .execution j spec ∧
      Prog.call (ClusterOp.executor (.fork dir args)) k =
        executionAt P nodeId workDir j spec pl := hat
    obtain ⟨pl', -, hstep⟩ := executionAt_step hprog.symm r
    cases hstep with
    | forked | forkFailed => exact ⟨j, spec, rfl, List.mem_of_getElem? hp, rfl, rfl⟩

/-- **What is forked was submitted and assigned to this node**: in every run of the master
and one agent as they are wired, with fresh identifiers, every attempt to fork is made
by the thread of a job with the directory and the arguments that its specification asks
for, and before it a client has submitted this very specification as that job, and after
that the scheduler has assigned the job to this node. -/
theorem forked_as_submitted {db : Option Db} {adminDb : Db} {fairShare : Fs}
    {es₁ es₂ : List ClusterEvent} {c : ClusterConfig Db Fs} {i : ℕ} {t : ClusterTask}
    {e : ClusterEnv} {dir : Option String} {args : List String} {r : Option ℕ}
    (h : (cluster P nodeId workDir).Run
      (fun c ev => clusterWired c ev = true ∧ freshClusterJobId c ev = true)
      (clusterStart db adminDb fairShare)
      (es₁ ++ .did i t e (.executor (.fork dir args)) r :: es₂) c) :
    ∃ j spec, t = .execution j spec ∧ dir = JobExecutor.childDir workDir j spec ∧
      args = JobExecutor.childArgs workDir j spec ∧ Ordered nodeId es₁ j spec := by
  obtain ⟨c₁, c', hrun, -, hs, -⟩ := h.split
  obtain ⟨ps, hplaced, htraced⟩ := traced_of_run hrun
  obtain ⟨j, spec, ht, hmem, hdir, hargs⟩ := hplaced.fork_inv hs
  exact ⟨j, spec, ht, hdir, hargs, htraced _ hmem⟩

/-- The law at work: in the run of `runThenFetch`, up to the fork. -/
theorem forked_as_submitted_run :
    ∃ es c, (cluster barePlatform "node-00000000" "/work").Run
        (fun c ev => clusterWired c ev = true ∧ freshClusterJobId c ev = true)
        (clusterStart none {} ()) es c ∧ es.countP (forksJob "job-00000000") = 1 ∧
      ∃ spec, Ordered "node-00000000" es.dropLast "job-00000000" spec := by
  obtain ⟨es, c, hrun, hp⟩ := System.exists_trace
    (S := cluster barePlatform "node-00000000" "/work")
    (g := fun c ev => clusterWired c ev && freshClusterJobId c ev) (c := clusterStart none {} ())
    (p := fun es _ => es.countP (forksJob "job-00000000") = 1 ∧
      es.getLast?.any (forksJob "job-00000000"))
    (fetchSchedule ++ List.replicate 2 (.move 4 {})) (by decide +kernel)
  obtain ⟨hcount, hlast⟩ := of_decide_eq_true hp
  obtain ⟨ev, hev, hforks⟩ := (Option.any_eq_true _ _).mp hlast
  have hes : es.dropLast ++ [ev] = es := List.dropLast_append_getLast? ev hev
  have hrun' := hrun.mono fun c ev hg => (Bool.and_eq_true _ _).mp hg
  obtain ⟨i, spec, e, dir, args, pid, rfl⟩ := forksJob_iff.mp hforks
  have hsplit := hrun'
  rw [← hes] at hsplit
  obtain ⟨j, spec', ht, -, -, hordered⟩ := forked_as_submitted hsplit
  cases ht
  exact ⟨es, c, hrun', hcount, spec, hordered⟩

end CertOS
