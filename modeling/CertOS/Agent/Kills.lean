import CertOS.Agent.Provenance

/-!
# No kill without a cancellation

A heartbeat carries the names of the jobs to cancel back to the agent, which then
signals their processes. `CertOS.cancellation_delivered` is about the names that have to
be carried; this module is about the others. The agent calls `cancel` for no job but
those that the answer to a heartbeat of this very node has named, and the master names
no job that a client has not cancelled before (`CertOS.killed_was_cancelled`).

A heartbeat is a quiet thread for the rest of the development. Here its places matter
(`CertOS.HeartbeatPlace`): the last of them remembers the names that are left.
-/

namespace CertOS

open Interleave

variable {Db Fs : Type} {P : Platform Db Fs} {nodeId workDir : String}

/-! ### Cancelled jobs -/

/-- No task writes `CANCELLED` with a status update. -/
theorem Task.writes_cancelled (t : Task) : t.writes .cancelled = false := by
  cases t with
  | rpc metadata rpc => cases rpc <;> rfl
  | _ => rfl

/-- A sweep leaves a job cancelled only by cancelling it, by a status update, or as it
was. -/
theorem touch_cancelled {now : ℤ} {o : JobOp} {j : String} {info : JobInfo}
    (h : (o.touch now j info).status = .cancelled) :
    info.status = .cancelled ∨ o = .cancelJob j ∨ ∃ n, o = .updateJobStatus j .cancelled n := by
  cases o with
  | updateJobStatus jobId status n =>
    rw [JobOp.touch] at h
    split at h
    · rename_i hid
      subst hid
      rw [JobManager.setStatus_status] at h
      exact Or.inr (Or.inr ⟨n, by rw [h]⟩)
    · exact Or.inl h
  | failJobsOnNode n =>
    rw [JobOp.touch, JobManager.failOnNode] at h
    split at h
    · cases h
    · exact Or.inl h
  | cancelJob jobId =>
    by_cases hid : j = jobId
    · exact Or.inr (Or.inl (by rw [hid]))
    · rw [JobOp.touch, if_neg hid] at h
      exact Or.inl h
  | _ => exact Or.inl h

/-- **A cancelled job was cancelled**: in every run of the master, whatever tasks are
started, a job that is cancelled is one whose cancellation has succeeded. -/
theorem cancelled_of_run {ok : MasterConfig Db Fs → MasterEvent → Prop} {db : Option Db}
    {adminDb : Db} {fs : Fs} {c : MasterConfig Db Fs} {es : List MasterEvent}
    (h : (master P).Run ok (masterStart db adminDb fs) es c) :
    ∀ j info, c.state.jobMgr.jobs.lookup j = some info → info.status = .cancelled →
      ∃ i t e, .did i t e (.job (.cancelJob j)) true ∈ es := by
  induction h with
  | nil =>
    intro j info hj
    cases hj
  | @snoc es c₁ c₂ ev hrun hg hstep ih =>
    have hold (j : String) (info : JobInfo) (hj : c₁.state.jobMgr.jobs.lookup j = some info)
        (hst : info.status = .cancelled) :
        ∃ i t e, .did i t e (.job (.cancelJob j)) true ∈ es ++ [ev] := by
      obtain ⟨i, t, e, hev⟩ := ih j info hj hst
      exact ⟨i, t, e, List.mem_append_left _ hev⟩
    have hwrites := writes_of_run hrun
    cases hstep with
    | start t => exact hold
    | did i t e op k hi =>
      have hop := (hwrites _ (List.mem_of_getElem? hi)).1
      cases op with
      | job o =>
        intro j info hj hst
        change (c₁.state.exec P e (.job o)).2.jobMgr.jobs.lookup j = some info at hj
        cases hs : o.isSubmit with
        | true =>
          cases o with
          | submitJob spec userId username =>
            rw [MasterState.exec_job, JobManager.exec_submitJob_jobs, Table.lookup_insert] at hj
            split at hj
            · obtain rfl := Option.some.inj hj
              cases hst
            · exact hold j info hj hst
          | _ => cases hs
        | false =>
          rw [MasterState.exec_job, JobManager.lookup_exec _ _ _ hs] at hj
          obtain ⟨info₀, hj₀, rfl⟩ := Option.map_eq_some_iff.mp hj
          by_cases hst₀ : info₀.status = .cancelled
          · exact hold j info₀ hj₀ hst₀
          rcases touch_cancelled hst with hst' | rfl | ⟨n, rfl⟩
          · exact absurd hst' hst₀
          · -- the step cancels the job, which had not ended
            have hok : (c₁.state.jobMgr.cancelJob e j).1 = true := by
              have hnot : ¬ (info₀.status = .completed ∨ info₀.status = .failed ∨
                  info₀.status = .cancelled) := by
                intro hend
                rw [JobOp.touch, if_pos rfl, JobManager.cancel, if_pos hend] at hst
                exact hst₀ hst
              simp [JobManager.cancelJob, hj₀, hnot]
            exact ⟨i, t, e, List.mem_append_right _ (List.mem_singleton.mpr (by
              simp [JobManager.exec, hok]))⟩
          · have hw := hop j .cancelled n rfl
            rw [Task.writes_cancelled] at hw
            cases hw
      | _ => exact hold

/-! ### Heartbeats -/

/-- How far a heartbeat is. -/
inductive HeartbeatPlace where
  /-- In front of the count of the running jobs. -/
  | counting
  /-- In front of the time stamp. -/
  | stamping (runningJobs : UInt32)
  /-- In front of the heartbeat itself. -/
  | beating (runningJobs : UInt32)
  /-- In front of the look for the jobs to cancel. -/
  | asking
  /-- In front of the cancellation of these jobs, or at the end. -/
  | cancelling (jids : List String)

variable (P nodeId) in
/-- What is left of a heartbeat at a place. -/
def heartbeatAt : HeartbeatPlace → AgentProg Reply
  | .counting => (fun _ => .done) <$> Agent.heartbeatRound P nodeId
  | .stamping runningJobs => .call .now fun _ =>
      .call (.master (.node (.updateHeartbeat nodeId Agent.fakeAvailable runningJobs))) fun ok =>
        if ok then
          .call (.master (.job (.getJobsToCancelForNode nodeId))) fun jids =>
            (fun _ => .done) <$> Agent.cancelAll jids
        else .ret .done
  | .beating runningJobs =>
      .call (.master (.node (.updateHeartbeat nodeId Agent.fakeAvailable runningJobs))) fun ok =>
        if ok then
          .call (.master (.job (.getJobsToCancelForNode nodeId))) fun jids =>
            (fun _ => .done) <$> Agent.cancelAll jids
        else .ret .done
  | .asking => .call (.master (.job (.getJobsToCancelForNode nodeId))) fun jids =>
      (fun _ => .done) <$> Agent.cancelAll jids
  | .cancelling jids => (fun _ => .done) <$> Agent.cancelAll jids

theorem heartbeatAt_counting : heartbeatAt P nodeId .counting =
    .call (.executor .getRunningCount) fun runningJobs =>
      heartbeatAt P nodeId (.stamping runningJobs) := by
  simp only [heartbeatAt, Agent.heartbeatRound, Agent.sendHeartbeat, Agent.rpc, serve_eq_handle]
  refine congrArg (Prog.call _) (funext fun runningJobs => ?_)
  refine congrArg (Prog.call _) (funext fun timestamp => ?_)
  refine congrArg (Prog.call _) (funext fun ok => ?_)
  cases ok with
  | false => rfl
  | true => rfl

/-- What one step of a heartbeat does to the names that are left: the answer of the master
sets them, and a cancellation takes the first. -/
inductive HeartbeatStep (nodeId : String) :
    HeartbeatPlace → (op : ClusterOp) → op.Res → HeartbeatPlace → Prop
  | counted (runningJobs : UInt32) : HeartbeatStep nodeId .counting (.executor .getRunningCount)
      runningJobs (.stamping runningJobs)
  | stamped (runningJobs : UInt32) (t : ℤ) :
      HeartbeatStep nodeId (.stamping runningJobs) .now t (.beating runningJobs)
  | acknowledged (runningJobs : UInt32) : HeartbeatStep nodeId (.beating runningJobs)
      (.master (.node (.updateHeartbeat nodeId Agent.fakeAvailable runningJobs))) true .asking
  | unknown (runningJobs : UInt32) : HeartbeatStep nodeId (.beating runningJobs)
      (.master (.node (.updateHeartbeat nodeId Agent.fakeAvailable runningJobs))) false
      (.cancelling [])
  | named (jids : List String) : HeartbeatStep nodeId .asking
      (.master (.job (.getJobsToCancelForNode nodeId))) jids (.cancelling jids)
  | cancelled (jid : String) (jids : List String) (ok : Bool) :
      HeartbeatStep nodeId (.cancelling (jid :: jids)) (.executor (.cancel jid)) ok
        (.cancelling jids)

/-- **One step of a heartbeat.** -/
theorem heartbeatAt_step {pl : HeartbeatPlace} {op : ClusterOp} {k : op.Res → AgentProg Reply}
    (h : heartbeatAt P nodeId pl = .call op k) (r : op.Res) :
    ∃ pl', k r = heartbeatAt P nodeId pl' ∧ HeartbeatStep nodeId pl op r pl' := by
  cases pl with
  | counting =>
    rw [heartbeatAt_counting] at h
    cases h
    exact ⟨_, rfl, .counted r⟩
  | stamping runningJobs =>
    cases h
    exact ⟨.beating runningJobs, rfl, .stamped runningJobs r⟩
  | beating runningJobs =>
    cases h
    cases r with
    | true => exact ⟨.asking, rfl, .acknowledged runningJobs⟩
    | false => exact ⟨.cancelling [], rfl, .unknown runningJobs⟩
  | asking =>
    cases h
    exact ⟨.cancelling r, rfl, .named r⟩
  | cancelling jids =>
    cases jids with
    | nil => cases h
    | cons jid jids =>
      cases h
      exact ⟨.cancelling jids, rfl, .cancelled jid jids r⟩

/-! ### The names -/

/-- The answer to a heartbeat of the node has named the job, after a cancellation of it had
succeeded. -/
def Named (nodeId : String) (es : List ClusterEvent) (j : String) : Prop :=
  ∃ es₁ es₂ i t e jids,
    es = es₁ ++ .did i t e (.master (.job (.getJobsToCancelForNode nodeId))) jids :: es₂ ∧
    j ∈ jids ∧ ∃ i t e, .did i t e (.master (.job (.cancelJob j))) true ∈ es₁

theorem Named.append {es : List ClusterEvent} {j : String} (h : Named nodeId es j)
    (es' : List ClusterEvent) : Named nodeId (es ++ es') j := by
  obtain ⟨es₁, es₂, i, t, e, jids, rfl, hj, hcancel⟩ := h
  exact ⟨es₁, es₂ ++ es', i, t, e, jids, by simp, hj, hcancel⟩

/-- The thread signals no process, or it is a heartbeat and the names that are left were
named. -/
def Signals (P : Platform Db Fs) (nodeId : String) (es : List ClusterEvent)
    (p : AgentProg Reply) : Prop :=
  p.Only (fun op => ∀ j, op ≠ .executor (.cancel j)) ∨
    ∃ pl, p = heartbeatAt P nodeId pl ∧
      ∀ jids, pl = .cancelling jids → ∀ j ∈ jids, Named nodeId es j

theorem Signals.append {es : List ClusterEvent} {p : AgentProg Reply} (h : Signals P nodeId es p)
    (es' : List ClusterEvent) : Signals P nodeId (es ++ es') p := by
  rcases h with h | ⟨pl, hp, hnamed⟩
  · exact Or.inl h
  · exact Or.inr ⟨pl, hp, fun jids hpl j hj => (hnamed jids hpl j hj).append es'⟩

/-- A job that the master names is in the table, cancelled. -/
theorem cancelled_of_getJobsToCancelForNode {m : JobManager Db} (hk : m.Keyed) {e : Env}
    {j : String} (h : j ∈ m.getJobsToCancelForNode e nodeId) :
    ∃ info, m.jobs.lookup j = some info ∧ info.status = .cancelled := by
  obtain ⟨info, hmem, rfl⟩ := List.mem_map.mp h
  obtain ⟨hval, hcond⟩ := List.mem_filter.mp hmem
  obtain ⟨k, hk'⟩ := Table.mem_values.mp (e.jobOrder.mem_iff.mp hval)
  have hst : info.status = .cancelled := (of_decide_eq_true hcond).1
  exact ⟨info, (hk k info hk').symm ▸ hk', hst⟩

section Runs

variable {db : Option Db} {adminDb : Db} {fairShare : Fs} {es : List ClusterEvent}
  {c : ClusterConfig Db Fs}

/-- In a run of the system, too, a cancelled job was cancelled. -/
theorem clusterCancelled_of_run
    (h : (cluster P nodeId workDir).Run
      (fun c ev => clusterWired c ev = true ∧ freshClusterJobId c ev = true)
      (clusterStart db adminDb fairShare) es c) {j : String} {info : JobInfo}
    (hj : c.state.master.jobMgr.jobs.lookup j = some info) (hst : info.status = .cancelled) :
    ∃ i t e, .did i t e (.master (.job (.cancelJob j))) true ∈ es := by
  obtain ⟨es', d, hmaster, hstate, hsame, -⟩ :=
    Contains.run (masterInside_proper P nodeId workDir) masterInside_guards h
  have hj' : d.state.jobMgr.jobs.lookup j = some info := by
    rw [hstate]
    exact hj
  obtain ⟨i, t, e, hev⟩ := cancelled_of_run hmaster j info hj' hst
  exact exists_event hsame hev

/-- The own step of a thread keeps it to the names. -/
theorem Signals.step
    (h : (cluster P nodeId workDir).Run
      (fun c ev => clusterWired c ev = true ∧ freshClusterJobId c ev = true)
      (clusterStart db adminDb fairShare) es c) (hk : c.state.master.jobMgr.Keyed) {i : ℕ}
    {t : ClusterTask} {e : ClusterEnv} {op : ClusterOp} {k : op.Res → AgentProg Reply}
    (hs : Signals P nodeId es (.call op k)) :
    Signals P nodeId (es ++ [.did i t e op (c.state.exec P e op).1])
      (k (c.state.exec P e op).1) := by
  rcases hs with hs | ⟨pl, hp, hnamed⟩
  · exact Or.inl (hs.2 _)
  · obtain ⟨pl', hk', hstep⟩ := heartbeatAt_step hp.symm (c.state.exec P e op).1
    refine Or.inr ⟨pl', hk', fun jids hpl j hj => ?_⟩
    subst hpl
    generalize hr : (c.state.exec P e op).1 = r at hstep
    cases hstep with
    | unknown runningJobs => cases hj
    | named jids =>
      -- the step is the answer of the master
      obtain rfl : c.state.master.jobMgr.getJobsToCancelForNode e.master nodeId = jids := hr
      obtain ⟨info, hinfo, hst⟩ := cancelled_of_getJobsToCancelForNode hk hj
      exact ⟨es, [], i, t, e, _, rfl, hj, clusterCancelled_of_run h hinfo hst⟩
    | cancelled jid jids ok => exact (hnamed _ rfl j (List.mem_cons_of_mem _ hj)).append _

/-- The tasks at quiet places signal no process that was not named: a thread of the master
signals none. -/
theorem signals_body {t : ClusterTask} (ht : startPlace t = .quiet) :
    Signals P nodeId es ((cluster P nodeId workDir).body t) := by
  cases t with
  | master t =>
    refine Or.inl (Prog.Only.mono (only_mayDo P t).embed ?_)
    rintro _ ⟨op, rfl, -⟩ j
    exact nofun
  | heartbeat => exact Or.inr ⟨.counting, rfl, nofun⟩
  | _ => cases ht

/-- In every run the threads at quiet places keep to the names. -/
theorem signals_of_run
    (h : (cluster P nodeId workDir).Run
      (fun c ev => clusterWired c ev = true ∧ freshClusterJobId c ev = true)
      (clusterStart db adminDb fairShare) es c) :
    ∃ ps, Placed P nodeId workDir c ps ∧
      ∀ (i : ℕ) th, c.threads[i]? = some th → ps[i]? = some .quiet →
        Signals P nodeId es th.prog := by
  obtain ⟨ps, hplaced, -, hquiet⟩ := run_places_of_run
    (I := fun es (c : ClusterConfig Db Fs) (ps : List Place) => c.state.master.jobMgr.Keyed ∧
      ∀ (i : ℕ) th, c.threads[i]? = some th → ps[i]? = some .quiet → Signals P nodeId es th.prog)
    ⟨fun j info hj => (by cases hj), fun i th hi => (by cases hi)⟩
    (fun es c ev c' ps ps' hrun hplaced hI hok hs hm => ⟨hm.keyed hI.1,
      hplaced.quiet_step hs hm hI.2 (fun t _ ht => signals_body ht)
        (fun i t e op k hev _ hp => by
          subst hev
          exact hp.step hrun hI.1)
        fun p hp => hp.append _⟩) h
  exact ⟨ps, hplaced, hquiet⟩

end Runs

/-- **No kill without a cancellation**: in every run of the master and one agent as they are
wired, with fresh identifiers, whenever the agent calls `cancel` for a job, the answer to
a heartbeat of this node has named the job before, and before that answer a client's
cancellation of the job had succeeded. -/
theorem killed_was_cancelled {db : Option Db} {adminDb : Db} {fairShare : Fs}
    {es₁ es₂ : List ClusterEvent} {c : ClusterConfig Db Fs} {i : ℕ} {t : ClusterTask}
    {e : ClusterEnv} {j : String} {r : Bool}
    (h : (cluster P nodeId workDir).Run
      (fun c ev => clusterWired c ev = true ∧ freshClusterJobId c ev = true)
      (clusterStart db adminDb fairShare)
      (es₁ ++ .did i t e (.executor (.cancel j)) r :: es₂) c) : Named nodeId es₁ j := by
  obtain ⟨c₁, c', hrun, -, hs, -⟩ := h.split
  obtain ⟨ps, hplaced, hsignals⟩ := signals_of_run hrun
  obtain ⟨k, hi, -, -⟩ := hs.did_inv
  obtain ⟨p, hp, hat⟩ := hplaced.exists_place hi
  cases p with
  | quiet =>
    rcases hsignals i _ hi hp with hnot | ⟨pl, hprog, hnamed⟩
    · exact absurd rfl (hnot.1 j)
    · obtain ⟨pl', -, hstep⟩ := heartbeatAt_step hprog.symm r
      cases hstep with
      | cancelled jid jids ok => exact hnamed _ rfl j List.mem_cons_self
  | polling pl =>
    have hprog : Prog.call (ClusterOp.executor (.cancel j)) k = pollingAt P nodeId pl := hat
    cases pl with
    | fetching =>
      rw [pollingAt_fetching] at hprog
      cases hprog
    | _ => cases hprog
  | execution jobId spec pl =>
    have hprog : Prog.call (ClusterOp.executor (.cancel j)) k =
      executionAt P nodeId workDir jobId spec pl := hat.2
    obtain ⟨pl', -, hstep⟩ := executionAt_step hprog.symm r
    cases hstep

/-- A job is assigned and cancelled, and the next heartbeat of its node carries the name
back. -/
def cancelSignalled : List (Choice ClusterEnv ClusterTask) :=
  onCluster (assignSchedule.take 10 ++
    performs 3 (.rpc [] (.cancelJob "job-00000000")) { now := 104 } 1) ++
  .start .heartbeat :: List.replicate 5 (.move 4 { master := { now := 105 } })

/-- The event is a call of `cancel` for the job. -/
def callsCancel (j : String) : ClusterEvent → Bool
  | .did _ _ _ op _ => op = .executor (.cancel j)
  | .start _ => false

/-- The law at work: in the run of `cancelSignalled` the last event is the call of
`cancel`. -/
theorem killed_was_cancelled_run :
    ∃ es ev c, (cluster barePlatform "node-00000000" "/work").Run
        (fun c ev => clusterWired c ev = true ∧ freshClusterJobId c ev = true)
        (clusterStart none {} ()) (es ++ [ev]) c ∧
      (∃ i t e r, ev = .did i t e (.executor (.cancel "job-00000000")) r) ∧
      Named "node-00000000" es "job-00000000" := by
  obtain ⟨es, c, hrun, hp⟩ := System.exists_trace
    (S := cluster barePlatform "node-00000000" "/work")
    (g := fun c ev => clusterWired c ev && freshClusterJobId c ev) (c := clusterStart none {} ())
    (p := fun es _ => es.getLast?.any (callsCancel "job-00000000"))
    cancelSignalled (by decide +kernel)
  obtain ⟨ev, hev, hop⟩ := (Option.any_eq_true _ _).mp hp
  have hes : es.dropLast ++ [ev] = es := List.dropLast_append_getLast? ev hev
  have hrun' := hrun.mono fun c ev hg => (Bool.and_eq_true _ _).mp hg
  rw [← hes] at hrun'
  cases ev with
  | start t => cases hop
  | did i t e op r =>
    obtain rfl := of_decide_eq_true hop
    exact ⟨_, _, c, hrun', ⟨i, t, e, r, rfl⟩, killed_was_cancelled hrun'⟩

end CertOS
