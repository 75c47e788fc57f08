import CertOS.Master.Server

/-!
# Reports on a job

An agent reports that a job has started, was completed or has failed, and the three
handlers pass the report on to `update_job_status`. The node that reports is data
there: a report of a start stores it in the record, and the other two ignore it. It is
never compared with the node the job is assigned to, and nothing else tells the master
who is calling.

So a report is carried out for every job there is, in whatever state it is
(`CertOS.reports_carried_out`), and a job that was never assigned can be completed by
a node the master has never heard of (`CertOS.stranger_completes`). `FetchJob` and the
heartbeats do compare the two. Only the node a job is assigned to should be heard, and that
is what happens exactly where no other one speaks: the job is not known, or it is assigned to
the node that reports (`CertOS.report_guarded_iff`).
-/

namespace CertOS

open Interleave

variable {Db Fs : Type}

namespace AgentService

/-- What a report of a start does to the record. -/
def recordStart (nodeId : String) (now : ℤ) (info : JobInfo) : JobInfo :=
  { info with
    status := .running
    assignedNodeId := if nodeId = "" then info.assignedNodeId else nodeId
    startedAt := if info.startedAt = 0 then now else info.startedAt }

/-- What a report of an end does to the record. -/
def recordEnd (status : JobStatus) (now : ℤ) (info : JobInfo) : JobInfo :=
  { info with
    status := status
    completedAt := now }

end AgentService

/-! ### One report -/

theorem setStatus_running (now : ℤ) (nodeId : String) (info : JobInfo) :
    JobManager.setStatus now .running nodeId info = AgentService.recordStart nodeId now info := by
  by_cases hn : nodeId = ""
  · by_cases ht : info.startedAt = 0
    · simp [JobManager.setStatus, AgentService.recordStart, hn, ht]
    · simp [JobManager.setStatus, AgentService.recordStart, hn, ht]
  · by_cases ht : info.startedAt = 0
    · simp [JobManager.setStatus, AgentService.recordStart, hn, ht]
    · simp [JobManager.setStatus, AgentService.recordStart, hn, ht]

/-- An update to a status the job ends in ignores the node. -/
theorem setStatus_of_isTerminal {status : JobStatus} (h : status.isTerminal = true) (now : ℤ)
    (nodeId : String) (info : JobInfo) :
    JobManager.setStatus now status nodeId info = AgentService.recordEnd status now info := by
  cases status <;> first | rfl | cases h

/-- **A report is carried out**: the call is turned away just when the job is not known,
and then it changes nothing; otherwise it succeeds, rewrites the record of the job with
`update`, and leaves everything else as it was. -/
structure CarriedOut (P : Platform Db Fs) (call : Rpc) (jobId : String)
    (update : ℤ → JobInfo → JobInfo) : Prop where
  unknown : ∀ metadata e (s : MasterState Db Fs), s.jobMgr.jobs.lookup jobId = none →
    runTask P (.rpc metadata call) e s = (.status { success := false }, s)
  reply : ∀ metadata e (s : MasterState Db Fs) info, s.jobMgr.jobs.lookup jobId = some info →
    (runTask P (.rpc metadata call) e s).1 = .status { success := true }
  record : ∀ metadata e (s : MasterState Db Fs) info, s.jobMgr.jobs.lookup jobId = some info →
    (runTask P (.rpc metadata call) e s).2.jobMgr.jobs.lookup jobId = some (update (e 0).now info)
  others : ∀ metadata e (s : MasterState Db Fs) j, j ≠ jobId →
    (runTask P (.rpc metadata call) e s).2.jobMgr.jobs.lookup j = s.jobMgr.jobs.lookup j
  rest : ∀ metadata e (s : MasterState Db Fs),
    (runTask P (.rpc metadata call) e s).2 =
      { s with jobMgr := { s.jobMgr with
          jobs := (runTask P (.rpc metadata call) e s).2.jobMgr.jobs } }

/-- A report, operation by operation. -/
theorem map_report (jobId : String) (status : JobStatus) (nodeId : String) :
    Reply.status <$> AgentService.report jobId status nodeId =
      .call (.job (.updateJobStatus jobId status nodeId)) fun ok : Bool =>
        .ret (.status { success := ok }) := rfl

/-- A call that is handled by a status update is carried out. -/
theorem carriedOut_of_handle {P : Platform Db Fs} {call : Rpc} {jobId : String}
    {status : JobStatus} {nodeId : String} {update : ℤ → JobInfo → JobInfo}
    (hcall : ∀ metadata, call.handle P.json metadata =
      Reply.status <$> AgentService.report jobId status nodeId)
    (hset : ∀ now info, JobManager.setStatus now status nodeId info = update now info) :
    CarriedOut P call jobId update := by
  -- the call is one operation, and its reply is the answer to it
  have hrun (metadata : Metadata) (e : ℕ → Env) (s : MasterState Db Fs) :
      runTask P (.rpc metadata call) e s =
        (.status { success := (s.jobMgr.updateJobStatus (e 0) jobId status nodeId).1 },
          { s with jobMgr := (s.jobMgr.updateJobStatus (e 0) jobId status nodeId).2 }) := by
    rw [runTask, master_body_rpc, hcall, map_report]
    rfl
  refine ⟨fun metadata e s hj => ?_, fun metadata e s info hj => ?_, fun metadata e s info hj => ?_,
    fun metadata e s j hne => ?_, fun metadata e s => ?_⟩
  · rw [hrun, JobManager.updateJobStatus, hj]
  · rw [hrun, JobManager.updateJobStatus, hj]
  · rw [hrun]
    have hl := JobManager.lookup_updateJobStatus P.store (e 0) s.jobMgr status nodeId jobId
    rw [hj] at hl
    exact hl.trans (congrArg some (hset _ _))
  · rw [hrun]
    exact JobManager.lookup_updateJobStatus_of_ne P.store (e 0) s.jobMgr status nodeId hne
  · rw [hrun, JobManager.updateJobStatus]
    cases s.jobMgr.jobs.lookup jobId with
    | none => rfl
    | some info => rfl

/-- **Reports are carried out for every job**, whatever the state of the job is, whatever
node it is assigned to, and whatever node reports. -/
theorem reports_carried_out (P : Platform Db Fs) :
    (∀ request : JobStartedReport, CarriedOut P (.reportJobStarted request) request.jobId
      (AgentService.recordStart request.nodeId)) ∧
    (∀ request : JobCompletedReport, CarriedOut P (.reportJobCompleted request) request.jobId
      (AgentService.recordEnd .completed)) ∧
    ∀ request : JobFailedReport, CarriedOut P (.reportJobFailed request) request.jobId
      (AgentService.recordEnd .failed) := by
  refine ⟨fun request => ?_, fun request => ?_, fun request => ?_⟩
  · exact carriedOut_of_handle (fun _ => rfl) fun now info => setStatus_running now _ info
  · exact carriedOut_of_handle (fun _ => rfl) fun now info => setStatus_of_isTerminal rfl now _ info
  · exact carriedOut_of_handle (fun _ => rfl) fun now info => setStatus_of_isTerminal rfl now _ info

/-! ### Who is heard -/

/-- The job is assigned, in some sense of the word, and to this node. -/
def AssignedTo (assigned : JobInfo → Prop) (jobId nodeId : String) (s : MasterState Db Fs) : Prop :=
  ∃ info, s.jobMgr.jobs.lookup jobId = some info ∧ assigned info ∧ info.assignedNodeId = nodeId

/-- **Only the assigned node is heard**: a report on the job from this node changes the record
only if the job is assigned to it, and is turned away otherwise. -/
structure Guarded (P : Platform Db Fs) (assigned : JobInfo → Prop) (call : Rpc)
    (jobId nodeId : String) (metadata : Metadata) (e : ℕ → Env) (s : MasterState Db Fs) :
    Prop where
  record : (runTask P (.rpc metadata call) e s).2.jobMgr.jobs.lookup jobId ≠
    s.jobMgr.jobs.lookup jobId → AssignedTo assigned jobId nodeId s
  otherwise : ¬AssignedTo assigned jobId nodeId s →
    (runTask P (.rpc metadata call) e s).1 = .status { success := false } ∧
      (runTask P (.rpc metadata call) e s).2.jobMgr.jobs = s.jobMgr.jobs

/-- Nobody but the node the job is assigned to reports, if the job is known at all. -/
def ReportsOwn (assigned : JobInfo → Prop) (jobId nodeId : String) (s : MasterState Db Fs) : Prop :=
  s.jobMgr.jobs.lookup jobId = none ∨ AssignedTo assigned jobId nodeId s

/-- A report that is carried out for every job is guarded just where it comes from the right
node. -/
theorem CarriedOut.guarded_iff {P : Platform Db Fs} {call : Rpc} {jobId nodeId : String}
    {update : ℤ → JobInfo → JobInfo} (h : CarriedOut P call jobId update)
    (assigned : JobInfo → Prop) (metadata : Metadata) (e : ℕ → Env) (s : MasterState Db Fs) :
    Guarded P assigned call jobId nodeId metadata e s ↔ ReportsOwn assigned jobId nodeId s := by
  constructor
  · intro hg
    by_contra hown
    obtain ⟨hknown, hnot⟩ := not_or.mp hown
    obtain ⟨info, hinfo⟩ := Option.ne_none_iff_exists'.mp hknown
    -- the report is answered with success all the same
    have hrefused := (hg.otherwise hnot).1
    rw [h.reply metadata e s info hinfo] at hrefused
    cases hrefused
  · rintro (hunknown | hassigned)
    · have hrun := h.unknown metadata e s hunknown
      exact ⟨fun hne => absurd (by rw [hrun]) hne, fun _ => by rw [hrun]; exact ⟨rfl, rfl⟩⟩
    · exact ⟨fun _ => hassigned, fun hnot => absurd hassigned hnot⟩

/-- **When only the assigned node is heard**: for every state of the master, every report, and
whatever is meant by assigned, a report is guarded if and only if the job is not known, or it
is assigned to the node that reports. -/
theorem report_guarded_iff (P : Platform Db Fs) (assigned : JobInfo → Prop) (metadata : Metadata)
    (e : ℕ → Env) (s : MasterState Db Fs) :
    (∀ r : JobStartedReport,
      Guarded P assigned (.reportJobStarted r) r.jobId r.nodeId metadata e s ↔
        ReportsOwn assigned r.jobId r.nodeId s) ∧
    (∀ r : JobCompletedReport,
      Guarded P assigned (.reportJobCompleted r) r.jobId r.nodeId metadata e s ↔
        ReportsOwn assigned r.jobId r.nodeId s) ∧
    ∀ r : JobFailedReport,
      Guarded P assigned (.reportJobFailed r) r.jobId r.nodeId metadata e s ↔
        ReportsOwn assigned r.jobId r.nodeId s := by
  obtain ⟨hstarted, hcompleted, hfailed⟩ := reports_carried_out P
  exact ⟨fun r => (hstarted r).guarded_iff assigned metadata e s,
    fun r => (hcompleted r).guarded_iff assigned metadata e s,
    fun r => (hfailed r).guarded_iff assigned metadata e s⟩

/-! ### A report from nowhere -/

/-- A job is submitted, and nothing else has happened. -/
def submitSchedule : List (Choice Env Task) :=
  performs 0 (.rpc [] (.submitJob { resources := { cpuCores := 1, ramMb := 1024 } }))
    { now := 101 } 2

/-- A node that has never registered reports that it has completed the job. -/
def strangerReport : Task :=
  .rpc [] (.reportJobCompleted { nodeId := "node-ffffffff", jobId := "job-00000000" })

/-- **A stranger completes a job**: in a run of the server no node has registered, a job
is queued and assigned to nobody, and a report that names a node of its own invention
completes it and is answered with success. -/
theorem stranger_completes :
    ∃ es c info, (master barePlatform).Run (fun c ev => wired c ev = true)
        (masterStart none {} ()) es c ∧
      c.state.nodeRegistry.nodes.keys = [] ∧
      c.state.jobMgr.jobs.lookup "job-00000000" = some info ∧
      info.status = .queued ∧ info.assignedNodeId = "" ∧
      ∃ info', (runTask barePlatform strangerReport (fun _ => { now := 102 }) c.state).1 =
          .status { success := true } ∧
        (runTask barePlatform strangerReport (fun _ => { now := 102 }) c.state).2.jobMgr.jobs.lookup
          "job-00000000" = some info' ∧
        info'.status = .completed ∧ info'.completedAt = 102 := by
  obtain ⟨es, c, hrun, hc⟩ := System.exists_run (S := master barePlatform)
    (g := wired) (c := masterStart none {} ())
    (p := fun c => c.state.nodeRegistry.nodes.keys = [] ∧
      (c.state.jobMgr.jobs.lookup "job-00000000").any (fun info =>
        info.status = .queued && info.assignedNodeId = "") ∧
      (runTask barePlatform strangerReport (fun _ => { now := 102 }) c.state).1 =
        .status { success := true } ∧
      ((runTask barePlatform strangerReport (fun _ => { now := 102 }) c.state).2.jobMgr.jobs.lookup
        "job-00000000").any fun info => info.status = .completed && info.completedAt = 102)
    submitSchedule (by decide)
  obtain ⟨hkeys, hbefore, hreply, hafter⟩ := of_decide_eq_true hc
  obtain ⟨info, hinfo, hst⟩ := (Option.any_eq_true _ _).mp hbefore
  obtain ⟨info', hinfo', hst'⟩ := (Option.any_eq_true _ _).mp hafter
  obtain ⟨hq, hn⟩ : info.status = .queued ∧ info.assignedNodeId = "" := by simpa using hst
  obtain ⟨hd, ht⟩ : info'.status = .completed ∧ info'.completedAt = 102 := by simpa using hst'
  exact ⟨es, c, info, hrun, hkeys, hinfo, hq, hn, info', hreply, hinfo', hd, ht⟩

end CertOS
