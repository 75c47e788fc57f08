import CertOS.Agent.Daemon

/-!
# The threads of an agent

How far a thread of the agent is, and what one step of it does: the places of a
polling round (`CertOS.PollingPlace`) and of the thread of a job
(`CertOS.ExecutionPlace`), each with the program that is left at the place. The
remaining threads, the heartbeats and those of the master, do nothing that
matters to the executor (`CertOS.quiet`).

`CertOS.executionAt_step` is all that is used of the programs later.
-/

namespace CertOS

open Interleave

variable {Db Fs : Type} (P : Platform Db Fs) (nodeId workDir : String)

/-! ### Quiet threads -/

/-- The operation neither forks nor touches the map of running jobs. -/
def quiet : ClusterOp → Bool
  | .master _ | .now | .executor (.cancel _) | .executor .getRunningCount => true
  | .executor _ => false

theorem only_onMaster {α : Type} (p : MasterProg α) :
    (Agent.onMaster p).Only fun op => quiet op = true := by
  induction p with
  | ret a => trivial
  | call op k ih => exact ⟨rfl, fun r => ih r⟩

theorem only_cancelAll (jids : List String) :
    (Agent.cancelAll jids).Only fun op => quiet op = true := by
  induction jids with
  | nil => trivial
  | cons jid jids ih => exact .op_bind rfl fun _ => ih

/-- A heartbeat is quiet. -/
theorem only_heartbeatRound :
    (Agent.heartbeatRound P nodeId).Only fun op => quiet op = true := by
  refine .op_bind rfl fun runningJobs => ?_
  refine .bind (.op_bind rfl fun timestamp => (only_onMaster _).bind fun reply => trivial) ?_
  intro result
  cases result with
  | none => trivial
  | some jobsToCancel => exact only_cancelAll _

/-! ### The calls of the agent -/

/-- A call whose handler makes a report is one step of the master. -/
theorem rpc_of_report {call : Rpc} {jobId : String} {status : JobStatus} {nodeId : String}
    (h : call.handle P.json [] = Reply.status <$> AgentService.report jobId status nodeId) :
    Agent.rpc P call = .call (.master (.job (.updateJobStatus jobId status nodeId))) fun ok =>
      .ret (.status { success := ok }) := by
  rw [Agent.rpc, serve_eq_handle, h]
  rfl

theorem rpc_reportJobStarted (request : JobStartedReport) :
    Agent.rpc P (.reportJobStarted request) =
      .call (.master (.job (.updateJobStatus request.jobId .running request.nodeId))) fun ok =>
        .ret (.status { success := ok }) :=
  rpc_of_report P rfl

theorem rpc_reportJobCompleted (request : JobCompletedReport) :
    Agent.rpc P (.reportJobCompleted request) =
      .call (.master (.job (.updateJobStatus request.jobId .completed request.nodeId))) fun ok =>
        .ret (.status { success := ok }) :=
  rpc_of_report P rfl

theorem rpc_reportJobFailed (request : JobFailedReport) :
    Agent.rpc P (.reportJobFailed request) =
      .call (.master (.job (.updateJobStatus request.jobId .failed request.nodeId))) fun ok =>
        .ret (.status { success := ok }) :=
  rpc_of_report P rfl

theorem rpc_fetchJob (request : FetchJobRequest) :
    Agent.rpc P (.fetchJob request) = .call (.master (.job (.listJobs .assigned))) fun jobs =>
      .ret (.fetched (AgentService.offered request.nodeId jobs)) := by
  rw [Agent.rpc, serve_eq_handle]
  rfl

/-- The callback for a job that has started: a look at the clock and one
report. -/
theorem onStarted_bind {α : Type} (jobId : String) (pid : ℕ) (f : Unit → AgentProg α) :
    (Agent.onStarted P nodeId jobId pid >>= f) =
      .call .now fun _ => .call (.master (.job (.updateJobStatus jobId .running nodeId))) fun _ =>
        f () := by
  simp only [Agent.onStarted, Agent.reportJobStarted, Agent.now, rpc_reportJobStarted]
  rfl

/-- The status that the report of a job that is over sets. -/
def endStatus (res : JobResult) : JobStatus :=
  if res.success ∨ res.exitCode ≠ -1 then .completed else .failed

/-- The callback for a job that is over: a look at the clock and one report. -/
theorem onCompleted_eq (res : JobResult) :
    ((fun _ => Reply.done) <$> Agent.onCompleted P nodeId res : AgentProg Reply) =
      .call .now fun _ => .call (.master (.job (.updateJobStatus res.jobId (endStatus res) nodeId)))
        fun _ => .ret .done := by
  simp only [Agent.onCompleted, Agent.reportJobCompleted, Agent.reportJobFailed, Agent.now,
    rpc_reportJobCompleted, rpc_reportJobFailed]
  by_cases h : res.success ∨ res.exitCode ≠ -1
  · have hend : endStatus res = .completed := if_pos h
    rw [if_pos h, hend]
    rfl
  · have hend : endStatus res = .failed := if_neg h
    rw [if_neg h, hend]
    rfl

/-! ### Polling -/

/-- How far a polling round is. -/
inductive PollingPlace where
  /-- In front of the call. -/
  | fetching
  /-- A job was fetched; in front of `execute_async`. -/
  | holding (jobId : String) (spec : JobSpec)
  /-- The round is over. -/
  | ended

/-- What is left of a polling round at a place. -/
def pollingAt : PollingPlace → AgentProg Reply
  | .fetching => (fun _ => .done) <$> Agent.pollingRound P nodeId
  | .holding jobId spec => .call (.executor (.executeAsync jobId spec)) fun _ => .ret .done
  | .ended => .ret .done

/-- The place after the master has listed the assigned jobs. -/
def polled (jobs : List JobInfo) : PollingPlace :=
  match jobs.find? fun job => job.assignedNodeId = nodeId with
  | some job => .holding job.jobId job.spec
  | none => .ended

theorem pollingAt_fetching : pollingAt P nodeId .fetching =
    .call (.master (.job (.listJobs .assigned))) fun jobs =>
      pollingAt P nodeId (polled nodeId jobs) := by
  simp only [pollingAt, Agent.pollingRound, Agent.fetchJob, rpc_fetchJob]
  refine congrArg (Prog.call _) (funext fun jobs => ?_)
  simp only [Prog.pure_eq, AgentService.offered, polled]
  cases jobs.find? fun job => job.assignedNodeId = nodeId with
  | none => rfl
  | some job => rfl

/-! ### The thread of a job -/

/-- How far the thread of a job is. The last places remember whether the job was
removed from the map. -/
inductive ExecutionPlace where
  /-- In front of `pipe`. -/
  | opening
  /-- In front of the command that unpacks the archive. -/
  | unpacking
  /-- In front of `fork`. -/
  | forking
  /-- In front of the section that registers the process. -/
  | registering (pid : ℕ)
  /-- In front of the time stamp of the first report. -/
  | stampingStart (pid : ℕ)
  /-- In front of the report that the job has started. -/
  | reportingStart (pid : ℕ)
  /-- In front of the reads. -/
  | reading (pid : ℕ)
  /-- In front of `waitpid`. -/
  | waiting (pid : ℕ) (chunks : List (List UInt8))
  /-- In front of the section that removes the job from the map. -/
  | removing (res : JobResult)
  /-- In front of the time stamp of the last report. -/
  | stampingEnd (removed : Bool) (res : JobResult)
  /-- In front of the report that the job is over. -/
  | reportingEnd (removed : Bool) (res : JobResult)
  /-- The thread has returned. -/
  | ended (removed : Bool)

/-- The thread of a job at a place of `execution_thread`. -/
def threadAt (jobId : String) (spec : JobSpec) (pl : JobExecutor.ThreadPlace) : AgentProg Reply :=
  (fun _ => .done) <$> JobExecutor.threadAt Agent.onExecutor (Agent.onStarted P nodeId)
    (Agent.onCompleted P nodeId) workDir jobId spec pl

/-- What is left of the thread of a job at a place. Each callback is a look at the clock and a
report. -/
def executionAt (jobId : String) (spec : JobSpec) : ExecutionPlace → AgentProg Reply
  | .opening => threadAt P nodeId workDir jobId spec .opening
  | .unpacking => threadAt P nodeId workDir jobId spec .unpacking
  | .forking => threadAt P nodeId workDir jobId spec .forking
  | .registering pid => threadAt P nodeId workDir jobId spec (.registering pid)
  | .stampingStart pid => threadAt P nodeId workDir jobId spec (.starting pid)
  | .reportingStart pid => .call (.master (.job (.updateJobStatus jobId .running nodeId))) fun _ =>
      threadAt P nodeId workDir jobId spec (.reading pid)
  | .reading pid => threadAt P nodeId workDir jobId spec (.reading pid)
  | .waiting pid chunks => threadAt P nodeId workDir jobId spec (.waiting pid chunks)
  | .removing res => threadAt P nodeId workDir jobId spec (.removing res)
  | .stampingEnd _ res => threadAt P nodeId workDir jobId spec (.completing res)
  | .reportingEnd _ res =>
      .call (.master (.job (.updateJobStatus res.jobId (endStatus res) nodeId))) fun _ => .ret .done
  | .ended _ => .ret .done

/-- The callback for a job that has started, at its two places. -/
theorem executionAt_stampingStart (jobId : String) (spec : JobSpec) (pid : ℕ) :
    executionAt P nodeId workDir jobId spec (.stampingStart pid) =
      .call .now fun _ => executionAt P nodeId workDir jobId spec (.reportingStart pid) := by
  simp only [executionAt, threadAt, JobExecutor.threadAt, onStarted_bind]
  rfl

/-- The callback for a job that is over, at its two places. -/
theorem executionAt_stampingEnd (jobId : String) (spec : JobSpec) (removed : Bool)
    (res : JobResult) :
    executionAt P nodeId workDir jobId spec (.stampingEnd removed res) =
      .call .now fun _ => executionAt P nodeId workDir jobId spec (.reportingEnd removed res) := by
  simp only [executionAt, threadAt, JobExecutor.threadAt, onCompleted_eq]

/-- **What one step of the thread of a job does**: its operation, the answer, and
the place after it. -/
inductive ExecutionStep (nodeId workDir jobId : String) (spec : JobSpec) :
    ExecutionPlace → (op : ClusterOp) → op.Res → ExecutionPlace → Prop
  | pipeFailed : ExecutionStep nodeId workDir jobId spec .opening (.executor .pipe) false
      (.stampingEnd false { jobId, exitCode := -1, errorMessage := "Failed to create pipe" })
  | packed (h : spec.archivePath ≠ "") :
      ExecutionStep nodeId workDir jobId spec .opening (.executor .pipe) true .unpacking
  | plain (h : spec.archivePath = "") :
      ExecutionStep nodeId workDir jobId spec .opening (.executor .pipe) true .forking
  | unpacked (status : ℤ) :
      ExecutionStep nodeId workDir jobId spec .unpacking
        (.executor (.system (JobExecutor.untarCmd workDir jobId spec))) status .forking
  | forkFailed :
      ExecutionStep nodeId workDir jobId spec .forking
        (.executor (.fork (JobExecutor.childDir workDir jobId spec)
          (JobExecutor.childArgs workDir jobId spec))) none
        (.stampingEnd false { jobId, exitCode := -1, errorMessage := "Failed to fork" })
  | forked (pid : ℕ) :
      ExecutionStep nodeId workDir jobId spec .forking
        (.executor (.fork (JobExecutor.childDir workDir jobId spec)
          (JobExecutor.childArgs workDir jobId spec))) (some pid) (.registering pid)
  | registered (pid : ℕ) :
      ExecutionStep nodeId workDir jobId spec (.registering pid)
        (.executor (.registerPid jobId pid)) () (.stampingStart pid)
  | stampedStart (pid : ℕ) (t : ℤ) :
      ExecutionStep nodeId workDir jobId spec (.stampingStart pid) .now t (.reportingStart pid)
  | reportedStart (pid : ℕ) (ok : Bool) :
      ExecutionStep nodeId workDir jobId spec (.reportingStart pid)
        (.master (.job (.updateJobStatus jobId .running nodeId))) ok (.reading pid)
  | read (pid : ℕ) (chunks : List (List UInt8)) :
      ExecutionStep nodeId workDir jobId spec (.reading pid) (.executor .readOutput) chunks
        (.waiting pid chunks)
  | waited (pid : ℕ) (chunks : List (List UInt8)) (processEnd : ProcessEnd) :
      ExecutionStep nodeId workDir jobId spec (.waiting pid chunks) (.executor (.waitpid pid))
        processEnd (.removing (jobResult jobId processEnd.status (JobExecutor.stdoutData chunks)))
  | removed (res : JobResult) :
      ExecutionStep nodeId workDir jobId spec (.removing res) (.executor (.removeRunning jobId)) ()
        (.stampingEnd true res)
  | stampedEnd (removed : Bool) (res : JobResult) (t : ℤ) :
      ExecutionStep nodeId workDir jobId spec (.stampingEnd removed res) .now t
        (.reportingEnd removed res)
  | reportedEnd (removed : Bool) (res : JobResult) (ok : Bool) :
      ExecutionStep nodeId workDir jobId spec (.reportingEnd removed res)
        (.master (.job (.updateJobStatus res.jobId (endStatus res) nodeId))) ok (.ended removed)

section Step

variable {jobId : String} {spec : JobSpec} {pl : ExecutionPlace} {op : ClusterOp}
  {cont : op.Res → AgentProg Reply}

variable {P nodeId workDir}

/-- **One step of the thread of a job.** -/
theorem executionAt_step (h : executionAt P nodeId workDir jobId spec pl = .call op cont)
    (a : op.Res) : ∃ pl', cont a = executionAt P nodeId workDir jobId spec pl' ∧
      ExecutionStep nodeId workDir jobId spec pl op a pl' := by
  cases pl with
  | opening =>
    cases h
    cases a with
    | false => exact ⟨_, rfl, .pipeFailed⟩
    | true =>
      by_cases hs : spec.archivePath = ""
      · refine ⟨.forking, ?_, .plain hs⟩
        simp only [if_pos hs]
        rfl
      · refine ⟨.unpacking, ?_, .packed hs⟩
        simp only [if_neg hs]
        rfl
  | unpacking =>
    cases h
    exact ⟨.forking, rfl, .unpacked _⟩
  | forking =>
    cases h
    cases a with
    | none => exact ⟨_, rfl, .forkFailed⟩
    | some pid => exact ⟨.registering pid, rfl, .forked pid⟩
  | registering pid =>
    cases h
    exact ⟨.stampingStart pid, rfl, .registered pid⟩
  | stampingStart pid =>
    rw [executionAt_stampingStart] at h
    cases h
    exact ⟨.reportingStart pid, rfl, .stampedStart pid a⟩
  | reportingStart pid =>
    cases h
    exact ⟨.reading pid, rfl, .reportedStart pid a⟩
  | reading pid =>
    cases h
    exact ⟨.waiting pid a, rfl, .read pid a⟩
  | waiting pid chunks =>
    cases h
    exact ⟨.removing _, rfl, .waited pid chunks a⟩
  | removing res =>
    cases h
    exact ⟨.stampingEnd true res, rfl, .removed res⟩
  | stampingEnd removed res =>
    rw [executionAt_stampingEnd] at h
    cases h
    exact ⟨.reportingEnd removed res, rfl, .stampedEnd removed res a⟩
  | reportingEnd removed res =>
    cases h
    exact ⟨.ended removed, rfl, .reportedEnd removed res a⟩
  | ended removed => cases h

end Step

end CertOS
