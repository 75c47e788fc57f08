import CertOS.Agent.JobExecutor
import CertOS.Master.Server

/-!
# An agent and its master

`AgentDaemon` runs two loops beside the threads of its jobs: one sends
heartbeats and cancels the jobs the master names, the other fetches jobs and
hands them to the executor. A call of the agent is the handler of the master
that it reaches, run step by step on the thread of the agent that waits for the
reply; between any two steps anything else may happen, on either side.

`CertOS.cluster` is the system of one agent and the master. Its operations are
those of the master and those of the executor (`CertOS.ClusterOp`), its tasks
those of the master, one round of each loop, and the threads of the jobs, which
`execute_async` starts.
-/

namespace CertOS

open Interleave

variable {Db Fs : Type}

/-! ### Operations and state -/

/-- One atomic step of the master or of the agent. -/
inductive ClusterOp where
  /-- A step of the master. -/
  | master (op : MasterOp)
  /-- A step of the executor. -/
  | executor (op : ExecutorOp)
  /-- A look at the agent's clock. -/
  | now
  deriving DecidableEq

/-- What the steps return. -/
@[reducible] def ClusterOp.Res : ClusterOp → Type
  | .master op => op.Res
  | .executor op => op.Res
  | .now => ℤ

/-- A thread of the master or of the agent. -/
abbrev AgentProg (α : Type) := Prog ClusterOp.Res α

/-- What a step sees of its environment. -/
structure ClusterEnv where
  /-- The environment of the master. -/
  master : Env := {}
  /-- The environment of the agent. -/
  agent : AgentEnv := default

/-- The state of the master and of the agent's executor. -/
structure ClusterState (Db Fs : Type) where
  /-- The master. -/
  master : MasterState Db Fs
  /-- `executor_`. -/
  executor : JobExecutor := {}

/-- The meaning of the steps. -/
def ClusterState.exec (P : Platform Db Fs) (e : ClusterEnv) :
    (op : ClusterOp) → ClusterState Db Fs → op.Res × ClusterState Db Fs
  | .master op, s =>
    ((s.master.exec P e.master op).1, { s with master := (s.master.exec P e.master op).2 })
  | .executor op, s =>
    ((s.executor.exec e.agent op).1, { s with executor := (s.executor.exec e.agent op).2 })
  | .now, s => (e.master.now, s)

namespace ClusterState

variable (P : Platform Db Fs) (e : ClusterEnv) (s : ClusterState Db Fs)

@[simp] theorem exec_master (op : MasterOp) :
    s.exec P e (.master op) =
      ((s.master.exec P e.master op).1, { s with master := (s.master.exec P e.master op).2 }) := rfl

@[simp] theorem exec_executor (op : ExecutorOp) :
    s.exec P e (.executor op) =
      ((s.executor.exec e.agent op).1, { s with executor := (s.executor.exec e.agent op).2 }) := rfl

@[simp] theorem exec_clock : s.exec P e .now = (e.master.now, s) := rfl

end ClusterState

/-! ### Calls -/

namespace Agent

/-- A thread of the master as a thread of the whole system. -/
def onMaster {α : Type} (p : MasterProg α) : AgentProg α := p.embed ClusterOp.master fun _ r => r

/-- A step of the executor. -/
def onExecutor (op : ExecutorOp) : AgentProg op.Res := Prog.op (ClusterOp.executor op)

/-- `now_unix`, on the agent. -/
def now : AgentProg ℤ := Prog.op ClusterOp.now

variable (P : Platform Db Fs)

/-- A call of the agent, which sends no token. -/
def rpc (call : Rpc) : AgentProg Reply := onMaster (serve P [] call)

/-- Whether a reply is a status that reports success. -/
def succeeded : Reply → Bool
  | .status r => r.success
  | _ => false

/-- `AgentGrpcClient::send_heartbeat`: the jobs to cancel, if the master
acknowledged the heartbeat. -/
def sendHeartbeat (nodeId : String) (availableResources : ResourceSpec) (runningJobs : UInt32) :
    AgentProg (Option (List String)) := do
  let timestamp ← now
  let reply ← rpc P (.sendHeartbeat { nodeId, availableResources, runningJobs, timestamp })
  return match reply with
    | .heartbeat r => if r.acknowledged then some r.jobsToCancel else none
    | _ => none

/-- What `AgentGrpcClient::fetch_job` makes of the reply. -/
def fetched : Reply → Option (String × JobSpec)
  | .fetched r => if r.hasJob then some (r.jobId, r.spec) else none
  | _ => none

/-- `AgentGrpcClient::fetch_job`. -/
def fetchJob (nodeId : String) (availableResources : ResourceSpec) :
    AgentProg (Option (String × JobSpec)) := do
  let reply ← rpc P (.fetchJob { nodeId, availableResources })
  return fetched reply

/-- `AgentGrpcClient::report_job_started`. -/
def reportJobStarted (nodeId jobId : String) (pid : ℕ) : AgentProg Bool := do
  let startedAt ← now
  let reply ← rpc P (.reportJobStarted { nodeId, jobId, startedAt, pid := UInt32.ofNat pid })
  return succeeded reply

/-- `AgentGrpcClient::report_job_completed`. -/
def reportJobCompleted (nodeId : String) (res : JobResult) : AgentProg Bool := do
  let completedAt ← now
  let reply ← rpc P (.reportJobCompleted
    { nodeId, completedAt
      jobId := res.jobId, exitCode := res.exitCode
      stdoutData := res.stdoutData, stderrData := res.stderrData })
  return succeeded reply

/-- `AgentGrpcClient::report_job_failed`. -/
def reportJobFailed (nodeId : String) (res : JobResult) : AgentProg Bool := do
  let failedAt ← now
  let reply ← rpc P (.reportJobFailed
    { nodeId, failedAt
      jobId := res.jobId, errorMessage := res.errorMessage, exitCode := res.exitCode })
  return succeeded reply

/-! ### The daemon -/

variable (nodeId workDir : String)

/-- The callback for a job that has started. -/
def onStarted (jobId : String) (pid : ℕ) : AgentProg Unit := do
  let _ ← reportJobStarted P nodeId jobId pid

/-- The callback for a job that is over. -/
def onCompleted (res : JobResult) : AgentProg Unit :=
  if res.success ∨ res.exitCode ≠ -1 then do
    let _ ← reportJobCompleted P nodeId res
  else do
    let _ ← reportJobFailed P nodeId res

/-- What the agent says is available: the "fake available" of its loops. -/
def fakeAvailable : ResourceSpec := { cpuCores := 4, ramMb := 8192 }

/-- Cancel each of the jobs. -/
def cancelAll : List String → AgentProg Unit
  | [] => return ()
  | jid :: jids => do
    let _ ← onExecutor (.cancel jid)
    cancelAll jids

/-- One round of `heartbeat_loop`. -/
def heartbeatRound : AgentProg Unit := do
  let runningJobs ← onExecutor .getRunningCount
  let result ← sendHeartbeat P nodeId fakeAvailable runningJobs
  match result with
  | none => return ()
  | some jobsToCancel => cancelAll jobsToCancel

/-- One round of `job_polling_loop`. -/
def pollingRound : AgentProg Unit := do
  let spec ← fetchJob P nodeId fakeAvailable
  match spec with
  | none => return ()
  | some (jobId, spec) => do
    let _ ← onExecutor (.executeAsync jobId spec)

/-- The thread of a job, with the callbacks of the daemon. -/
def executionThread (jobId : String) (spec : JobSpec) : AgentProg Unit :=
  JobExecutor.executionThread onExecutor (onStarted P nodeId) (onCompleted P nodeId) workDir jobId
    spec

end Agent

/-! ### The system -/

/-- A task of the system. -/
inductive ClusterTask where
  /-- A task of the master. -/
  | master (t : Task)
  /-- A round of `heartbeat_loop`. -/
  | heartbeat
  /-- A round of `job_polling_loop`. -/
  | polling
  /-- The thread of a job. -/
  | execution (jobId : String) (spec : JobSpec)

/-- **One agent and its master**: the agent has registered as `nodeId` and works
in `workDir`. -/
def cluster (P : Platform Db Fs) (nodeId workDir : String) :
    System ClusterOp.Res ClusterEnv (ClusterState Db Fs) ClusterTask Reply where
  exec e op s := s.exec P e op
  body
    | .master t => Agent.onMaster ((master P).body t)
    | .heartbeat => (fun _ => .done) <$> Agent.heartbeatRound P nodeId
    | .polling => (fun _ => .done) <$> Agent.pollingRound P nodeId
    | .execution jobId spec =>
      (fun _ => .done) <$> Agent.executionThread P nodeId workDir jobId spec
  forks
    | .executor (.executeAsync jobId spec), true => [.execution jobId spec]
    | _, _ => []

/-- A configuration of the system. -/
abbrev ClusterConfig (Db Fs : Type) := Config ClusterOp.Res (ClusterState Db Fs) ClusterTask Reply

/-- An event of the system. -/
abbrev ClusterEvent := Event ClusterOp.Res ClusterEnv ClusterTask

/-- The system when it starts: the master as it starts, and an idle agent. -/
def clusterStart (db : Option Db) (adminDb : Db) (fairShare : Fs) : ClusterConfig Db Fs where
  state := { master := (masterStart db adminDb fairShare).state }
  threads := []

/-- A schedule of the master in the whole system. -/
def onCluster (as : List (Choice Env Task)) : List (Choice ClusterEnv ClusterTask) :=
  as.map fun
    | .start t => .start (.master t)
    | .move i e => .move i { master := e }

@[simp] theorem cluster_exec (P : Platform Db Fs) (nodeId workDir : String) (e : ClusterEnv)
    (op : ClusterOp) (s : ClusterState Db Fs) :
    (cluster P nodeId workDir).exec e op s = s.exec P e op := rfl

end CertOS
