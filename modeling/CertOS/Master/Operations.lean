import CertOS.Auth.Interceptor
import CertOS.Interleave.Run
import CertOS.Master.JobManager
import CertOS.Master.NodeRegistry

/-!
# The atomic operations of the master

The state of the master is the states of its components, and what a thread of
the master can do to it in one step is one method of one component, or one look
at the clock or the random number generator. The request handlers
(`CertOS.Master.Service`) and the scheduler (`CertOS.Master.Scheduler`) are
programs over these operations.

The parts of the master that are not in the repository are collected in
`CertOS.Platform`: SQLite, protobuf's JSON conversion, jwt-cpp, and the
floating-point arithmetic of the fair-share table.
-/

namespace CertOS

open Interleave

/-- protobuf's conversions between a request and its JSON text; either may
fail. -/
structure JsonCodec where
  /-- `MessageToJsonString`. -/
  print : JobRequest → Option String
  /-- `JsonStringToMessage`. -/
  parse : String → Option JobRequest

/-- What the conversions can be relied on for: a printed text parses back to the
request and has no NUL in it, and the empty text is not JSON. -/
structure JsonCodec.Lawful (J : JsonCodec) : Prop where
  parse_print : ∀ r s, J.print r = some s → J.parse s = some r
  print_no_nul : ∀ r s, J.print r = some s → '\x00' ∉ s.toList
  parse_empty : J.parse "" = none

/-- The libraries under the master, with the representation `Db` of a database
and `Fs` of the fair-share table. -/
structure Platform (Db Fs : Type) where
  /-- SQLite. -/
  store : StoreBackend Db
  /-- The JSON conversions. -/
  json : JsonCodec
  /-- `JwtManager::validate_token`. -/
  validateToken : String → Option TokenClaims
  /-- `FairShareManager::apply_decay` at a given time. -/
  applyDecay : ℤ → Fs → Fs

/-- The state of the master. -/
structure MasterState (Db Fs : Type) where
  /-- `job_mgr_`. -/
  jobMgr : JobManager Db
  /-- `node_registry_`. -/
  nodeRegistry : NodeRegistry
  /-- `admin_db_`. -/
  adminDb : Db
  /-- `fair_share_mgr_`. -/
  fairShare : Fs

/-! ### The operations -/

/-- One atomic step of a thread of the master. -/
inductive MasterOp where
  /-- A method of the job manager. -/
  | job (op : JobOp)
  /-- A method of the node registry. -/
  | node (op : NodeOp)
  /-- A call of the admin database. -/
  | store (op : StoreOp)
  /-- `apply_decay`. -/
  | applyDecay
  /-- A look at the clock. -/
  | now
  /-- A call of `rand`. -/
  | rand
  deriving DecidableEq

/-- What the operations return. -/
@[reducible] def MasterOp.Res : MasterOp → Type
  | .job op => op.Res
  | .node op => op.Res
  | .store op => op.Res
  | .applyDecay => Unit
  | .now => ℤ
  | .rand => ℕ

variable {Db Fs : Type}

/-- The meaning of the operations. -/
def MasterState.exec (P : Platform Db Fs) (e : Env) :
    (op : MasterOp) → MasterState Db Fs → op.Res × MasterState Db Fs
  | .job op, s =>
    ((s.jobMgr.exec P.store e op).1, { s with jobMgr := (s.jobMgr.exec P.store e op).2 })
  | .node op, s =>
    ((s.nodeRegistry.exec e op).1, { s with nodeRegistry := (s.nodeRegistry.exec e op).2 })
  | .store op, s =>
    ((P.store.exec e.sqliteOk op s.adminDb).1,
      { s with adminDb := (P.store.exec e.sqliteOk op s.adminDb).2 })
  | .applyDecay, s => ((), { s with fairShare := P.applyDecay e.now s.fairShare })
  | .now, s => (e.now, s)
  | .rand, s => (e.rand, s)

namespace MasterState

variable (P : Platform Db Fs) (e : Env) (s : MasterState Db Fs)

@[simp] theorem exec_job (op : JobOp) :
    s.exec P e (.job op) = ((s.jobMgr.exec P.store e op).1,
      { s with jobMgr := (s.jobMgr.exec P.store e op).2 }) := rfl

@[simp] theorem exec_node (op : NodeOp) :
    s.exec P e (.node op) = ((s.nodeRegistry.exec e op).1,
      { s with nodeRegistry := (s.nodeRegistry.exec e op).2 }) := rfl

@[simp] theorem exec_store (op : StoreOp) :
    s.exec P e (.store op) = ((P.store.exec e.sqliteOk op s.adminDb).1,
      { s with adminDb := (P.store.exec e.sqliteOk op s.adminDb).2 }) := rfl

@[simp] theorem exec_applyDecay :
    s.exec P e .applyDecay = ((), { s with fairShare := P.applyDecay e.now s.fairShare }) := rfl

@[simp] theorem exec_now : s.exec P e .now = (e.now, s) := rfl

@[simp] theorem exec_rand : s.exec P e .rand = (e.rand, s) := rfl

/-- The operations of the other components leave the job table alone. -/
theorem exec_jobMgr {op : MasterOp} (h : ∀ o, op ≠ .job o) :
    (s.exec P e op).2.jobMgr = s.jobMgr := by
  cases op with
  | job o => exact absurd rfl (h o)
  | _ => rfl

/-- The operations of the other components leave the registry alone. -/
theorem exec_nodeRegistry {op : MasterOp} (h : ∀ o, op ≠ .node o) :
    (s.exec P e op).2.nodeRegistry = s.nodeRegistry := by
  cases op with
  | node o => exact absurd rfl (h o)
  | _ => rfl

end MasterState

/-! ### Calls

The operations as threads, under the names the source calls them by. -/

/-- A thread of the master. -/
abbrev MasterProg (α : Type) := Prog MasterOp.Res α

namespace Call

/-- `job_mgr_->submit_job`. -/
def submitJob (spec : JobSpec) (userId username : String) : MasterProg String :=
  Prog.op (MasterOp.job (.submitJob spec userId username))

/-- `job_mgr_->update_job_status`. -/
def updateJobStatus (jobId : String) (status : JobStatus) (nodeId : String) : MasterProg Bool :=
  Prog.op (MasterOp.job (.updateJobStatus jobId status nodeId))

/-- `job_mgr_->get_job`. -/
def getJob (jobId : String) : MasterProg (Option JobInfo) := Prog.op (MasterOp.job (.getJob jobId))

/-- `job_mgr_->list_jobs`. -/
def listJobs (filterStatus : JobStatus) : MasterProg (List JobInfo) :=
  Prog.op (MasterOp.job (.listJobs filterStatus))

/-- `job_mgr_->get_pending_jobs`. -/
def getPendingJobs : MasterProg (List JobInfo) := listJobs .queued

/-- `job_mgr_->fail_jobs_on_node`. -/
def failJobsOnNode (nodeId : String) : MasterProg Unit :=
  Prog.op (MasterOp.job (.failJobsOnNode nodeId))

/-- `job_mgr_->cancel_job`. -/
def cancelJob (jobId : String) : MasterProg Bool := Prog.op (MasterOp.job (.cancelJob jobId))

/-- `job_mgr_->get_jobs_to_cancel_for_node`. -/
def getJobsToCancelForNode (nodeId : String) : MasterProg (List String) :=
  Prog.op (MasterOp.job (.getJobsToCancelForNode nodeId))

/-- `node_registry_->register_node`. -/
def registerNode (info : NodeInfo) : MasterProg String :=
  Prog.op (MasterOp.node (.registerNode info))

/-- `node_registry_->update_heartbeat`. -/
def updateHeartbeat (nodeId : String) (availableResources : ResourceSpec) (runningJobs : UInt32) :
    MasterProg Bool :=
  Prog.op (MasterOp.node (.updateHeartbeat nodeId availableResources runningJobs))

/-- `node_registry_->get_all_nodes`. -/
def getAllNodes : MasterProg (List NodeInfo) := Prog.op (MasterOp.node .getAllNodes)

/-- `node_registry_->check_timeouts`. -/
def checkTimeouts (timeoutSec : UInt32) : MasterProg Unit :=
  Prog.op (MasterOp.node (.checkTimeouts timeoutSec))

/-- `admin_db_->set_kv`. -/
def setKv (key value : String) : MasterProg Bool := Prog.op (MasterOp.store (.setKv key value))

/-- `admin_db_->get_kv`. -/
def getKv (key : String) : MasterProg (Option String) := Prog.op (MasterOp.store (.getKv key))

/-- `admin_db_->add_job_request`. -/
def addJobRequest (reqId email : String) (status : ℤ) (data : String) : MasterProg Bool :=
  Prog.op (MasterOp.store (.addJobRequest reqId email status data))

/-- `admin_db_->update_request_status`. -/
def updateRequestStatus (reqId : String) (status : ℤ) (data : String) : MasterProg Bool :=
  Prog.op (MasterOp.store (.updateRequestStatus reqId status data))

/-- `admin_db_->list_requests`. -/
def listRequests : MasterProg (List (String × String)) := Prog.op (MasterOp.store .listRequests)

/-- `fair_share_->apply_decay`. -/
def applyDecay : MasterProg Unit := Prog.op MasterOp.applyDecay

/-- `std::chrono::system_clock::now`, in seconds. -/
def now : MasterProg ℤ := Prog.op MasterOp.now

/-- `rand`. -/
def rand : MasterProg ℕ := Prog.op MasterOp.rand

end Call

end CertOS
