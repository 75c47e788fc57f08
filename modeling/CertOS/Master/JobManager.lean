import CertOS.Master.StateStore

/-!
# The job table

`JobManager` owns the table of jobs. Every method holds the manager's mutex for
its whole duration, so every method is one atomic operation on
`CertOS.JobManager`, and the six that other components call concurrently are
the operations `CertOS.JobOp`.

What an operation can do to the table is said once, in
`CertOS.JobManager.exec_jobs`: a submission inserts one record, and every other
operation is the sweep `CertOS.JobOp.touch`, which looks at one record at a
time. Everything proved later about jobs goes through that.
-/

namespace CertOS

/-- Whether a job is assigned to a node or running on it, and so holds resources
of it. -/
def holdsOn (n : String) (info : JobInfo) : Bool :=
  info.status.isActive && info.assignedNodeId = n

/-- `JobManager`: the table of jobs, and the database it writes submissions
to. -/
structure JobManager (Db : Type) where
  /-- `jobs_`. -/
  jobs : Table String JobInfo := ∅
  /-- `db_`. -/
  db : Option Db := none

namespace JobManager

variable {Db : Type}

/-! ### The methods -/

/-- The record a submission creates. -/
def newJob (now : ℤ) (jobId : String) (spec : JobSpec) (userId username : String) : JobInfo where
  jobId := jobId
  userId := userId
  username := username
  spec := spec
  status := .queued
  submittedAt := now
  effectivePriority := spec.priority

/-- `submit_job`. -/
def submitJob (B : StoreBackend Db) (e : Env) (spec : JobSpec) (userId username : String)
    (m : JobManager Db) : String × JobManager Db :=
  let jobId := shortId "job-" e.uuid
  (jobId,
    { jobs := m.jobs.insert jobId (newJob e.now jobId spec userId username)
      db := m.db.map fun db => (B.exec e.sqliteOk (.setKv ("job:" ++ jobId) "QUEUED") db).2 })

/-- What `update_job_status` does to the record it finds. It does not look at
the status the record has. -/
def setStatus (now : ℤ) (status : JobStatus) (nodeId : String) (info : JobInfo) : JobInfo :=
  let info := { info with status := status }
  if status = .assigned ∨ status = .running then
    let info := if nodeId ≠ "" then { info with assignedNodeId := nodeId } else info
    if status = .running ∧ info.startedAt = 0 then { info with startedAt := now } else info
  else if status = .completed ∨ status = .failed ∨ status = .cancelled then
    { info with completedAt := now }
  else info

/-- `update_job_status`. -/
def updateJobStatus (e : Env) (jobId : String) (status : JobStatus) (nodeId : String)
    (m : JobManager Db) : Bool × JobManager Db :=
  match m.jobs.lookup jobId with
  | none => (false, m)
  | some _ => (true, { m with jobs := m.jobs.modify jobId (setStatus e.now status nodeId) })

/-- `get_job`. -/
def getJob (jobId : String) (m : JobManager Db) : Option JobInfo := m.jobs.lookup jobId

/-- `list_jobs`: the jobs with this status, or all of them. -/
def listJobs (e : Env) (filterStatus : JobStatus) (m : JobManager Db) : List JobInfo :=
  (e.jobOrder m.jobs.values).filter fun info =>
    filterStatus = .unspecified ∨ info.status = filterStatus

/-- `get_pending_jobs`. -/
def getPendingJobs (e : Env) (m : JobManager Db) : List JobInfo := m.listJobs e .queued

/-- What `fail_jobs_on_node` does to a record. -/
def failOnNode (now : ℤ) (nodeId : String) (info : JobInfo) : JobInfo :=
  if (info.status = .assigned ∨ info.status = .running) ∧ info.assignedNodeId = nodeId then
    { info with status := .failed, errorMessage := "Node went offline", completedAt := now }
  else info

/-- `fail_jobs_on_node`. -/
def failJobsOnNode (e : Env) (nodeId : String) (m : JobManager Db) : JobManager Db :=
  { m with jobs := m.jobs.mapValues fun _ => failOnNode e.now nodeId }

/-- What `cancel_job` does to a record: a job that has not ended is marked as
cancelled, whether it is queued, assigned or running. -/
def cancel (now : ℤ) (info : JobInfo) : JobInfo :=
  if info.status = .completed ∨ info.status = .failed ∨ info.status = .cancelled then info
  else { info with status := .cancelled, completedAt := now }

/-- `cancel_job`. -/
def cancelJob (e : Env) (jobId : String) (m : JobManager Db) : Bool × JobManager Db :=
  match m.jobs.lookup jobId with
  | none => (false, m)
  | some info =>
    if info.status = .completed ∨ info.status = .failed ∨ info.status = .cancelled then (false, m)
    else (true, { m with jobs := m.jobs.modify jobId (cancel e.now) })

/-- `get_jobs_to_cancel_for_node`: the jobs of the node that were cancelled in
the last minute. -/
def getJobsToCancelForNode (e : Env) (nodeId : String) (m : JobManager Db) : List String :=
  ((e.jobOrder m.jobs.values).filter fun info =>
    info.status = .cancelled ∧ info.assignedNodeId = nodeId ∧ e.now - info.completedAt < 60).map
      JobInfo.jobId

end JobManager

/-! ### The operations -/

/-- The methods of the job manager as operations. -/
inductive JobOp where
  | submitJob (spec : JobSpec) (userId username : String)
  | updateJobStatus (jobId : String) (status : JobStatus) (nodeId : String)
  | getJob (jobId : String)
  | listJobs (filterStatus : JobStatus)
  | failJobsOnNode (nodeId : String)
  | cancelJob (jobId : String)
  | getJobsToCancelForNode (nodeId : String)
  deriving DecidableEq

namespace JobOp

/-- What the methods return. -/
@[reducible] def Res : JobOp → Type
  | .submitJob .. => String
  | .updateJobStatus .. | .cancelJob _ => Bool
  | .getJob _ => Option JobInfo
  | .listJobs _ => List JobInfo
  | .failJobsOnNode _ => Unit
  | .getJobsToCancelForNode _ => List String

/-- The operation is a submission. -/
def isSubmit : JobOp → Bool
  | .submitJob .. => true
  | _ => false

/-- What an operation other than a submission does to the record of `j`. -/
def touch (now : ℤ) : JobOp → String → JobInfo → JobInfo
  | .updateJobStatus jobId status nodeId, j, info =>
      if j = jobId then JobManager.setStatus now status nodeId info else info
  | .failJobsOnNode nodeId, _, info => JobManager.failOnNode now nodeId info
  | .cancelJob jobId, j, info => if j = jobId then JobManager.cancel now info else info
  | _, _, info => info

end JobOp

namespace JobManager

variable {Db : Type}

/-- The meaning of the operations. -/
def exec (B : StoreBackend Db) (e : Env) :
    (op : JobOp) → JobManager Db → op.Res × JobManager Db
  | .submitJob spec userId username, m => m.submitJob B e spec userId username
  | .updateJobStatus jobId status nodeId, m => m.updateJobStatus e jobId status nodeId
  | .getJob jobId, m => (m.getJob jobId, m)
  | .listJobs filterStatus, m => (m.listJobs e filterStatus, m)
  | .failJobsOnNode nodeId, m => ((), m.failJobsOnNode e nodeId)
  | .cancelJob jobId, m => m.cancelJob e jobId
  | .getJobsToCancelForNode nodeId, m => (m.getJobsToCancelForNode e nodeId, m)

variable (B : StoreBackend Db) (e : Env) (m : JobManager Db)

/-! ### What an operation can do -/

@[simp] theorem exec_submitJob_jobs (spec : JobSpec) (userId username : String) :
    (m.exec B e (.submitJob spec userId username)).2.jobs =
      m.jobs.insert (shortId "job-" e.uuid)
        (newJob e.now (shortId "job-" e.uuid) spec userId username) := rfl

/-- Cancelling a job that has ended changes nothing. -/
theorem cancel_of_isTerminal {now : ℤ} {info : JobInfo} (h : info.status.isTerminal = true) :
    cancel now info = info := by
  rw [cancel, if_pos]
  revert h
  cases info.status <;> simp [JobStatus.isTerminal]

/-- **What an operation can do to the table**: a submission inserts a record,
and every other operation sweeps over the records with `JobOp.touch`. -/
theorem exec_jobs {op : JobOp} (h : op.isSubmit = false) :
    (m.exec B e op).2.jobs = m.jobs.mapValues (op.touch e.now) := by
  cases op with
  | submitJob => cases h
  | getJob => exact (Table.mapValues_eq_self fun _ _ _ => rfl).symm
  | listJobs => exact (Table.mapValues_eq_self fun _ _ _ => rfl).symm
  | getJobsToCancelForNode => exact (Table.mapValues_eq_self fun _ _ _ => rfl).symm
  | failJobsOnNode nodeId => rfl
  | updateJobStatus jobId status nodeId =>
    -- the sweep that touches the records of one job is the update in place
    have hmod : m.jobs.mapValues (JobOp.touch e.now (.updateJobStatus jobId status nodeId)) =
        m.jobs.modify jobId (setStatus e.now status nodeId) := rfl
    rw [hmod]
    simp only [exec, updateJobStatus]
    cases hl : m.jobs.lookup jobId with
    | none => exact (Table.modify_eq_self fun v hv => by rw [hl] at hv; cases hv).symm
    | some info => rfl
  | cancelJob jobId =>
    have hmod : m.jobs.mapValues (JobOp.touch e.now (.cancelJob jobId)) =
        m.jobs.modify jobId (cancel e.now) := rfl
    rw [hmod]
    simp only [exec, cancelJob]
    cases hl : m.jobs.lookup jobId with
    | none => exact (Table.modify_eq_self fun v hv => by rw [hl] at hv; cases hv).symm
    | some info =>
      -- a job that has ended is found and left as it is
      by_cases hd : info.status = .completed ∨ info.status = .failed ∨ info.status = .cancelled
      · have hsame : m.jobs.modify jobId (cancel e.now) = m.jobs := by
          refine Table.modify_eq_self fun v hv => ?_
          obtain rfl : info = v := Option.some.inj (hl.symm.trans hv)
          exact if_pos hd
        simp only [if_pos hd, hsame]
      · simp only [if_neg hd]

/-- The record of `j` after an operation that is not a submission. -/
theorem lookup_exec {op : JobOp} (h : op.isSubmit = false) (j : String) :
    (m.exec B e op).2.jobs.lookup j = (m.jobs.lookup j).map (op.touch e.now j) := by
  rw [exec_jobs B e m h, Table.lookup_mapValues]

/-- The record that a status update is about. -/
theorem lookup_updateJobStatus (status : JobStatus) (nodeId j : String) :
    (m.exec B e (.updateJobStatus j status nodeId)).2.jobs.lookup j =
      (m.jobs.lookup j).map (setStatus e.now status nodeId) := by
  rw [lookup_exec B e m rfl]
  exact congrArg (fun f => (m.jobs.lookup j).map f) (funext fun info => if_pos rfl)

/-- A status update leaves the records of other jobs alone. -/
theorem lookup_updateJobStatus_of_ne (status : JobStatus) (nodeId : String) {j k : String}
    (h : k ≠ j) :
    (m.exec B e (.updateJobStatus j status nodeId)).2.jobs.lookup k = m.jobs.lookup k := by
  have hsame : JobOp.touch e.now (.updateJobStatus j status nodeId) k = id := by
    funext info
    exact if_neg h
  rw [lookup_exec B e m rfl, hsame, Option.map_id, id_eq]

/-- A submission leaves the records of other jobs alone. -/
theorem lookup_submitJob_of_ne (spec : JobSpec) (userId username : String) {j : String}
    (h : j ≠ shortId "job-" e.uuid) :
    (m.exec B e (.submitJob spec userId username)).2.jobs.lookup j = m.jobs.lookup j := by
  rw [exec_submitJob_jobs, Table.lookup_insert, if_neg h]

/-! ### What a status update writes -/

@[simp] theorem setStatus_status (now : ℤ) (status : JobStatus) (nodeId : String)
    (info : JobInfo) : (setStatus now status nodeId info).status = status := by
  simp only [setStatus]
  split_ifs <;> rfl

/-- An update to an active status moves the job to the node it names, if it
names one. -/
theorem setStatus_assignedNodeId (now : ℤ) (status : JobStatus) (nodeId : String)
    (info : JobInfo) :
    (setStatus now status nodeId info).assignedNodeId =
      if status.isActive = true ∧ nodeId ≠ "" then nodeId else info.assignedNodeId := by
  simp only [setStatus]
  cases status <;> by_cases hn : nodeId = "" <;> simp [JobStatus.isActive, hn] <;>
    split_ifs <;> rfl

/-! ### What no operation changes -/

theorem setStatus_keeps (now : ℤ) (status : JobStatus) (nodeId : String) (info : JobInfo) :
    (setStatus now status nodeId info).jobId = info.jobId ∧
      (setStatus now status nodeId info).spec = info.spec := by
  simp only [setStatus]
  split_ifs <;> exact ⟨rfl, rfl⟩

/-- No sweep changes the identifier or the specification of a job. -/
theorem touch_keeps (now : ℤ) (op : JobOp) (j : String) (info : JobInfo) :
    (op.touch now j info).jobId = info.jobId ∧ (op.touch now j info).spec = info.spec := by
  cases op with
  | updateJobStatus jobId status nodeId =>
    rw [JobOp.touch]
    split
    · exact setStatus_keeps now status nodeId info
    · exact ⟨rfl, rfl⟩
  | failJobsOnNode nodeId =>
    rw [JobOp.touch, failOnNode]
    split <;> exact ⟨rfl, rfl⟩
  | cancelJob jobId =>
    rw [JobOp.touch, cancel]
    split_ifs <;> exact ⟨rfl, rfl⟩
  | _ => exact ⟨rfl, rfl⟩

/-- **The rule for the records**: what holds of a fresh record, and of every record of the
table after the sweep of an operation, holds of all records after the operation. -/
theorem forall_exec_of_lookup {q : String → JobInfo → Prop} {op : JobOp}
    (hnew : ∀ jobId spec userId username, q jobId (newJob e.now jobId spec userId username))
    (hold : ∀ j info, m.jobs.lookup j = some info → q j info)
    (htouch : ∀ j info, m.jobs.lookup j = some info → q j (op.touch e.now j info)) :
    ∀ j info, (m.exec B e op).2.jobs.lookup j = some info → q j info := by
  intro j info hj
  cases hs : op.isSubmit with
  | true =>
    cases op with
    | submitJob spec userId username =>
      rw [exec_submitJob_jobs, Table.lookup_insert] at hj
      split at hj
      · rename_i hid
        obtain rfl := Option.some.inj hj
        rw [hid]
        exact hnew _ _ _ _
      · exact hold j info hj
    | _ => cases hs
  | false =>
    rw [lookup_exec B e m hs] at hj
    obtain ⟨info₀, h₀, rfl⟩ := Option.map_eq_some_iff.mp hj
    exact htouch j info₀ h₀

/-- The same, for what the sweeps preserve. -/
theorem forall_exec {q : String → JobInfo → Prop} {op : JobOp}
    (hnew : ∀ jobId spec userId username, q jobId (newJob e.now jobId spec userId username))
    (htouch : ∀ j info, q j info → q j (op.touch e.now j info))
    (h : ∀ j info, m.jobs.lookup j = some info → q j info) :
    ∀ j info, (m.exec B e op).2.jobs.lookup j = some info → q j info :=
  forall_exec_of_lookup B e m hnew h fun j info hj => htouch j info (h j info hj)

/-- Every record is filed under its own identifier. -/
def Keyed (m : JobManager Db) : Prop := ∀ j info, m.jobs.lookup j = some info → info.jobId = j

/-- The operations keep the records under their identifiers. -/
theorem Keyed.exec {m : JobManager Db} (hk : m.Keyed) (op : JobOp) : (m.exec B e op).2.Keyed :=
  forall_exec B e m (fun _ _ _ _ => rfl)
    (fun j info h => (touch_keeps e.now op j info).1.trans h) hk

/-- The operations keep every record: none is ever removed. -/
theorem exists_lookup_exec (op : JobOp) {j : String} (h : ∃ info, m.jobs.lookup j = some info) :
    ∃ info, (m.exec B e op).2.jobs.lookup j = some info := by
  obtain ⟨info, h⟩ := h
  cases hs : op.isSubmit with
  | true =>
    cases op with
    | submitJob spec userId username =>
      rw [exec_submitJob_jobs, Table.lookup_insert]
      split
      · exact ⟨_, rfl⟩
      · exact ⟨info, h⟩
    | _ => cases hs
  | false => exact ⟨_, by rw [lookup_exec B e m hs, h]; rfl⟩

/-- The jobs a listing shows are the records of the table with that status. -/
theorem mem_listJobs {filterStatus : JobStatus} {info : JobInfo} :
    info ∈ m.listJobs e filterStatus ↔ (∃ j, m.jobs.lookup j = some info) ∧
      (filterStatus = .unspecified ∨ info.status = filterStatus) := by
  simp [listJobs, Table.mem_values]

/-- A listing shows every job once. -/
theorem Keyed.nodup_listJobs {m : JobManager Db} (hk : m.Keyed) (e : Env) (status : JobStatus) :
    ((m.listJobs e status).map JobInfo.jobId).Nodup := by
  have hkeys : m.jobs.values.map JobInfo.jobId = m.jobs.keys := by
    rw [Table.values, List.map_map, AList.keys, List.keys]
    exact List.map_congr_left fun entry he => hk entry.1 entry.2 (Table.mem_entries.mp he)
  refine List.Nodup.sublist (List.filter_sublist.map _) ?_
  rw [((e.jobOrder.perm m.jobs.values).map JobInfo.jobId).nodup_iff, hkeys]
  exact m.jobs.keys_nodup

end JobManager

end CertOS
