import CertOS.Master.Server

/-!
# What each task may do

The operations a task can perform, whatever the answers it gets:
`CertOS.Task.mayDo` is the table, and `CertOS.only_mayDo` says that the programs
keep to it. A property of one kind of operation, for example that it writes the
accounts or the requests, then holds of all tasks but those the table names.
-/

namespace CertOS

open Interleave

/-- The operations a handler may perform. -/
def Rpc.mayDo : Rpc → MasterOp → Bool
  | .login .., .store (.getKv _) => true
  | .createUser _, .store (.getKv _) | .createUser _, .store (.setKv ..)
  | .createUser _, .now => true
  | .submitJob _, .job (.submitJob ..) | .submitJob _, .job (.getJob _) => true
  | .getJobStatus _, .job (.getJob _) => true
  | .cancelJob _, .job (.cancelJob _) => true
  | .listJobs _, .job (.listJobs _) => true
  | .listNodes, .node .getAllNodes => true
  | .adminListUsers, .store (.getKv _) => true
  | .adminListRequests, .store .listRequests => true
  | .adminReviewRequest _, .store .listRequests | .adminReviewRequest _, .now
  | .adminReviewRequest _, .job (.submitJob ..)
  | .adminReviewRequest _, .store (.updateRequestStatus ..) => true
  | .submitPublicRequest _, .now | .submitPublicRequest _, .rand
  | .submitPublicRequest _, .store (.addJobRequest ..) => true
  | .updateJobRequest _, .store .listRequests
  | .updateJobRequest _, .store (.updateRequestStatus ..) => true
  | .registerNode _, .node (.registerNode _) => true
  | .sendHeartbeat _, .node (.updateHeartbeat ..)
  | .sendHeartbeat _, .job (.getJobsToCancelForNode _) => true
  | .fetchJob _, .job (.listJobs _) => true
  | .reportJobStarted _, .job (.updateJobStatus ..)
  | .reportJobCompleted _, .job (.updateJobStatus ..)
  | .reportJobFailed _, .job (.updateJobStatus ..) => true
  | _, _ => false

/-- The operations a task may perform. -/
def Task.mayDo : Task → MasterOp → Bool
  | .rpc _ call, op => call.mayDo op
  | .schedulePass _, .job (.listJobs _) | .schedulePass _, .applyDecay
  | .schedulePass _, .node .getAllNodes | .schedulePass _, .job (.updateJobStatus ..) => true
  | .failJobsOnNode _, .job (.failJobsOnNode _) => true
  | .checkTimeouts _, .node (.checkTimeouts _) => true
  | _, _ => false

theorem only_listRoles (users : List String) :
    (MasterService.listRoles users).Only fun op => Rpc.adminListUsers.mayDo op = true := by
  induction users with
  | nil => trivial
  | cons uname users ih =>
    refine ⟨rfl, fun role => ?_⟩
    exact ih.bind fun rest => trivial

theorem only_assignAll (sort : Reorder JobInfo) (jobs : List JobInfo) (nodes : List NodeInfo) :
    (assignAll jobs nodes).Only fun op => (Task.schedulePass sort).mayDo op = true := by
  induction jobs generalizing nodes with
  | nil => trivial
  | cons job jobs ih =>
    rw [assignAll]
    split
    · exact ⟨rfl, fun _ => ih _⟩
    · exact ih _

/-! ### The handlers of the job requests

What these handlers perform is stated for any property of operations: the table
above needs it, and so do the invariants of the requests. -/

namespace MasterService

variable {J : JsonCodec} {q : MasterOp → Prop}

theorem only_storeRequest (now : ℤ) (request : JobRequest) (requestId : String)
    (h : ∀ req data, J.print req = some data → req.status = .pending →
      q (.store (.addJobRequest req.requestId req.applicantEmail req.status.toInt data))) :
    (storeRequest J now request requestId).Only q := by
  rw [storeRequest]
  dsimp only
  split
  · trivial
  · rename_i data hd
    refine .op_bind (h _ data hd rfl) fun stored => ?_
    split <;> trivial

/-- `SubmitPublicRequest` reads the clock, may draw an identifier, and inserts a
pending request. -/
theorem only_submitPublicRequest (request : JobRequest) (hnow : q .now) (hrand : q .rand)
    (h : ∀ req data, J.print req = some data → req.status = .pending →
      q (.store (.addJobRequest req.requestId req.applicantEmail req.status.toInt data))) :
    (submitPublicRequest J request).Only q := by
  refine .op_bind hnow fun now => ?_
  split
  · exact .op_bind hrand fun r => only_storeRequest _ _ _ h
  · exact only_storeRequest _ _ _ h

theorem only_storeUpdate (req : JobRequest)
    (h : ∀ data, J.print req = some data →
      q (.store (.updateRequestStatus req.requestId req.status.toInt data))) :
    (storeUpdate J req).Only q := by
  rw [storeUpdate]
  split
  · trivial
  · rename_i data hd
    exact .op_bind (h data hd) fun _ => trivial

/-- `UpdateJobRequest` writes one row after its read. -/
theorem only_updateFound (request : JobRequest) (targetJson : String)
    (h : ∀ req data, J.print req = some data →
      q (.store (.updateRequestStatus req.requestId req.status.toInt data))) :
    (updateFound J request targetJson).Only q := by
  rw [updateFound]
  split
  · trivial
  · split
    · trivial
    · exact only_storeUpdate _ (h _)

theorem only_storeReview (request : ReviewRequest) (req : JobRequest)
    (h : ∀ data, J.print req = some data →
      q (.store (.updateRequestStatus req.requestId req.status.toInt data))) :
    (storeReview J request req).Only q := by
  rw [storeReview]
  split
  · trivial
  · rename_i data hd
    exact .op_bind (h data hd) fun _ => trivial

theorem only_decideReview (request : ReviewRequest) (req : JobRequest) (hnow : q .now)
    (hsubmit : ∀ spec userId username, q (.job (.submitJob spec userId username)))
    (h : ∀ now data, J.print (reviewed now request req) = some data →
      q (.store (.updateRequestStatus req.requestId
        (reviewed now request req).status.toInt data))) :
    (decideReview J request req).Only q := by
  refine .op_bind hnow fun now => ?_
  split
  · exact .op_bind (hsubmit _ _ _) fun _ => only_storeReview _ _ (h now)
  · exact only_storeReview _ _ (h now)

/-- `AdminReviewRequest` reads the clock after its read, may submit a job, and
writes one row. -/
theorem only_reviewFound (request : ReviewRequest) (targetJson : String) (hnow : q .now)
    (hsubmit : ∀ spec userId username, q (.job (.submitJob spec userId username)))
    (h : ∀ req data, J.print req = some data →
      q (.store (.updateRequestStatus req.requestId req.status.toInt data))) :
    (reviewFound J request targetJson).Only q := by
  rw [reviewFound]
  split
  · trivial
  · split
    · trivial
    · exact only_decideReview _ _ hnow hsubmit fun now => h (reviewed now request _)

end MasterService

/-! ### The table is kept to -/

/-- **The handlers keep to the table.** -/
theorem Rpc.only_mayDo (J : JsonCodec) (metadata : Metadata) (rpc : Rpc) :
    (rpc.handle J metadata).Only fun op => rpc.mayDo op = true := by
  cases rpc with
  | login username password =>
    refine Prog.only_map.mpr (.op_bind rfl fun dbPass => ?_)
    split
    · exact .op_bind rfl fun dbRole => trivial
    · trivial
  | createUser request =>
    refine Prog.only_map.mpr (.op_bind rfl fun existing => ?_)
    split
    · trivial
    · refine .op_bind rfl fun _ => .op_bind rfl fun _ => .op_bind rfl fun list => ?_
      dsimp only
      split
      · exact .op_bind rfl fun _ => .op_bind rfl fun _ => trivial
      · exact .op_bind rfl fun _ => trivial
  | submitJob spec =>
    refine Prog.only_map.mpr (.op_bind rfl fun jobId => .op_bind rfl fun jobOpt => ?_)
    cases jobOpt <;> trivial
  | getJobStatus jobId =>
    refine Prog.only_map.mpr (.op_bind rfl fun job => ?_)
    cases job <;> trivial
  | adminListUsers => exact Prog.only_map.mpr (.op_bind rfl fun list => only_listRoles _)
  | adminDeleteUser userId =>
    refine Prog.only_map.mpr ?_
    rw [MasterService.adminDeleteUser]
    split <;> trivial
  | adminReviewRequest request =>
    exact Prog.only_map.mpr (.op_bind rfl fun requests =>
      MasterService.only_reviewFound _ _ rfl (fun _ _ _ => rfl) fun _ _ _ => rfl)
  | submitPublicRequest request =>
    exact Prog.only_map.mpr
      (MasterService.only_submitPublicRequest _ rfl rfl fun _ _ _ _ => rfl)
  | updateJobRequest request =>
    exact Prog.only_map.mpr (.op_bind rfl fun requests =>
      MasterService.only_updateFound _ _ fun _ _ _ => rfl)
  | sendHeartbeat request =>
    refine Prog.only_map.mpr (.op_bind rfl fun ok => ?_)
    split
    · exact .op_bind rfl fun toCancel => trivial
    · trivial
  | unimplemented method => trivial
  | _ => exact Prog.only_map.mpr (.op_bind rfl fun _ => trivial)

/-- **The tasks keep to the table.** -/
theorem only_mayDo {Db Fs : Type} (P : Platform Db Fs) (t : Task) :
    ((master P).body t).Only fun op => t.mayDo op = true := by
  cases t with
  | rpc metadata rpc =>
    rw [master_body_rpc]
    exact rpc.only_mayDo P.json metadata
  | schedulePass sort =>
    refine Prog.only_map.mpr (.op_bind rfl fun jobs => ?_)
    split
    · trivial
    · refine .op_bind rfl fun _ => .op_bind rfl fun nodes => ?_
      split
      · trivial
      · exact only_assignAll _ _ _
  | failJobsOnNode nodeId => exact Prog.only_map.mpr (.op_bind rfl fun _ => trivial)
  | checkTimeouts timeoutSec => exact Prog.only_map.mpr (.op_bind rfl fun _ => trivial)

end CertOS
