import CertOS.Master.Operations
import CertOS.Text

/-!
# The request handlers

`MasterServiceImpl` and `AgentServiceImpl` of `master/src/grpc_service.cpp`. A
handler runs on a thread of its own, holds no lock between two calls, and is
therefore a program over the operations of the master: what it does is written
with `do`, call by call as in the source, and between any two calls any other
thread may run.

`CertOS.Rpc` is a call with its message, `CertOS.Rpc.handle` the handler it
reaches, and `CertOS.serve` the call as the server makes it, through the
interceptor.
-/

namespace CertOS

open Interleave

/-! ### Accounts -/

namespace MasterService

/-- The role stored for a requested role. -/
def roleName (role : UserRole) : String := if role = .admin then "admin" else "user"

/-- The role a stored role is reported as. -/
def storedRole (role : Option String) : UserRole := if role = some "admin" then .admin else .user

/-- The marker in the access tokens of `Login`. -/
def tokenMarker : String := "mock-jwt-for-"

/-- `Login`. -/
def login (username password : String) : MasterProg (Except Status AuthToken) := do
  let dbPass ← Call.getKv ("user:" ++ username)
  if dbPass = some password then
    let dbRole ← Call.getKv ("role:" ++ username)
    return .ok
      { accessToken := tokenMarker ++ username
        tokenType := "Bearer"
        user := { username := username, role := storedRole dbRole } }
  else
    return .error ⟨.unauthenticated, "Invalid credentials"⟩

/-- The account list of a database that has none. -/
def defaultUserList : String := "admin,user1"

/-- The last steps of `CreateUser`: the reply carries the time. -/
def createdUser (request : CreateUserRequest) : MasterProg (Except Status UserInfo) := do
  let now ← Call.now
  return .ok { username := request.username, role := request.role, createdAt := now }

/-- The steps of `CreateUser` after the existence check. -/
def storeUser (request : CreateUserRequest) : MasterProg (Except Status UserInfo) := do
  let _ ← Call.setKv ("user:" ++ request.username) request.password
  let _ ← Call.setKv ("role:" ++ request.username) (roleName request.role)
  let existingList ← Call.getKv "system:user_list"
  let userList := existingList.getD defaultUserList
  if (Text.find request.username.toList userList.toList).isNone then
    let _ ← Call.setKv "system:user_list" (userList ++ "," ++ request.username)
    createdUser request
  else
    createdUser request

/-- `CreateUser`. -/
def createUser (request : CreateUserRequest) : MasterProg (Except Status UserInfo) := do
  let existing ← Call.getKv ("user:" ++ request.username)
  if existing.isSome then
    return .error ⟨.alreadyExists, "User already exists"⟩
  else
    storeUser request

/-- The names in an account list: its parts between commas, less the empty
ones. -/
def splitUserList (userList : String) : List String :=
  ((userList.toList.splitOn ',').filter (· ≠ [])).map String.ofList

/-- Look up the role of each name. -/
def listRoles : List String → MasterProg (List UserInfo)
  | [] => return []
  | uname :: users => do
    let role ← Call.getKv ("role:" ++ uname)
    let rest ← listRoles users
    return { username := uname, role := storedRole role } :: rest

/-- `AdminListUsers`. -/
def adminListUsers : MasterProg (List UserInfo) := do
  let userListStr ← Call.getKv "system:user_list"
  listRoles (match userListStr with
    | some userList => splitUserList userList
    | none => ["admin", "user1"])

/-- `AdminDeleteUser`. -/
def adminDeleteUser (userId : String) : MasterProg (Except Status StatusResponse) :=
  if userId = "admin" then
    return .error ⟨.permissionDenied, "Cannot delete root admin"⟩
  else
    return .ok { success := true, message := "User deleted" }

/-! ### Jobs and nodes -/

/-- `GetJobStatus`. -/
def getJobStatus (jobId : String) : MasterProg (Except Status JobInfo) := do
  let job ← Call.getJob jobId
  match job with
  | some info => return .ok info
  | none => return .error ⟨.notFound, "Job not found"⟩

/-- The user a call is attributed to: what follows the first marker in its
authorization header. -/
def callerName (metadata : Metadata) : String :=
  match metadata.lookup "authorization" with
  | none => "unknown"
  | some auth =>
    match Text.find tokenMarker.toList auth.toList with
    | none => "unknown"
    | some pos => String.ofList (auth.toList.drop (pos + 13))

/-- `SubmitJob`. -/
def submitJob (metadata : Metadata) (spec : JobSpec) : MasterProg (Except Status JobInfo) := do
  let username := callerName metadata
  let jobId ← Call.submitJob spec username username
  let jobOpt ← Call.getJob jobId
  match jobOpt with
  | some info => return .ok info
  | none => return .error ⟨.internal, "Failed to retrieve submitted job"⟩

/-- `CancelJob`. -/
def cancelJob (jobId : String) : MasterProg StatusResponse := do
  let ok ← Call.cancelJob jobId
  return {
    success := ok
    message :=
      if ok then "Job marked for cancellation" else "Failed to cancel job or job not found" }

/-- `ListNodes`. -/
def listNodes : MasterProg (List NodeInfo) := Call.getAllNodes

/-- `ListJobs`. -/
def listJobs (statusFilter : JobStatus) : MasterProg ListJobsResponse := do
  let jobs ← Call.listJobs statusFilter
  return { jobs := jobs, totalCount := jobs.length }

/-! ### Job requests -/

variable (J : JsonCodec)

/-- The last steps of `SubmitPublicRequest`: store the request under the
identifier it has been given. -/
def storeRequest (now : ℤ) (request : JobRequest) (requestId : String) :
    MasterProg StatusResponse :=
  let req := { request with requestId := requestId, submittedAt := now, status := .pending }
  match J.print req with
  | none => return { success := false, message := "Failed to serialize request" }
  | some jsonData => do
    let stored ← Call.addJobRequest req.requestId req.applicantEmail req.status.toInt jsonData
    if stored then
      return { success := true, message := req.requestId }
    else
      return { success := false, message := "Failed to store request in database" }

/-- `SubmitPublicRequest`; a request that comes without an identifier gets
one. -/
def submitPublicRequest (request : JobRequest) : MasterProg StatusResponse := do
  let now ← Call.now
  if request.requestId = "" then
    let r ← Call.rand
    storeRequest J now request ("req-" ++ toString now ++ "-" ++ toString (r % 1000))
  else
    storeRequest J now request request.requestId

/-- The JSON stored for a request, or the empty string. -/
def findRequest (requestId : String) (requests : List (String × String)) : String :=
  ((requests.find? fun r => r.1 = requestId).map Prod.snd).getD ""

/-- What `UpdateJobRequest` changes in the stored request. -/
def withArchive (archivePath : String) (req : JobRequest) : JobRequest :=
  if archivePath = "" then req
  else { req with requestedSpec := { req.requestedSpec with archivePath := archivePath } }

/-- The last steps of `UpdateJobRequest`: write the whole request back. -/
def storeUpdate (req : JobRequest) : MasterProg StatusResponse :=
  match J.print req with
  | none => return { success := false, message := "Failed to serialize update" }
  | some jsonData => do
    let _ ← Call.updateRequestStatus req.requestId req.status.toInt jsonData
    return { success := true }

/-- The steps of `UpdateJobRequest` after the read. -/
def updateFound (request : JobRequest) (targetJson : String) : MasterProg StatusResponse :=
  if targetJson = "" then
    return { success := false, message := "Request not found" }
  else
    match J.parse targetJson with
    | none => return { success := false, message := "Failed to parse request" }
    | some req => storeUpdate J (withArchive request.requestedSpec.archivePath req)

/-- `UpdateJobRequest`. -/
def updateJobRequest (request : JobRequest) : MasterProg StatusResponse := do
  let requests ← Call.listRequests
  updateFound J request (findRequest request.requestId requests)

/-- `AdminListRequests`; a row that does not parse is listed as an empty
request. -/
def adminListRequests : MasterProg (List JobRequest) := do
  let requests ← Call.listRequests
  return requests.map fun r => (J.parse r.2).getD {}

/-- The stored request with the decision of a review. -/
def reviewed (now : ℤ) (request : ReviewRequest) (req : JobRequest) : JobRequest :=
  { req with
    reviewedAt := now
    reviewComment := request.comment
    status := if request.approve then .approved else .rejected }

/-- The last steps of `AdminReviewRequest`: write the whole request back. -/
def storeReview (request : ReviewRequest) (req : JobRequest) :
    MasterProg (Except Status StatusResponse) :=
  match J.print req with
  | none => return .error ⟨.internal, "Failed to serialize request"⟩
  | some jsonData => do
    let _ ← Call.updateRequestStatus req.requestId req.status.toInt jsonData
    return .ok {
      success := true
      message := if request.approve then "Request approved and job scheduled"
        else "Request rejected" }

/-- The steps of `AdminReviewRequest` once the stored request is parsed: an
approval submits the job before the decision is written. -/
def decideReview (request : ReviewRequest) (req : JobRequest) :
    MasterProg (Except Status StatusResponse) := do
  let now ← Call.now
  if request.approve then
    let _ ← Call.submitJob req.requestedSpec "public-user" req.applicantName
    storeReview J request (reviewed now request req)
  else
    storeReview J request (reviewed now request req)

/-- The steps of `AdminReviewRequest` after the read. They do not look at the
status the request has. -/
def reviewFound (request : ReviewRequest) (targetJson : String) :
    MasterProg (Except Status StatusResponse) :=
  if targetJson = "" then
    return .error ⟨.notFound, "Request not found"⟩
  else
    match J.parse targetJson with
    | none => return .error ⟨.internal, "Failed to parse stored request"⟩
    | some req => decideReview J request req

/-- `AdminReviewRequest`. -/
def adminReviewRequest (request : ReviewRequest) : MasterProg (Except Status StatusResponse) := do
  let requests ← Call.listRequests
  reviewFound J request (findRequest request.requestId requests)

end MasterService

/-! ### The agents' side -/

namespace AgentService

/-- `RegisterNode`. -/
def registerNode (request : RegisterNodeRequest) : MasterProg RegisterNodeResponse := do
  let info : NodeInfo :=
    { hostname := request.hostname
      ipAddress := request.ipAddress
      port := request.port
      osInfo := request.osInfo
      totalResources := request.totalResources }
  let nodeId ← Call.registerNode info
  return {
    success := true
    nodeId := nodeId
    message := "Registration successful"
    heartbeatIntervalSeconds := 5
    metricsIntervalSeconds := 5 }

/-- `SendHeartbeat`. -/
def sendHeartbeat (request : HeartbeatRequest) : MasterProg HeartbeatResponse := do
  let ok ← Call.updateHeartbeat request.nodeId request.availableResources request.runningJobs
  if ok then
    let toCancel ← Call.getJobsToCancelForNode request.nodeId
    return { acknowledged := true, jobsToCancel := toCancel }
  else
    return { acknowledged := false, message := "Node not registered" }

/-- The job `FetchJob` offers: the first one that is assigned to the node. -/
def offered (nodeId : String) (jobs : List JobInfo) : FetchJobResponse :=
  match jobs.find? fun job => job.assignedNodeId = nodeId with
  | some job => { hasJob := true, jobId := job.jobId, spec := job.spec }
  | none => { hasJob := false }

/-- `FetchJob`. -/
def fetchJob (request : FetchJobRequest) : MasterProg FetchJobResponse := do
  let jobs ← Call.listJobs .assigned
  return offered request.nodeId jobs

/-- A report as the three handlers make it: set the status and say whether the
job is known. -/
def report (jobId : String) (status : JobStatus) (nodeId : String) : MasterProg StatusResponse := do
  let ok ← Call.updateJobStatus jobId status nodeId
  return { success := ok }

/-- `ReportJobStarted`. -/
def reportJobStarted (request : JobStartedReport) : MasterProg StatusResponse :=
  report request.jobId .running request.nodeId

/-- `ReportJobCompleted`; the exit code and the output of the report are not
stored. -/
def reportJobCompleted (request : JobCompletedReport) : MasterProg StatusResponse :=
  report request.jobId .completed request.nodeId

/-- `ReportJobFailed`; the exit code and the message of the report are not
stored. -/
def reportJobFailed (request : JobFailedReport) : MasterProg StatusResponse :=
  report request.jobId .failed request.nodeId

end AgentService

/-! ### Calls and replies -/

/-- A call with its request message. -/
inductive Rpc where
  | login (username password : String)
  | createUser (request : CreateUserRequest)
  | submitJob (spec : JobSpec)
  | getJobStatus (jobId : String)
  | cancelJob (jobId : String)
  | listJobs (statusFilter : JobStatus)
  | listNodes
  | adminListUsers
  | adminDeleteUser (userId : String)
  | adminListRequests
  | adminReviewRequest (request : ReviewRequest)
  | submitPublicRequest (request : JobRequest)
  | updateJobRequest (request : JobRequest)
  | registerNode (request : RegisterNodeRequest)
  | sendHeartbeat (request : HeartbeatRequest)
  | fetchJob (request : FetchJobRequest)
  | reportJobStarted (request : JobStartedReport)
  | reportJobCompleted (request : JobCompletedReport)
  | reportJobFailed (request : JobFailedReport)
  /-- A method of the two services that neither class overrides. -/
  | unimplemented (method : String)
  deriving DecidableEq

/-- What a thread of the master ends with. -/
inductive Reply where
  /-- A status that is not `OK`. -/
  | error (s : Status)
  | authToken (t : AuthToken)
  | userInfo (u : UserInfo)
  | users (us : List UserInfo)
  | jobInfo (j : JobInfo)
  | jobs (r : ListJobsResponse)
  | nodes (ns : List NodeInfo)
  | requests (rs : List JobRequest)
  | status (r : StatusResponse)
  | registered (r : RegisterNodeResponse)
  | heartbeat (r : HeartbeatResponse)
  | fetched (r : FetchJobResponse)
  /-- The end of a thread that answers nobody. -/
  | done
  deriving DecidableEq

/-- The reply of a handler that may return a status. -/
def Reply.ofExcept {α : Type} (f : α → Reply) : Except Status α → Reply
  | .error s => .error s
  | .ok a => f a

namespace Rpc

/-- The full name of the method. -/
def method : Rpc → String
  | .login .. => "/certosc.MasterService/Login"
  | .createUser _ => "/certosc.MasterService/CreateUser"
  | .submitJob _ => "/certosc.MasterService/SubmitJob"
  | .getJobStatus _ => "/certosc.MasterService/GetJobStatus"
  | .cancelJob _ => "/certosc.MasterService/CancelJob"
  | .listJobs _ => "/certosc.MasterService/ListJobs"
  | .listNodes => "/certosc.MasterService/ListNodes"
  | .adminListUsers => "/certosc.MasterService/AdminListUsers"
  | .adminDeleteUser _ => "/certosc.MasterService/AdminDeleteUser"
  | .adminListRequests => "/certosc.MasterService/AdminListRequests"
  | .adminReviewRequest _ => "/certosc.MasterService/AdminReviewRequest"
  | .submitPublicRequest _ => "/certosc.MasterService/SubmitPublicRequest"
  | .updateJobRequest _ => "/certosc.MasterService/UpdateJobRequest"
  | .registerNode _ => "/certosc.AgentService/RegisterNode"
  | .sendHeartbeat _ => "/certosc.AgentService/SendHeartbeat"
  | .fetchJob _ => "/certosc.AgentService/FetchJob"
  | .reportJobStarted _ => "/certosc.AgentService/ReportJobStarted"
  | .reportJobCompleted _ => "/certosc.AgentService/ReportJobCompleted"
  | .reportJobFailed _ => "/certosc.AgentService/ReportJobFailed"
  | .unimplemented method => method

open MasterService AgentService in
/-- The handler of a call. The generated base classes answer a method that is
not overridden with `UNIMPLEMENTED`. -/
def handle (J : JsonCodec) (metadata : Metadata) : Rpc → MasterProg Reply
  | .login username password => Reply.ofExcept .authToken <$> MasterService.login username password
  | .createUser request => Reply.ofExcept .userInfo <$> MasterService.createUser request
  | .submitJob spec => Reply.ofExcept .jobInfo <$> MasterService.submitJob metadata spec
  | .getJobStatus jobId => Reply.ofExcept .jobInfo <$> MasterService.getJobStatus jobId
  | .cancelJob jobId => Reply.status <$> MasterService.cancelJob jobId
  | .listJobs statusFilter => Reply.jobs <$> MasterService.listJobs statusFilter
  | .listNodes => Reply.nodes <$> MasterService.listNodes
  | .adminListUsers => Reply.users <$> MasterService.adminListUsers
  | .adminDeleteUser userId => Reply.ofExcept .status <$> MasterService.adminDeleteUser userId
  | .adminListRequests => Reply.requests <$> MasterService.adminListRequests J
  | .adminReviewRequest request =>
    Reply.ofExcept .status <$> MasterService.adminReviewRequest J request
  | .submitPublicRequest request => Reply.status <$> MasterService.submitPublicRequest J request
  | .updateJobRequest request => Reply.status <$> MasterService.updateJobRequest J request
  | .registerNode request => Reply.registered <$> AgentService.registerNode request
  | .sendHeartbeat request => Reply.heartbeat <$> AgentService.sendHeartbeat request
  | .fetchJob request => Reply.fetched <$> AgentService.fetchJob request
  | .reportJobStarted request => Reply.status <$> AgentService.reportJobStarted request
  | .reportJobCompleted request => Reply.status <$> AgentService.reportJobCompleted request
  | .reportJobFailed request => Reply.status <$> AgentService.reportJobFailed request
  | .unimplemented _ => return .error ⟨.unimplemented, ""⟩

end Rpc

/-- A call as the server makes it: the interceptor first, and the handler if
the interceptor hands the call on. -/
def serve {Db Fs : Type} (P : Platform Db Fs) (metadata : Metadata) (rpc : Rpc) :
    MasterProg Reply :=
  if (intercept P.validateToken rpc.method metadata).proceeds then rpc.handle P.json metadata
  else return .done

/-- **The interceptor stops nothing**: every call reaches its handler. -/
@[simp] theorem serve_eq_handle {Db Fs : Type} (P : Platform Db Fs) (metadata : Metadata)
    (rpc : Rpc) : serve P metadata rpc = rpc.handle P.json metadata := by
  rw [serve, intercept_proceeds, if_pos rfl]

end CertOS
