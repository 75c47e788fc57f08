import CertOS.Gateway.RestRoutes
import CertOS.Interleave.Inline

/-!
# The methods of the bridge

Every method of `GrpcBridge` has the same three parts: it makes a message, mostly from the
object that the web client has sent; it calls the master, with the token of the client if
the method has one; and it makes an object of the reply. The first part may throw, and then
there is no call.

Each part is here under the name of the method (`CertOS.GrpcBridge.message`,
`CertOS.GrpcBridge.answer`), and `CertOS.GrpcBridge.perform` puts them together: that is
what a handler of the gateway gets for a call of the bridge.
-/

namespace CertOS

open Interleave

variable {Db Fs : Type}

/-- The number of a status, as the web client gets it. -/
def JobStatus.toInt : JobStatus → ℤ
  | .unspecified => 0
  | .submitted => 1
  | .queued => 2
  | .assigned => 3
  | .running => 4
  | .completed => 5
  | .failed => 6
  | .cancelled => 7
  | .preempted => 8

/-- `boost::json`, with the exceptions that only the bridge meets. -/
structure BridgeJson extends JsonLibrary where
  /-- The exception of `value_to<std::string>` on a value of another kind. -/
  notConvertible : String
  /-- The exception of `at` for a member that is not there. -/
  outOfRange : String

namespace GrpcBridge

variable (L : BridgeJson)

/-! ### The messages -/

/-- `value_to<std::string>`. -/
def valueToString : JsonValue → Except String String
  | .string s => .ok s
  | _ => .error L.notConvertible

/-- A member that is converted if it is there; the field of the message is empty if it is
not. -/
def optionalString (body : JsonObject) (key : String) : Except String String :=
  match body.lookup key with
  | some value => valueToString L value
  | none => .ok ""

/-- `at`. -/
def memberAt (body : JsonObject) (key : String) : Except String JsonValue :=
  match body.lookup key with
  | some value => .ok value
  | none => .error L.outOfRange

/-- The message of `login`. -/
def loginMessage (body : JsonObject) : Except String Rpc := do
  let username ← optionalString L body "username"
  let password ← optionalString L body "password"
  return .login username password

/-- The message of `submit_job`: a web client cannot ask for resources. -/
def submitJobMessage (body : JsonObject) : Except String Rpc := do
  let name ← optionalString L body "name"
  let command ← optionalString L body "command"
  return .submitJob
    { name := name
      command := command
      resources := { cpuCores := 1, ramMb := 1024 } }

/-- The message of `create_user`. -/
def createUserMessage (body : JsonObject) : Except String Rpc := do
  let username ← memberAt L body "username"
  let username ← valueToString L username
  let password ← memberAt L body "password"
  let password ← valueToString L password
  let role ← memberAt L body "role"
  let role ← role.asString L.toJsonLibrary
  return .createUser
    { username := username
      password := password
      role := if role = "admin" then .admin else .user }

/-- The message of `update_request_archive`. -/
def updateArchiveMessage (reqId archivePath : String) : Rpc :=
  .updateJobRequest { requestId := reqId, requestedSpec := { archivePath := archivePath } }

/-- The message of `admin_review_request`. -/
def reviewMessage (reqId : String) (approve : Bool) (comment : String) : Rpc :=
  .adminReviewRequest { requestId := reqId, approve := approve, comment := comment }

/-- **The call a method makes**, with its metadata. No class of the master overrides
`GetClusterStatus`. -/
def message : BridgeCall → Except String (Metadata × Rpc)
  | .login body => do
    let rpc ← loginMessage L body
    return ([], rpc)
  | .submitPublicRequest request => .ok ([], .submitPublicRequest request)
  | .updateRequestArchive reqId archivePath => .ok ([], updateArchiveMessage reqId archivePath)
  | .getClusterStatus token =>
    .ok (setupContext token, .unimplemented "/certosc.MasterService/GetClusterStatus")
  | .listNodes token => .ok (setupContext token, .listNodes)
  | .listJobs token => .ok (setupContext token, .listJobs .unspecified)
  | .submitJob token body => do
    let rpc ← submitJobMessage L body
    return (setupContext token, rpc)
  | .cancelJob token jobId => .ok (setupContext token, .cancelJob jobId)
  | .adminListRequests token => .ok (setupContext token, .adminListRequests)
  | .adminReviewRequest token reqId approve comment =>
    .ok (setupContext token, reviewMessage reqId approve comment)
  | .adminListUsers token => .ok (setupContext token, .adminListUsers)
  | .createUser token body => do
    let rpc ← createUserMessage L body
    return (setupContext token, rpc)
  | .adminDeleteUser token username => .ok (setupContext token, .adminDeleteUser username)

/-! ### The objects -/

/-- The role a user is shown with. -/
def roleJson (role : UserRole) : JsonValue := .string (if role = .admin then "admin" else "user")

/-- A user in the object of `login` or of `admin_list_users`. -/
def userJson (user : UserInfo) : JsonValue :=
  .object [("username", .string user.username), ("role", roleJson user.role)]

/-- A node in the object of `list_nodes`. -/
def nodeJson (n : NodeInfo) : JsonValue :=
  .object
    [("id", .string n.nodeId), ("hostname", .string n.hostname), ("ip", .string n.ipAddress),
      ("status", .string (if n.status = .online then "online" else "offline")),
      ("resources", .object
        [("cpu_cores", .uint64 n.availableResources.cpuCores.toUInt64),
          ("ram_mb", .uint64 n.availableResources.ramMb)])]

/-- A job in the object of `list_jobs`. -/
def jobJson (j : JobInfo) : JsonValue :=
  .object
    [("job_id", .string j.jobId), ("username", .string j.username),
      ("status", .int64 (Int64.ofInt j.status.toInt)),
      ("submitted_at", .int64 (Int64.ofInt j.submittedAt)),
      ("spec", .object [("name", .string j.spec.name), ("command", .string j.spec.command)]),
      ("assigned_node_id", .string j.assignedNodeId)]

/-- A request in the object of `admin_list_requests`. -/
def requestJson (r : JobRequest) : JsonValue :=
  .object
    [("request_id", .string r.requestId), ("applicant_name", .string r.applicantName),
      ("applicant_email", .string r.applicantEmail), ("project_goal", .string r.projectGoal),
      ("status", .int64 (Int64.ofInt r.status.toInt)),
      ("submitted_at", .int64 (Int64.ofInt r.submittedAt)),
      ("requested_spec", .object
        [("resources", .object
          [("cpu_cores", .uint64 r.requestedSpec.resources.cpuCores.toUInt64),
            ("ram_mb", .uint64 r.requestedSpec.resources.ramMb)])])]

/-- The object of a success. -/
def succeeds (more : JsonObject) : JsonObject := ("success", .bool true) :: more

/-- The object of `login`. -/
def loginReply : Reply → JsonObject
  | .authToken t =>
    succeeds [("access_token", .string t.accessToken), ("user", userJson t.user)]
  | .error status => failure status.message
  | _ => failure ""

/-- The object of `list_nodes`. -/
def nodesReply : Reply → JsonObject
  | .nodes ns => succeeds [("nodes", .array (ns.map nodeJson))]
  | .error status => failure status.message
  | _ => failure ""

/-- The object of `list_jobs`. -/
def jobsReply : Reply → JsonObject
  | .jobs r => succeeds [("jobs", .array (r.jobs.map jobJson))]
  | .error status => failure status.message
  | _ => failure ""

/-- The object of `submit_job`. -/
def submitJobReply : Reply → JsonObject
  | .jobInfo info => succeeds [("job_id", .string info.jobId)]
  | .error status => failure status.message
  | _ => failure ""

/-- The object of `get_cluster_status`; there is no reply that it could be made of. -/
def clusterReply : Reply → JsonObject
  | .error status => failure status.message
  | _ => failure ""

/-- The object of `cancel_job`, which has a message in any case. -/
def cancelReply : Reply → JsonObject
  | .status res => [("success", .bool res.success), ("message", .string res.message)]
  | .error status => failure status.message
  | _ => failure ""

/-- The object of `admin_list_requests`. -/
def requestsReply : Reply → JsonObject
  | .requests rs => succeeds [("requests", .array (rs.map requestJson))]
  | .error status => failure status.message
  | _ => failure ""

/-- The object of `create_user`. -/
def createUserReply : Reply → JsonObject
  | .userInfo user => succeeds [("username", .string user.username)]
  | .error status => failure status.message
  | _ => failure ""

/-- The object of `admin_list_users`. -/
def usersReply : Reply → JsonObject
  | .users us => succeeds [("users", .array (us.map userJson))]
  | .error status => failure status.message
  | _ => failure ""

/-- **What a method makes of the reply.** -/
def answer : BridgeCall → Reply → JsonObject
  | .login _ => loginReply
  | .submitPublicRequest request => publicRequestReply request
  | .updateRequestArchive .. => statusReply fun _ => []
  | .getClusterStatus _ => clusterReply
  | .listNodes _ => nodesReply
  | .listJobs _ => jobsReply
  | .submitJob .. => submitJobReply
  | .cancelJob .. => cancelReply
  | .adminListRequests _ => requestsReply
  | .adminReviewRequest .. => statusReply fun res => [("message", .string res.message)]
  | .adminListUsers _ => usersReply
  | .createUser .. => createUserReply
  | .adminDeleteUser .. => statusReply fun _ => []

/-! ### A call of the bridge -/

/-- **A method of the bridge**, as it runs on the thread of the gateway. -/
def perform (P : Platform Db Fs) (call : BridgeCall) : MasterProg (Except String JsonObject) :=
  match message L call with
  | .error what => return .error what
  | .ok (metadata, rpc) => (fun reply => .ok (answer call reply)) <$> serve P metadata rpc

variable (P : Platform Db Fs)

/-! The methods that were modelled for a single route are these. -/

theorem perform_submitPublicRequest (request : JobRequest) :
    perform L P (.submitPublicRequest request) = Except.ok <$> submitPublicRequest P request :=
  (Prog.map_map _ _ _).symm

theorem perform_updateRequestArchive (reqId archivePath : String) :
    perform L P (.updateRequestArchive reqId archivePath) =
      Except.ok <$> updateRequestArchive P reqId archivePath :=
  (Prog.map_map _ _ _).symm

theorem perform_adminReviewRequest (token reqId : String) (approve : Bool) (comment : String) :
    perform L P (.adminReviewRequest token reqId approve comment) =
      Except.ok <$> adminReviewRequest P token reqId approve comment :=
  (Prog.map_map _ _ _).symm

end GrpcBridge

end CertOS
