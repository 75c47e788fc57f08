import CertOS.Gateway.Json
import CertOS.Master.Server

/-!
# The gateway's calls to the master

`GrpcBridge` turns a call of the web client into a call of the master and its reply into
a JSON object. A call that the gateway makes is the handler of the master that it
reaches, on the thread that waits for the reply.
-/

namespace CertOS

variable {Db Fs : Type}

namespace GrpcBridge

/-- The JSON object for a call that was not answered with `OK`, or whose answer says that
it did not succeed. -/
def failure (error : String) : JsonObject := [("success", .bool false), ("error", .string error)]

/-- What `submit_public_request` makes of the reply of the master. The identifier is that
of the message it has sent. -/
def publicRequestReply (request : JobRequest) : Reply → JsonObject
  | .status res =>
    if res.success then
      [("success", .bool true), ("request_id", .string request.requestId),
        ("message", .string res.message)]
    else failure res.message
  | .error status => failure status.message
  | _ => failure ""

/-- `submit_public_request`. -/
def submitPublicRequest (P : Platform Db Fs) (request : JobRequest) : MasterProg JsonObject :=
  publicRequestReply request <$> serve P [] (.submitPublicRequest request)

/-- `setup_context`: the metadata of a call on behalf of the holder of a token. -/
def setupContext (token : String) : Metadata :=
  if token = "" then [] else [("authorization", "Bearer " ++ token)]

/-- What the other methods that get a `StatusResponse` make of the reply; `more` is what
they add to the object of a success. -/
def statusReply (more : StatusResponse → JsonObject) : Reply → JsonObject
  | .status res => if res.success then ("success", .bool true) :: more res else failure res.message
  | .error status => failure status.message
  | _ => failure ""

/-- `update_request_archive`. -/
def updateRequestArchive (P : Platform Db Fs) (reqId archivePath : String) :
    MasterProg JsonObject :=
  statusReply (fun _ => []) <$> serve P []
    (.updateJobRequest { requestId := reqId, requestedSpec := { archivePath := archivePath } })

/-- `admin_review_request`. -/
def adminReviewRequest (P : Platform Db Fs) (token reqId : String) (approve : Bool)
    (comment : String) : MasterProg JsonObject :=
  statusReply (fun res => [("message", .string res.message)]) <$> serve P (setupContext token)
    (.adminReviewRequest { requestId := reqId, approve := approve, comment := comment })

end GrpcBridge

end CertOS
