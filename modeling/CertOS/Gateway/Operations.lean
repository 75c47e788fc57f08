import CertOS.Gateway.GrpcBridge
import CertOS.Interleave.Prog

/-!
# The operations of the gateway

A handler of the gateway is a program over what it asks of others: the file system,
for an upload, and the bridge. The answers are not the gateway's, and an operation may
throw; so what can be said of a handler is which operations it comes to, for some
answers to those before them (`Interleave.Prog.Calls`).
-/

namespace CertOS

open Interleave

/-- The methods of requests. -/
inductive HttpMethod where
  | get
  | post
  | put
  | delete
  | options
  /-- A method the gateway does not mention. -/
  | other (name : String)
  deriving DecidableEq

/-- A request, as far as the handlers read it. A character of the target is a byte of it. -/
structure HttpRequest where
  method : HttpMethod
  target : String
  /-- The value of the header `Authorization`. -/
  authorization : Option String := none
  body : String := ""
  /-- The target is in memory. -/
  size : target.length < 2 ^ 64

/-- A call of the bridge. -/
inductive BridgeCall where
  | login (body : JsonObject)
  | submitPublicRequest (request : JobRequest)
  | updateRequestArchive (reqId archivePath : String)
  | getClusterStatus (token : String)
  | listNodes (token : String)
  | listJobs (token : String)
  | submitJob (token : String) (body : JsonObject)
  | cancelJob (token jobId : String)
  | adminListRequests (token : String)
  | adminReviewRequest (token reqId : String) (approve : Bool) (comment : String)
  | adminListUsers (token : String)
  | createUser (token : String) (body : JsonObject)
  | adminDeleteUser (token username : String)

/-- An operation of the gateway. A path is what the operating system gets. -/
inductive GatewayOp where
  /-- `fs::create_directories`. -/
  | createDirectories (dir : String)
  /-- `std::ofstream`. -/
  | openFile (path : String)
  /-- `write` and `close` of the stream. -/
  | writeFile (path data : String)
  | bridge (call : BridgeCall)

/-- What an operation answers. -/
@[reducible] def GatewayOp.Res : GatewayOp → Type
  | .createDirectories _ => Except String Unit
  | .openFile _ => Bool
  | .writeFile .. => Unit
  | .bridge _ => Except String JsonObject

/-- A handler of the gateway. -/
abbrev GatewayProg := Prog GatewayOp.Res

namespace GatewayCall

/-- `fs::create_directories`. -/
def createDirectories (dir : String) : GatewayProg (Except String Unit) :=
  Prog.op (GatewayOp.createDirectories dir)

/-- `std::ofstream`, which takes its path as a C string. -/
def openFile (path : String) : GatewayProg Bool := Prog.op (GatewayOp.openFile (cStr path))

/-- `write` and `close`. -/
def writeFile (path data : String) : GatewayProg Unit :=
  Prog.op (GatewayOp.writeFile (cStr path) data)

/-- A call of the bridge. -/
def bridge (call : BridgeCall) : GatewayProg (Except String JsonObject) :=
  Prog.op (GatewayOp.bridge call)

end GatewayCall

end CertOS
