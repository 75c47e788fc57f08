import CertOS.Gateway.Operations

/-!
# The routes of the gateway

`RestRoutes::handle` selects a route by method and path, and answers with a JSON object;
an exception on the way is caught and answered as an internal error. First is the route
by which a visitor asks for computing time, `POST /api/v1/public/request`, as it runs
together with the master (`CertOS.RestRoutes.publicRequest`). Then come all routes, as
programs over the operations of the gateway (`CertOS.RestRoutes.apiRoutes`).
-/

namespace CertOS

open Interleave

variable {Db Fs : Type}

/-- The statuses of the responses. -/
inductive HttpStatus where
  | ok
  | notFound
  | internalServerError
  deriving DecidableEq

/-- A response, less its headers. -/
structure HttpResponse where
  status : HttpStatus
  body : JsonObject

namespace RestRoutes

/-- The response to an exception. -/
def internalError (what : String) : HttpResponse where
  status := .internalServerError
  body := GrpcBridge.failure ("Internal error: " ++ what)

variable (L : JsonLibrary)

/-- The container image a request names, if it names one. -/
def readContainer (body : JsonObject) : Except String String :=
  if body.contains "container" then (body.get "container").asString L else .ok ""

/-- The request in the body of `POST /api/v1/public/request`. The numbers go through
`int32_t`; a signed product that overflows, which C++ leaves undefined, wraps around. -/
def readPublicRequest (body : JsonObject) : Except String JobRequest := do
  let name ← (body.get "name").asString L
  let email ← (body.get "email").asString L
  let goal ← (body.get "goal").asString L
  let cpu ← (body.get "cpu").asInt64 L
  let ram ← (body.get "ram").asInt64 L
  let time ← (body.get "time").asInt64 L
  let container ← readContainer L body
  return {
    applicantName := name
    applicantEmail := email
    projectGoal := goal
    requestedSpec :=
      { name := "Public Request: " ++ name
        resources :=
          { cpuCores := cpu.toInt32.toUInt32
            ramMb := (ram * 1024).toInt32.toInt64.toUInt64 }
        timeLimitSeconds := (time * 3600).toInt32.toUInt32
        containerImage := container } }

/-- The request in a text, if the route accepts it. -/
def parsePublicRequest (text : String) : Except String JobRequest := do
  let value ← L.parse text
  let body ← value.asObject L
  readPublicRequest L body

/-- `POST /api/v1/public/request`. -/
def publicRequest (P : Platform Db Fs) (text : String) : MasterProg HttpResponse :=
  match parsePublicRequest L text with
  | .error what => return internalError what
  | .ok request => do
    let json ← GrpcBridge.submitPublicRequest P request
    return { status := .ok, body := json }

/-! ### What the routes read from a request -/

/-- The token of a request: what its header carries after `Bearer`. -/
def bearerToken (req : HttpRequest) : String :=
  match req.authorization with
  | none => ""
  | some val =>
    if Text.find "Bearer ".toList val.toList = some 0 then String.ofList (val.toList.drop 7) else ""

/-- The path of a request, less a slash at its end. -/
def normPath (req : HttpRequest) : List Char :=
  let path := req.target.toList
  if 1 < path.length ∧ path.getLast? = some '/' then path.dropLast else path

/-- `norm_path.find(head) == 0`. -/
def startsWith (head : String) (path : List Char) : Bool :=
  Text.find head.toList path = some 0

/-- `norm_path.find(mark) != npos`. -/
def mentions (mark : String) (path : List Char) : Bool := (Text.find mark.toList path).isSome

/-- `norm_path.substr(start, n)`. -/
def substr (path : List Char) (start n : ℕ) : Except String String :=
  match Text.substr path start n with
  | some piece => .ok (String.ofList piece)
  | none => .error ("basic_string::substr: __pos (which is " ++ toString start ++
      ") > this->size() (which is " ++ toString path.length ++ ")")

/-- The length of the piece of a path from `start` to the first `mark`, as it is computed. -/
def lengthTo (mark : String) (start : ℕ) (path : List Char) : ℕ :=
  Text.sizeSub ((Text.find mark.toList path).getD Text.npos) start

/-- The object in the body of a request. -/
def parseBody (req : HttpRequest) : Except String JsonObject := do
  let value ← L.parse req.body
  value.asObject L

/-- The decision and the comment in the body of a review. -/
def parseReview (req : HttpRequest) : Except String (Bool × String) := do
  let body ← parseBody L req
  let approve ← (body.get "approve").asBool L
  let comment ← (body.get "comment").asString L
  return (approve, comment)

/-! ### The routes -/

/-- The response with the object that a call of the bridge returns. -/
def respond (call : BridgeCall) : GatewayProg HttpResponse := do
  let answer ← GatewayCall.bridge call
  match answer with
  | .error what => return internalError what
  | .ok json => return { status := .ok, body := json }

/-- A route that reads the request before it calls the bridge. -/
def respondTo {α : Type} (read : Except String α) (call : α → BridgeCall) :
    GatewayProg HttpResponse :=
  match read with
  | .error what => return internalError what
  | .ok a => respond (call a)

/-- The directory of the uploads. -/
def uploadDir : String := "./uploads"

/-- The file an upload is stored in. -/
def uploadPath (reqId : String) : String := uploadDir ++ "/" ++ reqId ++ ".tar.gz"

/-- The response to an upload, from the object that `update_request_archive` returns. -/
def uploadReply (updateRes : JsonObject) : HttpResponse :=
  match (updateRes.get "success").asBool L with
  | .error what => internalError what
  | .ok false =>
    { status := .ok, body := [("success", .bool false), ("error", updateRes.get "error")] }
  | .ok true =>
    { status := .ok
      body := [("success", .bool true),
        ("message", .string "File uploaded and linked successfully")] }

/-- The last step of the upload: the file is named to the master. -/
def linkUpload (reqId : String) : GatewayProg HttpResponse := do
  let answer ← GatewayCall.bridge (.updateRequestArchive reqId (uploadPath reqId))
  match answer with
  | .error what => return internalError what
  | .ok updateRes => return uploadReply L updateRes

/-- The steps of the upload, once the identifier is cut out of the path. -/
def storeUpload (req : HttpRequest) (reqId : String) : GatewayProg HttpResponse := do
  let made ← GatewayCall.createDirectories uploadDir
  match made with
  | .error what => return internalError what
  | .ok () =>
    let opened ← GatewayCall.openFile (uploadPath reqId)
    if opened then
      GatewayCall.writeFile (uploadPath reqId) req.body
      linkUpload L reqId
    else return internalError "Could not open file for writing"

/-- `POST /api/v1/public/request/<id>/upload`. The offset is meant to be the length of what
stands before the identifier. -/
def upload (req : HttpRequest) : GatewayProg HttpResponse :=
  match substr (normPath req) 22 (lengthTo "/upload" 22 (normPath req)) with
  | .error what => return internalError what
  | .ok reqId => storeUpload L req reqId

/-- `POST /api/v1/admin/requests/<id>/review`. -/
def review (req : HttpRequest) : GatewayProg HttpResponse :=
  match substr (normPath req) 24 (lengthTo "/review" 24 (normPath req)) with
  | .error what => return internalError what
  | .ok reqId => respondTo (parseReview L req) fun decision =>
      .adminReviewRequest (bearerToken req) reqId decision.1 decision.2

/-- The response where there is no route. -/
def routeNotFound (req : HttpRequest) : HttpResponse where
  status := .notFound
  body := GrpcBridge.failure ("Route not found: " ++ String.ofList (normPath req))

/-- **The routes** under `/api/`, in the order in which they are tried. -/
def apiRoutes (req : HttpRequest) : GatewayProg HttpResponse :=
  let path := normPath req
  let token := bearerToken req
  if req.method = .post ∧ path = "/api/v1/auth/login".toList then
    respondTo (parseBody L req) .login
  else if req.method = .post ∧ path = "/api/v1/public/request".toList then
    respondTo (parsePublicRequest L req.body) .submitPublicRequest
  else if req.method = .post ∧ startsWith "/api/v1/public/request/" path ∧
      mentions "/upload" path then
    upload L req
  else if req.method = .get ∧ path = "/api/v1/cluster".toList then
    respond (.getClusterStatus token)
  else if req.method = .get ∧ path = "/api/v1/nodes".toList then
    respond (.listNodes token)
  else if req.method = .get ∧ path = "/api/v1/jobs".toList then
    respond (.listJobs token)
  else if req.method = .post ∧ path = "/api/v1/jobs".toList then
    respondTo (parseBody L req) (.submitJob token)
  else if req.method = .delete ∧ startsWith "/api/v1/jobs/" path then
    respondTo (substr path 13 Text.npos) (.cancelJob token)
  else if req.method = .get ∧ path = "/api/v1/admin/requests".toList then
    respond (.adminListRequests token)
  else if req.method = .post ∧ startsWith "/api/v1/admin/requests/" path ∧
      mentions "/review" path then
    review L req
  else if req.method = .get ∧ path = "/api/v1/admin/users".toList then
    respond (.adminListUsers token)
  else if req.method = .post ∧ path = "/api/v1/admin/users".toList then
    respondTo (parseBody L req) (.createUser token)
  else if req.method = .delete ∧ startsWith "/api/v1/admin/users/" path then
    respondTo (substr path 20 Text.npos) (.adminDeleteUser token)
  else return routeNotFound req

/-! ### What a route comes to -/

variable {L} {req : HttpRequest} {o : GatewayOp}

/-- A call of the bridge whose answer is returned is all a route comes to. -/
theorem calls_bridge {call : BridgeCall} {k : Except String JsonObject → GatewayProg HttpResponse}
    (hk : ∀ answer, ¬ (k answer).Calls o) :
    (GatewayCall.bridge call >>= k).Calls o ↔ .bridge call = o := by
  rw [GatewayCall.bridge, Prog.op_bind, Prog.calls_call]
  refine ⟨fun h => ?_, Or.inl⟩
  rcases h with h | ⟨answer, h⟩
  · exact h
  · exact absurd h (hk answer)

@[simp] theorem calls_respond {call : BridgeCall} : (respond call).Calls o ↔ .bridge call = o :=
  calls_bridge fun answer => by
    cases answer with
    | error what => exact Prog.not_calls_ret
    | ok json => exact Prog.not_calls_ret

theorem calls_linkUpload {reqId : String} : (linkUpload L reqId).Calls o ↔
    .bridge (.updateRequestArchive reqId (uploadPath reqId)) = o :=
  calls_bridge fun answer => by
    cases answer with
    | error what => exact Prog.not_calls_ret
    | ok updateRes => exact Prog.not_calls_ret

/-- **What an upload comes to**: the directory, the file, and the call of the bridge. -/
theorem calls_storeUpload {reqId : String} : (storeUpload L req reqId).Calls o ↔
    .createDirectories uploadDir = o ∨ .openFile (cStr (uploadPath reqId)) = o ∨
      .writeFile (cStr (uploadPath reqId)) req.body = o ∨
      .bridge (.updateRequestArchive reqId (uploadPath reqId)) = o := by
  rw [storeUpload, GatewayCall.createDirectories, Prog.op_bind, Prog.calls_call]
  refine or_congr_right ⟨?_, fun h => ⟨.ok (), ?_⟩⟩
  · rintro ⟨made, h⟩
    cases made with
    | error what => exact absurd h Prog.not_calls_ret
    | ok u =>
      dsimp only at h
      rw [GatewayCall.openFile, Prog.op_bind, Prog.calls_call] at h
      refine h.imp_right ?_
      rintro ⟨opened, h⟩
      cases opened with
      | false => exact absurd h Prog.not_calls_ret
      | true =>
        rw [if_pos rfl, GatewayCall.writeFile, Prog.op_bind, Prog.calls_call] at h
        refine h.imp_right ?_
        rintro ⟨u, h⟩
        exact calls_linkUpload.mp h
  · dsimp only
    rw [GatewayCall.openFile, Prog.op_bind, Prog.calls_call]
    refine h.imp_right fun h => ⟨true, ?_⟩
    rw [if_pos rfl, GatewayCall.writeFile, Prog.op_bind, Prog.calls_call]
    exact h.imp_right fun h => ⟨(), calls_linkUpload.mpr h⟩

theorem substr_append {pre s : List Char} {start n : ℕ} (h : pre.length = start) :
    substr (pre ++ s) start n = .ok (String.ofList (s.take n)) := by
  subst h
  have hle : pre.length ≤ (pre ++ s).length := by simp
  rw [substr, Text.substr, if_pos hle, List.drop_left]

theorem length_normPath_lt (req : HttpRequest) : (normPath req).length < 2 ^ 64 := by
  have hsize := req.size
  rw [← String.length_toList] at hsize
  rw [normPath]
  split
  · rw [List.length_dropLast]
    omega
  · exact hsize

/-- No path starts in two ways that differ. -/
theorem startsWith_inj {head head' : String} {path : List Char} (h : startsWith head path = true)
    (h' : startsWith head' path = true) :
    head.toList <+: head'.toList ∨ head'.toList <+: head.toList :=
  List.prefix_or_prefix_of_prefix (Text.find_eq_zero.mp (of_decide_eq_true h))
    (Text.find_eq_zero.mp (of_decide_eq_true h'))

theorem ne_of_startsWith {head : String} {p q : List Char} (h : startsWith head p = true)
    (h' : startsWith head q = false) : p ≠ q := by
  rintro rfl
  rw [h] at h'
  cases h'

/-- **The requests that reach the upload.** -/
structure IsUpload (req : HttpRequest) : Prop where
  method : req.method = .post
  start : startsWith "/api/v1/public/request/" (normPath req) = true
  mark : mentions "/upload" (normPath req) = true

/-- **The requests that reach the review.** -/
structure IsReview (req : HttpRequest) : Prop where
  method : req.method = .post
  start : startsWith "/api/v1/admin/requests/" (normPath req) = true
  mark : mentions "/review" (normPath req) = true

theorem apiRoutes_of_isUpload (h : IsUpload req) : apiRoutes L req = upload L req := by
  have hlogin := ne_of_startsWith h.start (q := "/api/v1/auth/login".toList) (by decide)
  have hrequest := ne_of_startsWith h.start (q := "/api/v1/public/request".toList) (by decide)
  rw [apiRoutes, if_neg fun hc => hlogin hc.2, if_neg fun hc => hrequest hc.2,
    if_pos ⟨h.method, h.start, h.mark⟩]

theorem apiRoutes_of_isReview (h : IsReview req) : apiRoutes L req = review L req := by
  have hlogin := ne_of_startsWith h.start (q := "/api/v1/auth/login".toList) (by decide)
  have hrequest := ne_of_startsWith h.start (q := "/api/v1/public/request".toList) (by decide)
  have hjobs := ne_of_startsWith h.start (q := "/api/v1/jobs".toList) (by decide)
  have hupload : ¬ startsWith "/api/v1/public/request/" (normPath req) = true := fun hs =>
    absurd (startsWith_inj h.start hs) (by decide)
  have hget : req.method ≠ .get := by
    rw [h.method]
    decide
  have hdelete : req.method ≠ .delete := by
    rw [h.method]
    decide
  rw [apiRoutes, if_neg fun hc => hlogin hc.2, if_neg fun hc => hrequest hc.2,
    if_neg fun hc => hupload hc.2.1, if_neg fun hc => hget hc.1, if_neg fun hc => hget hc.1,
    if_neg fun hc => hget hc.1, if_neg fun hc => hjobs hc.2, if_neg fun hc => hdelete hc.1,
    if_neg fun hc => hget hc.1, if_pos ⟨h.method, h.start, h.mark⟩]

end RestRoutes

end CertOS
