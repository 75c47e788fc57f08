import CertOS.Gateway.Web
import CertOS.Interleave.Paths
import CertOS.Master.Authorisation

/-!
# What a web client can do

A request comes to one route or to none, the route to one call of the bridge, and the call
to one handler of the master (`CertOS.RestRoutes.Routed`, `CertOS.GrpcBridge.message`). So
the operations that a thread of the gateway performs on the master are those of this
handler, and what a web client can change is a short table, with the request that it takes
(`CertOS.WebWrites`): he can submit jobs of one core and in the name that his token claims,
cancel jobs, create accounts, ask for computing time, upload to a request and review one.
Everything else he does behind the gateway leaves it as it is
(`CertOS.web_client_writes`).
-/

namespace CertOS

open Interleave

/-! ### Routes -/

namespace RestRoutes

/-- **The call a request is routed to**, with what is read from the request for it. -/
inductive Routed (L : JsonLibrary) (req : HttpRequest) : BridgeCall → Prop
  | login (hm : req.method = .post) (hp : normPath req = "/api/v1/auth/login".toList)
      {body : JsonObject} (hb : parseBody L req = .ok body) : Routed L req (.login body)
  | submitPublicRequest (hm : req.method = .post)
      (hp : normPath req = "/api/v1/public/request".toList) {request : JobRequest}
      (hr : parsePublicRequest L req.body = .ok request) :
    Routed L req (.submitPublicRequest request)
  | updateRequestArchive (h : IsUpload req) {reqId : String}
      (hid : substr (normPath req) 22 (lengthTo "/upload" 22 (normPath req)) = .ok reqId) :
    Routed L req (.updateRequestArchive reqId (uploadPath reqId))
  | getClusterStatus (hm : req.method = .get) (hp : normPath req = "/api/v1/cluster".toList) :
    Routed L req (.getClusterStatus (bearerToken req))
  | listNodes (hm : req.method = .get) (hp : normPath req = "/api/v1/nodes".toList) :
    Routed L req (.listNodes (bearerToken req))
  | listJobs (hm : req.method = .get) (hp : normPath req = "/api/v1/jobs".toList) :
    Routed L req (.listJobs (bearerToken req))
  | submitJob (hm : req.method = .post) (hp : normPath req = "/api/v1/jobs".toList)
      {body : JsonObject} (hb : parseBody L req = .ok body) :
    Routed L req (.submitJob (bearerToken req) body)
  | cancelJob (hm : req.method = .delete) {jobId : String}
      (hp : normPath req = "/api/v1/jobs/".toList ++ jobId.toList) :
    Routed L req (.cancelJob (bearerToken req) jobId)
  | adminListRequests (hm : req.method = .get)
      (hp : normPath req = "/api/v1/admin/requests".toList) :
    Routed L req (.adminListRequests (bearerToken req))
  | adminReviewRequest (h : IsReview req) {reqId comment : String} {approve : Bool}
      (hid : substr (normPath req) 24 (lengthTo "/review" 24 (normPath req)) = .ok reqId)
      (hb : parseReview L req = .ok (approve, comment)) :
    Routed L req (.adminReviewRequest (bearerToken req) reqId approve comment)
  | adminListUsers (hm : req.method = .get) (hp : normPath req = "/api/v1/admin/users".toList) :
    Routed L req (.adminListUsers (bearerToken req))
  | createUser (hm : req.method = .post) (hp : normPath req = "/api/v1/admin/users".toList)
      {body : JsonObject} (hb : parseBody L req = .ok body) :
    Routed L req (.createUser (bearerToken req) body)
  | adminDeleteUser (hm : req.method = .delete) {username : String}
      (hp : normPath req = "/api/v1/admin/users/".toList ++ username.toList) :
    Routed L req (.adminDeleteUser (bearerToken req) username)

variable {L : JsonLibrary} {req : HttpRequest} {call : BridgeCall}

/-- A route that reads the request and calls the bridge. -/
theorem calls_respondTo {α : Type} {read : Except String α} {f : α → BridgeCall} :
    (respondTo read f).Calls (.bridge call) ↔ ∃ a, read = .ok a ∧ f a = call := by
  cases read with
  | error what => simp [respondTo]
  | ok a => simp [respondTo]

/-- The upload tells the master where the file is, and calls nothing else. -/
theorem routed_of_upload (hu : IsUpload req) (h : (upload L req).Calls (.bridge call)) :
    Routed L req call := by
  rw [upload] at h
  cases hid : substr (normPath req) 22 (lengthTo "/upload" 22 (normPath req)) with
  | error what =>
    rw [hid] at h
    exact absurd h Prog.not_calls_ret
  | ok reqId =>
    rw [hid] at h
    rcases calls_storeUpload.mp h with ho | ho | ho | ho
    · cases ho
    · cases ho
    · cases ho
    · cases ho
      exact .updateRequestArchive hu hid

theorem routed_of_review (hv : IsReview req) (h : (review L req).Calls (.bridge call)) :
    Routed L req call := by
  rw [review] at h
  cases hid : substr (normPath req) 24 (lengthTo "/review" 24 (normPath req)) with
  | error what =>
    rw [hid] at h
    exact absurd h Prog.not_calls_ret
  | ok reqId =>
    rw [hid] at h
    obtain ⟨decision, hb, rfl⟩ := calls_respondTo.mp h
    exact .adminReviewRequest hv hid hb

/-- The rest of a path behind its start. -/
theorem eq_append_of_substr {head : String} {rest : String} {path : List Char}
    (hs : startsWith head path = true) (hlen : path.length < 2 ^ 64)
    (h : substr path head.toList.length Text.npos = .ok rest) :
    path = head.toList ++ rest.toList := by
  obtain ⟨t, rfl⟩ := Text.find_eq_zero.mp (of_decide_eq_true hs)
  rw [substr_append rfl] at h
  obtain rfl := Except.ok.inj h
  rw [List.length_append] at hlen
  rw [String.toList_ofList, List.take_of_length_le (by rw [Text.npos]; omega)]

/-- **The routes**: a request comes to no call of the bridge but the one it is routed to. -/
theorem routed_of_calls (h : (apiRoutes L req).Calls (.bridge call)) : Routed L req call := by
  have hlen := length_normPath_lt req
  rw [apiRoutes] at h
  rcases Prog.calls_ite.mp h with ⟨hr, h⟩ | ⟨-, h⟩
  · obtain ⟨body, hb, rfl⟩ := calls_respondTo.mp h
    exact .login hr.1 hr.2 hb
  rcases Prog.calls_ite.mp h with ⟨hr, h⟩ | ⟨-, h⟩
  · obtain ⟨request, hb, rfl⟩ := calls_respondTo.mp h
    exact .submitPublicRequest hr.1 hr.2 hb
  rcases Prog.calls_ite.mp h with ⟨hr, h⟩ | ⟨-, h⟩
  · exact routed_of_upload ⟨hr.1, hr.2.1, hr.2.2⟩ h
  rcases Prog.calls_ite.mp h with ⟨hr, h⟩ | ⟨-, h⟩
  · cases calls_respond.mp h
    exact .getClusterStatus hr.1 hr.2
  rcases Prog.calls_ite.mp h with ⟨hr, h⟩ | ⟨-, h⟩
  · cases calls_respond.mp h
    exact .listNodes hr.1 hr.2
  rcases Prog.calls_ite.mp h with ⟨hr, h⟩ | ⟨-, h⟩
  · cases calls_respond.mp h
    exact .listJobs hr.1 hr.2
  rcases Prog.calls_ite.mp h with ⟨hr, h⟩ | ⟨-, h⟩
  · obtain ⟨body, hb, rfl⟩ := calls_respondTo.mp h
    exact .submitJob hr.1 hr.2 hb
  rcases Prog.calls_ite.mp h with ⟨hr, h⟩ | ⟨-, h⟩
  · obtain ⟨jobId, hid, rfl⟩ := calls_respondTo.mp h
    exact .cancelJob hr.1 (eq_append_of_substr hr.2 hlen hid)
  rcases Prog.calls_ite.mp h with ⟨hr, h⟩ | ⟨-, h⟩
  · cases calls_respond.mp h
    exact .adminListRequests hr.1 hr.2
  rcases Prog.calls_ite.mp h with ⟨hr, h⟩ | ⟨-, h⟩
  · exact routed_of_review ⟨hr.1, hr.2.1, hr.2.2⟩ h
  rcases Prog.calls_ite.mp h with ⟨hr, h⟩ | ⟨-, h⟩
  · cases calls_respond.mp h
    exact .adminListUsers hr.1 hr.2
  rcases Prog.calls_ite.mp h with ⟨hr, h⟩ | ⟨-, h⟩
  · obtain ⟨body, hb, rfl⟩ := calls_respondTo.mp h
    exact .createUser hr.1 hr.2 hb
  rcases Prog.calls_ite.mp h with ⟨hr, h⟩ | ⟨-, h⟩
  · obtain ⟨username, hid, rfl⟩ := calls_respondTo.mp h
    exact .adminDeleteUser hr.1 (eq_append_of_substr hr.2 hlen hid)
  · exact absurd h Prog.not_calls_ret

end RestRoutes

/-! ### Messages -/

namespace GrpcBridge

variable {L : BridgeJson} {token : String} {body : JsonObject} {metadata : Metadata} {rpc : Rpc}

theorem message_login_inv (h : message L (.login body) = .ok (metadata, rpc)) :
    ∃ username password, rpc = .login username password := by
  obtain ⟨rpc', hrpc, h⟩ := exists_of_bind_eq_ok h
  obtain ⟨username, -, hrpc⟩ := exists_of_bind_eq_ok hrpc
  obtain ⟨password, -, hrpc⟩ := exists_of_bind_eq_ok hrpc
  cases h
  cases hrpc
  exact ⟨username, password, rfl⟩

theorem message_submitJob_inv (h : message L (.submitJob token body) = .ok (metadata, rpc)) :
    metadata = setupContext token ∧ ∃ name command, optionalString L body "name" = .ok name ∧
      optionalString L body "command" = .ok command ∧
      rpc = .submitJob
        { name := name, command := command, resources := { cpuCores := 1, ramMb := 1024 } } := by
  obtain ⟨rpc', hrpc, h⟩ := exists_of_bind_eq_ok h
  obtain ⟨name, hname, hrpc⟩ := exists_of_bind_eq_ok hrpc
  obtain ⟨command, hcommand, hrpc⟩ := exists_of_bind_eq_ok hrpc
  cases h
  cases hrpc
  exact ⟨rfl, name, command, hname, hcommand, rfl⟩

theorem message_createUser_inv (h : message L (.createUser token body) = .ok (metadata, rpc)) :
    ∃ request, createUserMessage L body = .ok (.createUser request) ∧
      rpc = .createUser request := by
  obtain ⟨rpc', hrpc, h⟩ := exists_of_bind_eq_ok h
  cases h
  have hmessage := hrpc
  obtain ⟨username, -, hrpc⟩ := exists_of_bind_eq_ok hrpc
  obtain ⟨username', -, hrpc⟩ := exists_of_bind_eq_ok hrpc
  obtain ⟨password, -, hrpc⟩ := exists_of_bind_eq_ok hrpc
  obtain ⟨password', -, hrpc⟩ := exists_of_bind_eq_ok hrpc
  obtain ⟨role, -, hrpc⟩ := exists_of_bind_eq_ok hrpc
  obtain ⟨role', -, hrpc⟩ := exists_of_bind_eq_ok hrpc
  cases hrpc
  exact ⟨_, hmessage, rfl⟩

end GrpcBridge

/-! ### Calls of the master -/

section Calls

variable {Db Fs : Type} {L : BridgeJson} {P : Platform Db Fs} {nodeId workDir webRoot : String}
  {req : HttpRequest} {metadata : Metadata} {rpc : Rpc}

/-- A call that a request makes is that of the route it comes to. -/
theorem MakesCall.routed (h : MakesCall L webRoot req metadata rpc) :
    ∃ call, RestRoutes.Routed L.toJsonLibrary req call ∧
      GrpcBridge.message L call = .ok (metadata, rpc) := by
  obtain ⟨prog, call, hhandle, hcalls, hmessage⟩ := h
  rw [RestRoutes.handle] at hhandle
  split_ifs at hhandle
  cases hhandle
  exact ⟨call, RestRoutes.routed_of_calls hcalls, hmessage⟩

/-- **What a request comes to behind the gateway** are operations of the master, in the handler
of a call that it makes. -/
theorem makesCall_of_calls {op : ClusterOp}
    (h : ((web L P nodeId workDir webRoot).body (.http req)).Calls (.cluster op)) :
    ∃ metadata rpc o, MakesCall L webRoot req metadata rpc ∧ op = .master o ∧
      (rpc.handle P.json metadata).Calls o := by
  have h' : (Web.handleRequest L P webRoot req).Calls (.cluster op) := Prog.calls_map.mp h
  rw [Web.handleRequest] at h'
  cases hhandle : RestRoutes.handle L.toJsonLibrary webRoot req with
  | staticFile prog =>
    rw [hhandle] at h'
    obtain ⟨o, ho, -⟩ := (Prog.calls_map.mp h').of_embed
    cases ho
  | options =>
    rw [hhandle] at h'
    exact absurd h' Prog.not_calls_ret
  | api prog =>
    rw [hhandle] at h'
    obtain ⟨o, ho, hop⟩ := (Prog.calls_map.mp h').of_handle
    have hown {o' : WebOp} (hne : o' ≠ .cluster op) : ¬ (Prog.op o' : WebProg _).Calls
        (.cluster op) := fun hc => by
      rcases Prog.calls_call.mp hc with heq | ⟨r, hret⟩
      · exact hne heq
      · exact Prog.not_calls_ret hret
    cases o with
    | createDirectories dir => exact absurd hop (hown (fun h => by cases h))
    | openFile path => exact absurd hop (hown (fun h => by cases h))
    | writeFile path data => exact absurd hop (hown (fun h => by cases h))
    | bridge call =>
      obtain ⟨o₁, hop₁, hc₁⟩ := Prog.Calls.of_embed hop
      obtain ⟨o₂, rfl, hc₂⟩ := Prog.Calls.of_embed hc₁
      cases hop₁
      rw [GrpcBridge.perform] at hc₂
      cases hmessage : GrpcBridge.message L call with
      | error what =>
        rw [hmessage] at hc₂
        exact absurd hc₂ Prog.not_calls_ret
      | ok message =>
        obtain ⟨metadata, rpc⟩ := message
        rw [hmessage] at hc₂
        dsimp only at hc₂
        rw [serve_eq_handle, Prog.calls_map] at hc₂
        exact ⟨metadata, rpc, o₂, ⟨prog, call, hhandle, ho, hmessage⟩, rfl, hc₂⟩

end Calls

/-! ### What a handler writes -/

/-- The operation may store something. -/
def MasterOp.mayWrite : MasterOp → Bool
  | .job (.getJob _) | .job (.listJobs _) | .job (.getJobsToCancelForNode _)
  | .node .getAllNodes | .node (.getNode _)
  | .store (.getKv _) | .store .listRequests | .now | .rand => false
  | _ => true

/-- The other operations leave the state as it is. -/
theorem exec_of_not_mayWrite {Fs : Type} {P : Platform Tables Fs} {E : SqlEngine}
    (hP : P.store = sqlStore E) {e : Env} {op : MasterOp} {s : MasterState Tables Fs}
    (h : op.mayWrite = false) : (s.exec P e op).2 = s := by
  cases op with
  | job o =>
    cases o with
    | getJob | listJobs | getJobsToCancelForNode => rfl
    | _ => cases h
  | node o =>
    cases o with
    | getAllNodes | getNode => rfl
    | _ => cases h
  | store o =>
    simp only [MasterState.exec_store, hP, sqlStore]
    cases o with
    | getKv | listRequests => rfl
    | _ => cases h
  | applyDecay => cases h
  | now => rfl
  | rand => rfl

/-- The calls whose handlers store nothing. -/
def Rpc.readsOnly : Rpc → Bool
  | .login .. | .listJobs _ | .listNodes | .adminListUsers | .adminDeleteUser _
  | .adminListRequests | .unimplemented _ => true
  | _ => false

theorem not_mayWrite_of_readsOnly {rpc : Rpc} {op : MasterOp} (h : rpc.readsOnly = true)
    (hop : rpc.mayDo op = true) : op.mayWrite = false := by
  cases rpc with
  | login username password =>
    cases op with
    | store o =>
      cases o with
      | getKv k => rfl
      | _ => cases hop
    | _ => cases hop
  | listJobs statusFilter =>
    cases op with
    | job o =>
      cases o with
      | listJobs f => rfl
      | _ => cases hop
    | _ => cases hop
  | listNodes =>
    cases op with
    | node o =>
      cases o with
      | getAllNodes => rfl
      | _ => cases hop
    | _ => cases hop
  | adminListUsers =>
    cases op with
    | store o =>
      cases o with
      | getKv k => rfl
      | _ => cases hop
    | _ => cases hop
  | adminListRequests =>
    cases op with
    | store o =>
      cases o with
      | listRequests => rfl
      | _ => cases hop
    | _ => cases hop
  | adminDeleteUser userId => cases hop
  | unimplemented method => cases hop
  | _ => cases h

/-- **What web clients can change**, and with which requests. -/
inductive WebWrites (L : BridgeJson) (req : HttpRequest) : MasterOp → Prop
  /-- `POST /api/v1/jobs`: a job of one core, in the name that the token claims. -/
  | submitJob (hm : req.method = .post)
      (hp : RestRoutes.normPath req = "/api/v1/jobs".toList) {body : JsonObject}
      (hb : RestRoutes.parseBody L.toJsonLibrary req = .ok body) {name command : String}
      (hname : GrpcBridge.optionalString L body "name" = .ok name)
      (hcommand : GrpcBridge.optionalString L body "command" = .ok command) {user : String}
      (huser : user = MasterService.callerName
        (GrpcBridge.setupContext (RestRoutes.bearerToken req))) :
    WebWrites L req (.job (.submitJob
      { name := name, command := command, resources := { cpuCores := 1, ramMb := 1024 } }
      user user))
  /-- `DELETE /api/v1/jobs/<id>`: the job is cancelled. -/
  | cancelJob (hm : req.method = .delete) {jobId : String}
      (hp : RestRoutes.normPath req = "/api/v1/jobs/".toList ++ jobId.toList) :
    WebWrites L req (.job (.cancelJob jobId))
  /-- `POST /api/v1/admin/users`: the two entries of an account, and the account list. -/
  | createUser (hm : req.method = .post)
      (hp : RestRoutes.normPath req = "/api/v1/admin/users".toList) {body : JsonObject}
      (hb : RestRoutes.parseBody L.toJsonLibrary req = .ok body) {request : CreateUserRequest}
      (hr : GrpcBridge.createUserMessage L body = .ok (.createUser request)) {k v : String}
      (hk : (k = "user:" ++ request.username ∧ v = request.password) ∨
        (k = "role:" ++ request.username ∧ v = MasterService.roleName request.role) ∨
        (k = "system:user_list" ∧ ∃ userList, v = userList ++ "," ++ request.username)) :
    WebWrites L req (.store (.setKv k v))
  /-- `POST /api/v1/public/request`: a pending request. -/
  | submitPublicRequest (hm : req.method = .post)
      (hp : RestRoutes.normPath req = "/api/v1/public/request".toList) {request : JobRequest}
      (hr : RestRoutes.parsePublicRequest L.toJsonLibrary req.body = .ok request)
      {id data : String} :
    WebWrites L req (.store (.addJobRequest id request.applicantEmail
      JobRequestStatus.pending.toInt data))
  /-- `POST /api/v1/public/request/<id>/upload`: a request is written back. -/
  | upload (h : RestRoutes.IsUpload req) {id data : String} {status : ℤ} :
    WebWrites L req (.store (.updateRequestStatus id status data))
  /-- `POST /api/v1/admin/requests/<id>/review`: a request is written back. -/
  | review (h : RestRoutes.IsReview req) {id data : String} {status : ℤ} :
    WebWrites L req (.store (.updateRequestStatus id status data))
  /-- The same, with an approval: a job is submitted. -/
  | approve (h : RestRoutes.IsReview req) {comment : String}
      (hb : RestRoutes.parseReview L.toJsonLibrary req = .ok (true, comment)) {spec : JobSpec}
      {username : String} :
    WebWrites L req (.job (.submitJob spec "public-user" username))

section Handlers

variable {J : JsonCodec} {q : MasterOp → Prop}

theorem only_createUser (request : CreateUserRequest)
    (h : ∀ k v, ((k = "user:" ++ request.username ∧ v = request.password) ∨
      (k = "role:" ++ request.username ∧ v = MasterService.roleName request.role) ∨
      (k = "system:user_list" ∧ ∃ userList, v = userList ++ "," ++ request.username)) →
      q (.store (.setKv k v))) (hread : ∀ op, op.mayWrite = false → q op) :
    (MasterService.createUser request).Only q := by
  have hget (k : String) : q (.store (.getKv k)) := hread _ rfl
  have hnow : q .now := hread _ rfl
  refine .op_bind (hget _) fun existing => ?_
  split
  · trivial
  · refine .op_bind (h _ _ (Or.inl ⟨rfl, rfl⟩)) fun _ => ?_
    refine .op_bind (h _ _ (Or.inr (Or.inl ⟨rfl, rfl⟩))) fun _ => ?_
    refine .op_bind (hget _) fun list => ?_
    dsimp only
    split
    · refine .op_bind (h _ _ (Or.inr (Or.inr ⟨rfl, _, rfl⟩))) fun _ => ?_
      exact .op_bind hnow fun _ => trivial
    · exact .op_bind hnow fun _ => trivial

theorem only_submitPublicRequest_email (request : JobRequest)
    (h : ∀ id data, q (.store (.addJobRequest id request.applicantEmail
      JobRequestStatus.pending.toInt data))) (hread : ∀ op, op.mayWrite = false → q op) :
    (MasterService.submitPublicRequest J request).Only q := by
  have hstore (now : ℤ) (id : String) : (MasterService.storeRequest J now request id).Only q := by
    rw [MasterService.storeRequest]
    dsimp only
    split
    · trivial
    · refine .op_bind (h _ _) fun stored => ?_
      split <;> trivial
  refine .op_bind (hread _ rfl) fun now => ?_
  split
  · exact .op_bind (hread _ rfl) fun r => hstore _ _
  · exact hstore _ _

theorem only_adminReviewRequest (v : ReviewRequest)
    (hsubmit : ∀ spec username, v.approve = true →
      q (.job (.submitJob spec "public-user" username)))
    (hupdate : ∀ id status data, q (.store (.updateRequestStatus id status data)))
    (hread : ∀ op, op.mayWrite = false → q op) : (MasterService.adminReviewRequest J v).Only q := by
  refine .op_bind (hread _ rfl) fun requests => ?_
  rw [MasterService.reviewFound]
  split
  · trivial
  · split
    · trivial
    · refine .op_bind (hread _ rfl) fun now => ?_
      split
      · rename_i happrove
        exact .op_bind (hsubmit _ _ happrove) fun _ =>
          MasterService.only_storeReview _ _ fun _ _ => hupdate _ _ _
      · exact MasterService.only_storeReview _ _ fun _ _ => hupdate _ _ _

/-- **A handler that a web client calls writes what the table says.** -/
theorem only_webWrites {L : BridgeJson} {webRoot : String} {req : HttpRequest}
    {metadata : Metadata} {rpc : Rpc} (h : MakesCall L webRoot req metadata rpc) :
    (rpc.handle J metadata).Only fun op => op.mayWrite = true → WebWrites L req op := by
  have hread (op : MasterOp) (hop : op.mayWrite = false) (hw : op.mayWrite = true) :
      WebWrites L req op := by
    rw [hop] at hw
    cases hw
  have hreader (hr : rpc.readsOnly = true) :
      (rpc.handle J metadata).Only fun op => op.mayWrite = true → WebWrites L req op :=
    (rpc.only_mayDo J metadata).mono fun op hop => hread op (not_mayWrite_of_readsOnly hr hop)
  obtain ⟨call, hrouted, hmessage⟩ := h.routed
  cases hrouted with
  | login =>
    obtain ⟨username, password, rfl⟩ := GrpcBridge.message_login_inv hmessage
    exact hreader rfl
  | submitPublicRequest hm hp hr =>
    cases hmessage
    exact Prog.only_map.mpr
      (only_submitPublicRequest_email _ (fun id data _ => .submitPublicRequest hm hp hr) hread)
  | updateRequestArchive hu =>
    cases hmessage
    exact Prog.only_map.mpr (.op_bind (hread _ rfl) fun requests =>
      MasterService.only_updateFound _ _ fun _ _ _ _ => .upload hu)
  | getClusterStatus =>
    cases hmessage
    exact hreader rfl
  | listNodes =>
    cases hmessage
    exact hreader rfl
  | listJobs =>
    cases hmessage
    exact hreader rfl
  | submitJob hm hp hb =>
    obtain ⟨rfl, name, command, hname, hcommand, rfl⟩ := GrpcBridge.message_submitJob_inv hmessage
    refine Prog.only_map.mpr (.op_bind (fun _ => .submitJob hm hp hb hname hcommand rfl) ?_)
    intro jobId
    refine .op_bind (hread _ rfl) fun jobOpt => ?_
    cases jobOpt <;> trivial
  | cancelJob hm hp =>
    cases hmessage
    exact Prog.only_map.mpr (.op_bind (fun _ => .cancelJob hm hp) fun _ => trivial)
  | adminListRequests =>
    cases hmessage
    exact hreader rfl
  | adminReviewRequest hv hid hb =>
    cases hmessage
    refine Prog.only_map.mpr (only_adminReviewRequest _ (fun spec username happrove _ => ?_)
      (fun _ _ _ _ => .review hv) hread)
    obtain rfl := happrove
    exact .approve hv hb
  | adminListUsers =>
    cases hmessage
    exact hreader rfl
  | createUser hm hp hb =>
    obtain ⟨request, hr, rfl⟩ := GrpcBridge.message_createUser_inv hmessage
    exact Prog.only_map.mpr
      (only_createUser request (fun k v hk _ => .createUser hm hp hb hr hk) hread)
  | adminDeleteUser =>
    cases hmessage
    exact hreader rfl

end Handlers

/-- **What a web client can do**: in every run of gateway, master and agent, a step of the
thread of a request changes nothing behind the gateway, or it is a write of the master
that the table has for this request. The write of an account whose name and password stay
in their SQL literals makes one entry. -/
theorem web_client_writes {Fs : Type} {L : BridgeJson} {P : Platform Tables Fs} {E : SqlEngine}
    {nodeId workDir webRoot : String} (hP : P.store = sqlStore E)
    {ok : WebConfig Tables Fs → WebEvent → Prop} {db : Option Tables} {adminDb : Tables}
    {fairShare : Fs} {es : List WebEvent} {c c' : WebConfig Tables Fs} {i : ℕ}
    {req : HttpRequest} {e : WebEnv} {op : WebOp} {r : op.Res}
    (h : (web L P nodeId workDir webRoot).Run ok (webStart db adminDb fairShare) es c)
    (hs : (web L P nodeId workDir webRoot).Step c (.did i (.http req) e op r) c') :
    c'.state = c.state ∨ ∃ o, op = .cluster (.master o) ∧ WebWrites L req o ∧
      ∀ k v, o = .store (.setKv k v) → o.contained = true →
        c'.state.master = { c.state.master with adminDb := { c.state.master.adminDb with
          kvStore := if e.cluster.master.sqliteOk = true then
              c.state.master.adminDb.kvStore.insert (collapse k) (collapse v)
            else c.state.master.adminDb.kvStore } } := by
  have hcalls := ((h.mono fun _ _ _ => trivial).snoc trivial hs).calls_of_mem rfl
    (List.mem_append_right _ List.mem_cons_self)
  obtain ⟨k, -, hr, rfl⟩ := hs.did_inv
  cases op with
  | cluster op =>
    obtain ⟨metadata, rpc, o, hmakes, rfl, hc⟩ := makesCall_of_calls hcalls
    cases hw : o.mayWrite with
    | true =>
      refine Or.inr ⟨o, rfl, (only_webWrites hmakes).of_calls hc hw, ?_⟩
      rintro k v rfl hcontained
      exact exec_setKv_of_contained hP hcontained _
    | false =>
      refine Or.inl ?_
      have hsame : (c.state.master.exec P e.cluster.master o).2 = c.state.master :=
        exec_of_not_mayWrite hP hw
      change { c.state with master := (c.state.master.exec P e.cluster.master o).2 } = c.state
      rw [hsame]
  | _ => exact Or.inl rfl

/-- The visitor's platform on SQLite. -/
def visitorsSqlPlatform : Platform Tables Unit := { sqlPlatform with json := visitorsCodec }

/-- The step of a request stores a row. -/
def storesRow (k : String) : WebEvent × WebConfig Tables Unit → Bool
  | (.did _ (.http _) _ _ _, c) => (c.state.master.adminDb.jobRequests.lookup k).isSome
  | _ => false

/-- The law at work: the last step of the visitor's request stores a row. -/
theorem web_client_writes_visitor : ∃ es c c' i req e op r,
    (web visitorsJson visitorsSqlPlatform "node-00000000" "/work" "web").Run (fun _ _ => True)
        (webStart none {} ()) es c ∧
      (web visitorsJson visitorsSqlPlatform "node-00000000" "/work" "web").Step c
        (.did i (.http req) e op r) c' ∧
      c.state.master.adminDb.jobRequests.lookup "req-100-0" = none ∧
      (c'.state.master.adminDb.jobRequests.lookup "req-100-0").isSome = true ∧
      ∃ o, op = .cluster (.master o) ∧ WebWrites visitorsJson req o := by
  obtain ⟨es, c, hrun, hc⟩ := System.exists_run
    (S := web visitorsJson visitorsSqlPlatform "node-00000000" "/work" "web")
    (g := fun _ _ => true) (c := webStart none {} ())
    (p := fun c => (c.state.master.adminDb.jobRequests.lookup "req-100-0").isNone &&
      ((web visitorsJson visitorsSqlPlatform "node-00000000" "/work" "web").move c
        (.move 0 { cluster := { master := { now := 100 } } })).any (storesRow "req-100-0"))
    (visitorsSchedule.take 3) (by decide +kernel)
  obtain ⟨hnone, hmove⟩ := (Bool.and_eq_true _ _).mp hc
  obtain ⟨ev, c', hs, hrow⟩ := System.exists_step _ hmove
  cases ev with
  | start t => cases hrow
  | did i t e op r =>
    cases t with
    | inside t => cases hrow
    | http req =>
      have hrun' : (web visitorsJson visitorsSqlPlatform "node-00000000" "/work" "web").Run
          (fun _ _ => True) (webStart none {} ()) es c := hrun.mono fun _ _ _ => trivial
      have hnone' := Option.isNone_iff_eq_none.mp hnone
      refine ⟨es, c, c', i, req, e, op, r, hrun', hs, hnone', hrow, ?_⟩
      rcases web_client_writes rfl hrun' hs with hsame | ⟨o, hop, hwrites, -⟩
      · change (c'.state.master.adminDb.jobRequests.lookup "req-100-0").isSome = true at hrow
        rw [hsame, hnone'] at hrow
        cases hrow
      · exact ⟨o, hop, hwrites⟩

end CertOS
