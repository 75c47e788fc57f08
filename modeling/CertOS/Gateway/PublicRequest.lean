import CertOS.Gateway.RestRoutes
import CertOS.Master.Requests

/-!
# The reply to a public request

A visitor submits a request, and the reply tells the identifier under which the request
is stored; the upload of the program that goes with it names that identifier. The
identifier is made up by the master, in a copy of the message, and is returned to the
gateway as the text of the reply. The gateway takes the identifier from the message that
it has sent, where it is still empty.

What the master does with a request is said once, in
`CertOS.GrpcBridge.run_submitPublicRequest`. The reply of the bridge identifies the row
if the caller has supplied the identifier
(`CertOS.GrpcBridge.reply_identifies_iff`), which the route never does; so the reply of the
route identifies no row that is ever stored (`CertOS.RestRoutes.identifies_iff`).
-/

namespace CertOS

open Interleave

variable {Fs : Type} {P : Platform Tables Fs}

/-! ### Rows and replies -/

/-- **The row is inserted**: there was none under this key, and now there is one. -/
def Inserted (k : String) (s s' : MasterState Tables Fs) : Prop :=
  s.adminDb.jobRequests.lookup k = none ∧ (s'.adminDb.jobRequests.lookup k).isSome = true

namespace JsonObject

/-- The reply says that the call succeeded. -/
def succeeded (json : JsonObject) : Bool := (json.get "success").isTrue

/-- The identifier in the reply. -/
def requestId (json : JsonObject) : Option String := (json.get "request_id").string?

end JsonObject

/-- **The reply identifies the request**: if it says success, the identifier it names is
the key of the row that was inserted. -/
def Identifies (json : JsonObject) (s s' : MasterState Tables Fs) : Prop :=
  json.succeeded = true → ∃ k, json.requestId = some k ∧ Inserted k s s'

/-! ### What the master does -/

namespace GrpcBridge

/-- The identifier a request is stored under. -/
def givenId (e : ℕ → Env) (request : JobRequest) : String :=
  if request.requestId = "" then
    "req-" ++ toString (e 0).now ++ "-" ++ toString ((e 1).rand % 1000)
  else request.requestId

/-- The request as it is stored. -/
def stamped (e : ℕ → Env) (request : JobRequest) : JobRequest :=
  { request with requestId := givenId e request, submittedAt := (e 0).now, status := .pending }

/-- The environment of the insertion: a request that comes without an identifier takes one
more step. -/
def atInsertion (e : ℕ → Env) (request : JobRequest) : Env :=
  if request.requestId = "" then e 2 else e 1

/-- **The request can be stored**: it has a JSON text, SQLite carries out the insertion,
and there is no row under its identifier. -/
def Storable (P : Platform Tables Fs) (e : ℕ → Env) (s : MasterState Tables Fs)
    (request : JobRequest) : Prop :=
  (P.json.print (stamped e request)).isSome = true ∧ (atInsertion e request).sqliteOk = true ∧
    s.adminDb.jobRequests.lookup (cStr (givenId e request)) = none

/-- The state after a row was inserted. -/
def withRow (k : String) (row : RequestRow) (s : MasterState Tables Fs) : MasterState Tables Fs :=
  { s with adminDb := { s.adminDb with jobRequests := s.adminDb.jobRequests.insert k row } }

theorem inserted_withRow {k k' : String} {row : RequestRow} {s : MasterState Tables Fs}
    (h : s.adminDb.jobRequests.lookup k = none) : Inserted k' s (withRow k row s) ↔ k' = k := by
  have hl : (withRow k row s).adminDb.jobRequests.lookup k' =
      if k' = k then some row else s.adminDb.jobRequests.lookup k' :=
    Table.lookup_insert _ _ _ _
  constructor
  · rintro ⟨hnone, hsome⟩
    by_contra hne
    rw [hl, if_neg hne, hnone] at hsome
    cases hsome
  · rintro rfl
    refine ⟨h, ?_⟩
    rw [hl, if_pos rfl]
    rfl

/-- The last steps of `SubmitPublicRequest` when they store the request. -/
theorem run_storeRequest (hP : P.store = idealStore) {now : ℤ} {request : JobRequest}
    {id data : String} {e : ℕ → Env} {s : MasterState Tables Fs}
    (hdata : P.json.print { request with requestId := id, submittedAt := now, status := .pending } =
      some data)
    (hok : (e 0).sqliteOk = true) (hnew : s.adminDb.jobRequests.lookup (cStr id) = none) :
    (MasterService.storeRequest P.json now request id).run (MasterState.exec P) e s =
      ({ success := true, message := id },
        withRow (cStr id) ⟨cStr request.applicantEmail, 0, cStr data⟩ s) := by
  rw [MasterService.storeRequest]
  dsimp only
  rw [hdata]
  dsimp only
  rw [Call.addJobRequest, Prog.op_bind, Prog.run_call, MasterState.exec_store, hP]
  simp [idealStore, StateStore.addJobRequest, hok, hnew, withRow, JobRequestStatus.toInt]

/-- The last steps of `SubmitPublicRequest` when they do not. -/
theorem run_storeRequest_of_not (hP : P.store = idealStore) {now : ℤ} {request : JobRequest}
    {id : String} {e : ℕ → Env} {s : MasterState Tables Fs}
    (h : ¬ ((P.json.print
          { request with requestId := id, submittedAt := now, status := .pending }).isSome = true ∧
        (e 0).sqliteOk = true ∧ s.adminDb.jobRequests.lookup (cStr id) = none)) :
    ((MasterService.storeRequest P.json now request id).run (MasterState.exec P) e s).1.success =
      false := by
  rw [MasterService.storeRequest]
  dsimp only
  cases hdata : P.json.print
      { request with requestId := id, submittedAt := now, status := .pending } with
  | none => rfl
  | some data =>
    have hnot : ¬ ((e 0).sqliteOk = true ∧ s.adminDb.jobRequests.lookup (cStr id) = none) :=
      fun hstore => h ⟨by rw [hdata]; rfl, hstore⟩
    dsimp only
    rw [Call.addJobRequest, Prog.op_bind, Prog.run_call, MasterState.exec_store, hP]
    simp [idealStore, StateStore.addJobRequest, hnot]

/-- The steps of the handler up to the last ones give the request its time and its
identifier. -/
theorem run_handler (request : JobRequest) (e : ℕ → Env) (s : MasterState Tables Fs) :
    ∃ e' : ℕ → Env, e' 0 = atInsertion e request ∧
      (MasterService.submitPublicRequest P.json request).run (MasterState.exec P) e s =
        (MasterService.storeRequest P.json (e 0).now request (givenId e request)).run
          (MasterState.exec P) e' s := by
  rw [MasterService.submitPublicRequest, Call.now, Prog.op_bind, Prog.run_call, givenId,
    atInsertion]
  by_cases h : request.requestId = ""
  · rw [if_pos h, if_pos h, if_pos h]
    exact ⟨fun n => e (n + 2), rfl, rfl⟩
  · rw [if_neg h, if_neg h, if_neg h]
    exact ⟨fun n => e (n + 1), rfl, rfl⟩

/-- The call of the bridge is the handler, and its reply in JSON. -/
theorem run_submitPublicRequest (request : JobRequest) (e : ℕ → Env)
    (s : MasterState Tables Fs) :
    (submitPublicRequest P request).run (MasterState.exec P) e s =
      (publicRequestReply request (.status
          ((MasterService.submitPublicRequest P.json request).run (MasterState.exec P) e s).1),
        ((MasterService.submitPublicRequest P.json request).run (MasterState.exec P) e s).2) := by
  rw [submitPublicRequest, serve_eq_handle, Prog.run_map, Rpc.handle, Prog.run_map]

/-- **A request that can be stored** is stored, and the reply names the identifier it came
with. -/
theorem run_of_storable (hP : P.store = idealStore) {request : JobRequest} {e : ℕ → Env}
    {s : MasterState Tables Fs} (h : Storable P e s request) :
    ∃ row, (submitPublicRequest P request).run (MasterState.exec P) e s =
      ([("success", .bool true), ("request_id", .string request.requestId),
          ("message", .string (givenId e request))],
        withRow (cStr (givenId e request)) row s) := by
  obtain ⟨hdata, hok, hnew⟩ := h
  obtain ⟨data, hdata⟩ := Option.isSome_iff_exists.mp hdata
  obtain ⟨e', he', hrun⟩ := run_handler (P := P) request e s
  rw [run_submitPublicRequest, hrun, run_storeRequest hP hdata (he' ▸ hok) hnew]
  exact ⟨_, rfl⟩

/-- A request that cannot be stored is answered with a failure. -/
theorem run_of_not_storable (hP : P.store = idealStore) {request : JobRequest} {e : ℕ → Env}
    {s : MasterState Tables Fs} (h : ¬ Storable P e s request) :
    ((submitPublicRequest P request).run (MasterState.exec P) e s).1.succeeded = false := by
  obtain ⟨e', he', hrun⟩ := run_handler (P := P) request e s
  rw [Storable, ← he'] at h
  have hfail := run_storeRequest_of_not hP (e := e') h
  rw [run_submitPublicRequest, hrun, publicRequestReply, hfail]
  rfl

/-- **The reply of the bridge** identifies the row if and only if the request is not
stored, or came with an identifier that the database keeps as it is. -/
theorem reply_identifies_iff (hP : P.store = idealStore) (request : JobRequest) (e : ℕ → Env)
    (s : MasterState Tables Fs) :
    Identifies ((submitPublicRequest P request).run (MasterState.exec P) e s).1 s
        ((submitPublicRequest P request).run (MasterState.exec P) e s).2 ↔
      (Storable P e s request → cStr (givenId e request) = request.requestId) := by
  by_cases hst : Storable P e s request
  · obtain ⟨row, hrun⟩ := run_of_storable hP hst
    rw [hrun]
    constructor
    · intro h _
      obtain ⟨k, hk, hins⟩ := h rfl
      obtain rfl : request.requestId = k := Option.some.inj hk
      exact ((inserted_withRow hst.2.2).mp hins).symm
    · intro h _
      exact ⟨request.requestId, rfl, (inserted_withRow hst.2.2).mpr (h hst).symm⟩
  · refine iff_of_true (fun hsucc => ?_) fun h => absurd h hst
    rw [run_of_not_storable hP hst] at hsucc
    cases hsucc

/-- A made-up identifier is not empty, nor becomes so in the database. -/
theorem cStr_givenId_ne_empty {e : ℕ → Env} {request : JobRequest} (h : request.requestId = "") :
    cStr (givenId e request) ≠ "" := by
  intro hempty
  have hlist := congrArg String.toList hempty
  rw [givenId, if_pos h, cStr, String.toList_ofList, String.append_assoc, String.append_assoc,
    String.toList_append] at hlist
  cases hlist

end GrpcBridge

/-! ### The route -/

namespace RestRoutes

/-- The route does not give its request an identifier. -/
theorem requestId_of_parse {L : JsonLibrary} {text : String} {request : JobRequest}
    (h : parsePublicRequest L text = .ok request) : request.requestId = "" := by
  obtain ⟨value, -, h⟩ := exists_of_bind_eq_ok h
  obtain ⟨body, -, h⟩ := exists_of_bind_eq_ok h
  obtain ⟨name, -, h⟩ := exists_of_bind_eq_ok h
  obtain ⟨email, -, h⟩ := exists_of_bind_eq_ok h
  obtain ⟨goal, -, h⟩ := exists_of_bind_eq_ok h
  obtain ⟨cpu, -, h⟩ := exists_of_bind_eq_ok h
  obtain ⟨ram, -, h⟩ := exists_of_bind_eq_ok h
  obtain ⟨time, -, h⟩ := exists_of_bind_eq_ok h
  obtain ⟨container, -, h⟩ := exists_of_bind_eq_ok h
  cases h
  rfl

/-- **The reply to a public request** identifies the row it has inserted if and only if the
request cannot be stored, that is, never when there is a row. -/
theorem identifies_iff (hP : P.store = idealStore) {L : JsonLibrary} {text : String}
    {request : JobRequest} (hread : parsePublicRequest L text = .ok request) (e : ℕ → Env)
    (s : MasterState Tables Fs) :
    Identifies ((publicRequest L P text).run (MasterState.exec P) e s).1.body s
        ((publicRequest L P text).run (MasterState.exec P) e s).2 ↔
      ¬ GrpcBridge.Storable P e s request := by
  have hprog : publicRequest L P text =
      (fun json => { status := .ok, body := json : HttpResponse }) <$>
        GrpcBridge.submitPublicRequest P request := by
    rw [publicRequest, hread]
    rfl
  have hid := requestId_of_parse hread
  rw [hprog, Prog.run_map, GrpcBridge.reply_identifies_iff hP]
  refine imp_congr_right fun _ => ?_
  rw [hid]
  exact iff_false_intro (GrpcBridge.cStr_givenId_ne_empty hid)

end RestRoutes

/-! ### A visitor's request -/

/-- The text of a request. -/
def visitorsText : String :=
  "\x7b\"name\":\"Ann\",\"email\":\"ann@example.org\",\"goal\":\"thesis\",\"cpu\":1,\"ram\":2,\"time\":3\x7d"

/-- The library, known at this text. -/
def visitorsLibrary : JsonLibrary where
  parse text :=
    if text = visitorsText then
      .ok (.object [("name", .string "Ann"), ("email", .string "ann@example.org"),
        ("goal", .string "thesis"), ("cpu", .int64 1), ("ram", .int64 2), ("time", .int64 3)])
    else .error "syntax error [boost.json:1]"
  notObject := "value is not an object [boost.json:31]"
  notString := "value is not a string [boost.json:32]"
  notInt64 := "value is not a std::int64_t number [boost.json:34]"
  notBool := "value is not a bool [boost.json:29]"

/-- The request that the gateway reads from it. -/
def visitorsRequest : JobRequest where
  applicantName := "Ann"
  applicantEmail := "ann@example.org"
  projectGoal := "thesis"
  requestedSpec :=
    { name := "Public Request: Ann"
      resources := { cpuCores := 1, ramMb := 2048 }
      timeLimitSeconds := 10800 }

theorem parse_visitorsText :
    RestRoutes.parsePublicRequest visitorsLibrary visitorsText = .ok visitorsRequest := by
  rfl

/-- The conversions, known at the request as the master stamps it at time 100. -/
def visitorsCodec : JsonCodec := tableCodec
  [({ visitorsRequest with requestId := "req-100-0", submittedAt := 100 },
    "\x7b\"requestId\":\"req-100-0\",\"applicantName\":\"Ann\",\"applicantEmail\":\"ann@example.org\",\"projectGoal\":\"thesis\",\"requestedSpec\":\x7b\"name\":\"Public Request: Ann\",\"resources\":\x7b\"cpuCores\":1,\"ramMb\":\"2048\"\x7d,\"timeLimitSeconds\":10800\x7d,\"submittedAt\":\"100\"\x7d")]

/-- The ideal store with these conversions. -/
def visitorsPlatform : Platform Tables Unit := { barePlatform with json := visitorsCodec }

/-- The law at work: the request can be stored in an empty table, so the reply does not
identify its row. -/
theorem identifies_iff_visitor :
    ¬ Identifies
      ((RestRoutes.publicRequest visitorsLibrary visitorsPlatform visitorsText).run
        (MasterState.exec visitorsPlatform) (fun _ => { now := 100 })
        (masterStart none {} ()).state).1.body
      (masterStart none {} ()).state
      ((RestRoutes.publicRequest visitorsLibrary visitorsPlatform visitorsText).run
        (MasterState.exec visitorsPlatform) (fun _ => { now := 100 })
        (masterStart none {} ()).state).2 := by
  have hstorable : GrpcBridge.Storable visitorsPlatform (fun _ => { now := 100 })
      (masterStart none {} ()).state visitorsRequest := by
    refine ⟨by decide, rfl, by decide⟩
  intro h
  exact (RestRoutes.identifies_iff rfl parse_visitorsText _ _).mp h hstorable

/-- **The reply names no row**: the request is stored under `req-100-0`, and the reply says
success and gives the empty identifier. -/
theorem reply_names_no_row :
    let r := (RestRoutes.publicRequest visitorsLibrary visitorsPlatform visitorsText).run
      (MasterState.exec visitorsPlatform) (fun _ => { now := 100 }) (masterStart none {} ()).state
    r.1.body.succeeded = true ∧ r.1.body.requestId = some "" ∧
      (r.2.adminDb.jobRequests.lookup "req-100-0").isSome = true ∧
      (r.2.adminDb.jobRequests.lookup "").isSome = false := by
  decide

end CertOS
