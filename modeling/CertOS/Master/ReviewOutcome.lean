import CertOS.Master.Requests

/-!
# What a review leaves behind

`AdminReviewRequest` does two things for an approval: it submits the job, which cannot be
taken back, and it writes the decision into the stored record. Between the two the record
has to be turned into JSON, and the write may fail; so a review is all or nothing only as
far as these two go well.

If the JSON cannot be produced the handler answers with an error, after the job has been
submitted. If the update is not carried out, or is carried out for another key, the handler
does not notice, since it does not look at what `update_request_status` returns. These are
the only ways in which the law fails (`CertOS.review_all_or_nothing_iff`).
-/

namespace CertOS

open Interleave

variable {Fs : Type} {P : Platform Tables Fs}

/-! ### The law -/

/-- The status a review decides on. -/
def decidedStatus (r : ReviewRequest) : JobRequestStatus :=
  if r.approve then .approved else .rejected

/-- **The record has a status**: its column says so, and so does its JSON. -/
def RecordHas (J : JsonCodec) (k : String) (status : JobRequestStatus) (t : Tables) : Prop :=
  ∃ row req, t.jobRequests.lookup k = some row ∧ row.status = status.toInt ∧
    J.parse row.data = some req ∧ req.status = status

/-- A call of `AdminReviewRequest`. -/
def reviewTask (metadata : Metadata) (r : ReviewRequest) : Task :=
  .rpc metadata (.adminReviewRequest r)

/-- **A review is all or nothing**: if it is answered with success, the stored record has
the decided status; if it is answered with an error, no job was submitted, and the database
is what it was. -/
structure AllOrNothing (P : Platform Tables Fs) (metadata : Metadata) (r : ReviewRequest)
    (e : ℕ → Env) (s : MasterState Tables Fs) : Prop where
  decided : ∀ res : StatusResponse, (runTask P (reviewTask metadata r) e s).1 = .status res →
    res.success = true → RecordHas P.json r.requestId (decidedStatus r)
      (runTask P (reviewTask metadata r) e s).2.adminDb
  nothing : ∀ status, (runTask P (reviewTask metadata r) e s).1 = .error status →
    (∀ op ∈ ((master P).body (reviewTask metadata r)).performed (MasterState.exec P) e s,
      submits op = false) ∧
    (runTask P (reviewTask metadata r) e s).2.adminDb = s.adminDb

/-! ### The condition -/

/-- The request that a review finds, if it finds one that can be read. -/
def foundRequest (P : Platform Tables Fs) (r : ReviewRequest) (e : Env)
    (s : MasterState Tables Fs) : Option JobRequest :=
  let json := MasterService.findRequest r.requestId
    (StateStore.listRequests e.sqliteOk s.adminDb)
  if json = "" then none else P.json.parse json

/-- The environment of the update: an approval has submitted a job before. -/
def atUpdate (e : ℕ → Env) (r : ReviewRequest) : Env := if r.approve then e 3 else e 2

/-- **The review can be completed**: the decided request has a JSON text, or nothing was
submitted; and the update is carried out for the record, unless the record has the status
already. -/
def Completable (P : Platform Tables Fs) (r : ReviewRequest) (e : ℕ → Env)
    (s : MasterState Tables Fs) (req : JobRequest) : Prop :=
  ((P.json.print (MasterService.reviewed (e 1).now r req)).isNone = true → r.approve = false) ∧
  ((P.json.print (MasterService.reviewed (e 1).now r req)).isSome = true →
    ((atUpdate e r).sqliteOk = true ∧ cStr req.requestId = r.requestId) ∨
      RecordHas P.json r.requestId (decidedStatus r) s.adminDb)

section Review

variable {metadata : Metadata} {r : ReviewRequest} {e : ℕ → Env} {s : MasterState Tables Fs}
  {req : JobRequest}

/-! ### What a review does -/

theorem body_reviewTask : (master P).body (reviewTask metadata r) = reviewAt P.json r .reading :=
  master_body_rpc P metadata _

/-- Where a review goes from its read depends on the request it finds. -/
theorem reviewRead_of_found (h : foundRequest P r (e 0) s = some req) :
    reviewRead P.json r (StateStore.listRequests (e 0).sqliteOk s.adminDb) = .deciding req := by
  rw [foundRequest] at h
  rw [reviewRead]
  split at h
  · cases h
  · rename_i hne
    rw [if_neg hne, h]

theorem reviewRead_of_not_found (h : foundRequest P r (e 0) s = none) :
    ∃ status, reviewRead P.json r (StateStore.listRequests (e 0).sqliteOk s.adminDb) =
      .ended (.error status) := by
  rw [foundRequest] at h
  rw [reviewRead]
  split at h
  · rename_i hempty
    exact ⟨_, if_pos hempty⟩
  · rename_i hne
    rw [if_neg hne, h]
    exact ⟨_, rfl⟩

/-- The read, on the ideal store. -/
theorem exec_listRequests (hP : P.store = idealStore) (e : Env) :
    s.exec P e (.store .listRequests) = (StateStore.listRequests e.sqliteOk s.adminDb, s) := by
  simp only [MasterState.exec_store, hP, idealStore]

/-- **A review that finds nothing** is answered with an error, and does nothing else. -/
theorem run_of_not_found (metadata : Metadata) (hP : P.store = idealStore)
    (h : foundRequest P r (e 0) s = none) :
    (∃ status, runTask P (reviewTask metadata r) e s = (.error status, s)) ∧
      ((master P).body (reviewTask metadata r)).performed (MasterState.exec P) e s =
        [.store .listRequests] := by
  obtain ⟨status, hread⟩ := reviewRead_of_not_found h
  rw [runTask, body_reviewTask, reviewAt_reading, Prog.run_call, Prog.performed_call,
    exec_listRequests hP, hread]
  exact ⟨⟨status, rfl⟩, rfl⟩

/-- A review that finds a request comes to its last place; if it approves, it has submitted
the job. -/
theorem run_of_found (metadata : Metadata) (hP : P.store = idealStore)
    (h : foundRequest P r (e 0) s = some req) :
    ∃ (e' : ℕ → Env) (s' : MasterState Tables Fs) (ops : List MasterOp),
      e' 0 = atUpdate e r ∧ s'.adminDb = s.adminDb ∧
      ((∃ op ∈ ops, submits op = true) ↔ r.approve = true) ∧
      runTask P (reviewTask metadata r) e s =
        (reviewAt P.json r (.storing req (e 1).now)).run (MasterState.exec P) e' s' ∧
      ((master P).body (reviewTask metadata r)).performed (MasterState.exec P) e s = ops ++
        (reviewAt P.json r (.storing req (e 1).now)).performed (MasterState.exec P) e' s' := by
  rw [runTask, body_reviewTask, reviewAt_reading, Prog.run_call, Prog.performed_call,
    exec_listRequests hP, reviewRead_of_found h, reviewAt_deciding, Prog.run_call,
    Prog.performed_call, MasterState.exec_now, atUpdate]
  cases happ : r.approve with
  | false =>
    refine ⟨fun n => e (n + 2), s, [.store .listRequests, .now], rfl, rfl, ?_, rfl, rfl⟩
    simp [submits]
  | true =>
    refine ⟨fun n => e (n + 3), (s.exec P (e 2) (.job (.submitJob req.requestedSpec
      "public-user" req.applicantName))).2, [.store .listRequests, .now, .job (.submitJob
      req.requestedSpec "public-user" req.applicantName)], rfl, rfl, ?_, rfl, rfl⟩
    simp [submits]

/-- The last place when the request has no JSON text. -/
theorem run_storing_of_print_eq_none {now : ℤ}
    (h : P.json.print (MasterService.reviewed now r req) = none) :
    (reviewAt P.json r (.storing req now)).run (MasterState.exec P) e s =
      (.error ⟨.internal, "Failed to serialize request"⟩, s) := by
  rw [reviewAt_storing, h]
  rfl

/-- The last place when it has one: the update, and the reply whatever it returns. -/
theorem run_storing_of_print {now : ℤ} {data : String}
    (h : P.json.print (MasterService.reviewed now r req) = some data) :
    (reviewAt P.json r (.storing req now)).run (MasterState.exec P) e s =
      (reviewDone r, (s.exec P (e 0) (.store (.updateRequestStatus req.requestId
        (decidedStatus r).toInt data))).2) := by
  rw [reviewAt_storing, h]
  rfl

/-- **What the update does to the record**: it has the decided status afterwards if the
update was carried out under its key, or it had it before. -/
theorem recordHas_update_iff (hP : P.store = idealStore) (hJ : P.json.Lawful) {e : Env}
    {now : ℤ} {data : String} (hdata : P.json.print (MasterService.reviewed now r req) = some data)
    (hrow : (s.adminDb.jobRequests.lookup r.requestId).isSome = true) :
    RecordHas P.json r.requestId (decidedStatus r) (s.exec P e (.store
        (.updateRequestStatus req.requestId (decidedStatus r).toInt data))).2.adminDb ↔
      (e.sqliteOk = true ∧ cStr req.requestId = r.requestId) ∨
        RecordHas P.json r.requestId (decidedStatus r) s.adminDb := by
  obtain ⟨row, hrow⟩ := Option.isSome_iff_exists.mp hrow
  have hclean : cStr data = data := cStr_of_nul_not_mem (hJ.print_no_nul _ _ hdata)
  simp only [MasterState.exec_store, hP, idealStore, StateStore.updateRequestStatus]
  by_cases hok : e.sqliteOk = true
  · rw [if_pos hok]
    by_cases hid : cStr req.requestId = r.requestId
    · refine iff_of_true ?_ (Or.inl ⟨hok, hid⟩)
      refine ⟨{ row with status := (decidedStatus r).toInt, data := data }, _, ?_, rfl,
        hJ.parse_print _ _ hdata, rfl⟩
      rw [hid, Table.lookup_modify_self, hrow, hclean]
      rfl
    · rw [RecordHas, Table.lookup_modify_of_ne (Ne.symm hid)]
      refine ⟨Or.inr, fun h => h.resolve_left fun hupd => hid hupd.2⟩
  · rw [if_neg hok]
    exact ⟨Or.inr, fun h => h.resolve_left fun hupd => hok hupd.1⟩

/-- A request that was found is in a row. -/
theorem isSome_lookup_of_found (h : foundRequest P r (e 0) s = some req) :
    (s.adminDb.jobRequests.lookup r.requestId).isSome = true := by
  rw [foundRequest] at h
  split at h
  · cases h
  · rename_i hne
    obtain ⟨row, hrow, -⟩ := Option.bind_eq_some_iff.mp (stored_of_findRequest hne h)
    exact Option.isSome_iff_exists.mpr ⟨row, hrow⟩

/-! ### The law and its condition -/

/-- A review that finds nothing does nothing. -/
theorem allOrNothing_of_not_found (metadata : Metadata) (hP : P.store = idealStore)
    (h : foundRequest P r (e 0) s = none) : AllOrNothing P metadata r e s := by
  obtain ⟨⟨status, hrun⟩, hops⟩ := run_of_not_found metadata hP h
  refine ⟨fun res hres => ?_, fun status' _ => ⟨fun op hop => ?_, ?_⟩⟩
  · rw [hrun] at hres
    cases hres
  · rw [hops, List.mem_singleton] at hop
    rw [hop]
    rfl
  · rw [hrun]

/-- If the decided request has no JSON text, the handler answers with an error, and the question
is what it did before. -/
theorem allOrNothing_iff_of_print_eq_none (metadata : Metadata) (hP : P.store = idealStore)
    (h : foundRequest P r (e 0) s = some req)
    (hdata : P.json.print (MasterService.reviewed (e 1).now r req) = none) :
    AllOrNothing P metadata r e s ↔ r.approve = false := by
  obtain ⟨e', s', ops, -, hs', hsub, hrun, hops⟩ := run_of_found metadata hP h
  rw [run_storing_of_print_eq_none hdata] at hrun
  have hlast : (reviewAt P.json r (.storing req (e 1).now)).performed (MasterState.exec P) e'
      s' = [] := by
    rw [reviewAt_storing, hdata]
    rfl
  rw [hlast, List.append_nil] at hops
  constructor
  · intro hall
    obtain ⟨hnone, -⟩ := hall.nothing _ (congrArg Prod.fst hrun)
    rw [← Bool.not_eq_true, ← hsub]
    rintro ⟨op, hop, hsubmits⟩
    rw [hnone op (hops ▸ hop)] at hsubmits
    cases hsubmits
  · intro hrej
    refine ⟨fun res hres => ?_, fun _ _ => ⟨fun op hop => ?_, ?_⟩⟩
    · rw [hrun] at hres
      cases hres
    · by_contra hsubmits
      have happ := hsub.mp ⟨op, hops ▸ hop, Bool.not_eq_false _ ▸ hsubmits⟩
      rw [hrej] at happ
      cases happ
    · rw [hrun]
      exact hs'

/-- If it has one, the handler answers with success, and the question is what the update did. -/
theorem allOrNothing_iff_of_print (metadata : Metadata) (hP : P.store = idealStore)
    (hJ : P.json.Lawful) (h : foundRequest P r (e 0) s = some req) {data : String}
    (hdata : P.json.print (MasterService.reviewed (e 1).now r req) = some data) :
    AllOrNothing P metadata r e s ↔
      ((atUpdate e r).sqliteOk = true ∧ cStr req.requestId = r.requestId) ∨
        RecordHas P.json r.requestId (decidedStatus r) s.adminDb := by
  obtain ⟨e', s', ops, he', hs', -, hrun, -⟩ := run_of_found metadata hP h
  rw [run_storing_of_print hdata, he'] at hrun
  have hrow : (s'.adminDb.jobRequests.lookup r.requestId).isSome = true := by
    rw [hs']
    exact isSome_lookup_of_found h
  have hupdate := recordHas_update_iff (s := s') (e := atUpdate e r) hP hJ hdata hrow
  rw [hs'] at hupdate
  constructor
  · intro hall
    have hrec := hall.decided _ (congrArg Prod.fst hrun) rfl
    rw [hrun] at hrec
    exact hupdate.mp hrec
  · intro hupd
    refine ⟨fun res _ _ => ?_, fun status hstatus => ?_⟩
    · rw [hrun]
      exact hupdate.mpr hupd
    · rw [hrun] at hstatus
      cases hstatus

/-- **A review is all or nothing** if and only if it finds no request, or can be
completed. -/
theorem review_all_or_nothing_iff (hP : P.store = idealStore) (hJ : P.json.Lawful)
    (metadata : Metadata) (r : ReviewRequest) (e : ℕ → Env) (s : MasterState Tables Fs) :
    AllOrNothing P metadata r e s ↔
      ∀ req, foundRequest P r (e 0) s = some req → Completable P r e s req := by
  cases hfound : foundRequest P r (e 0) s with
  | none => exact iff_of_true (allOrNothing_of_not_found metadata hP hfound) (by rintro req ⟨⟩)
  | some req =>
    have hcond : (∀ req', some req = some req' → Completable P r e s req') ↔
        Completable P r e s req := by
      constructor
      · intro h
        exact h req rfl
      · rintro h req' ⟨⟩
        exact h
    rw [hcond, Completable]
    cases hdata : P.json.print (MasterService.reviewed (e 1).now r req) with
    | none =>
      rw [allOrNothing_iff_of_print_eq_none metadata hP hfound hdata]
      constructor
      · intro hrej
        exact ⟨fun _ => hrej, by rintro ⟨⟩⟩
      · rintro ⟨hrej, -⟩
        exact hrej rfl
    | some data =>
      rw [allOrNothing_iff_of_print metadata hP hJ hfound hdata]
      constructor
      · intro hupd
        exact ⟨by rintro ⟨⟩, fun _ => hupd⟩
      · rintro ⟨-, hupd⟩
        exact hupd rfl

end Review

/-! ### Ann's request -/

/-- The law at work: Ann's request is rejected at time 105, and has the status. -/
theorem review_all_or_nothing_ann :
    AllOrNothing annsPlatform [] { requestId := "req-1" } (fun _ => { now := 105 }) annsState := by
  refine (review_all_or_nothing_iff rfl annsCodec_lawful _ _ _ _).mpr fun req hreq => ?_
  have hann : foundRequest annsPlatform { requestId := "req-1" } { now := 105 } annsState =
      some annsRequest := by decide
  obtain rfl := Option.some.inj (hann.symm.trans hreq)
  exact ⟨fun _ => rfl, fun _ => Or.inl ⟨rfl, by decide⟩⟩

/-- An approval of Ann's request. -/
def annsApproval : ReviewRequest := { requestId := "req-1", approve := true }

/-- **A review is neither all nor nothing**: at time 106 the approved request has no JSON
text, and the handler answers with an error when the job is submitted; at time 105 it has
one, but the update fails, and the handler answers with success when the record is still
pending. -/
theorem review_neither_all_nor_nothing :
    ¬ AllOrNothing annsPlatform [] annsApproval (fun _ => { now := 106 }) annsState ∧
    ¬ AllOrNothing annsPlatform [] annsApproval
      (fun n => { now := 105, sqliteOk := decide (n < 3) }) annsState := by
  constructor
  · intro h
    obtain ⟨hnone, -⟩ := h.nothing ⟨.internal, "Failed to serialize request"⟩ (by decide)
    exact absurd (hnone (.job (.submitJob {} "public-user" "")) (by decide)) (by decide)
  · intro h
    obtain ⟨row, req, hrow, hstatus, -⟩ := h.decided
      { success := true, message := "Request approved and job scheduled" } (by decide) rfl
    obtain rfl : (⟨"", 0, (annsCodec.print annsRequest).getD ""⟩ : RequestRow) = row :=
      Option.some.inj (Eq.trans (by decide) hrow)
    cases hstatus

end CertOS
