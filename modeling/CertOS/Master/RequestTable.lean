import CertOS.Interleave.RelyGuarantee
import CertOS.Master.Requests

/-!
# The rows of the request table

A row says three things twice: its key, the address of the applicant and the number of the
status stand beside the JSON of the request, and in it. Three handlers write them, and each
takes them from another place: from the request that has arrived, from the JSON it has read,
from the decision. That a row agrees with itself is `CertOS.RowAgrees`.

The handlers run at the same time. What each of them relies on between its read and its
write, and guarantees with its write, is the pact `CertOS.requestPact`: every row agrees, no
row is ever removed, and no address is changed. So a handler that writes back what it has read
still finds the row with the same address, whoever has written it in the meantime.

The result is `CertOS.request_table_coherent`: along every run the rows agree, and a
submission changes the table once, by the row it reports, or not at all.
-/

namespace CertOS

open Interleave

variable {Fs : Type}

/-! ### Rows that agree -/

/-- **The row agrees with its JSON**, which is that of `req`. -/
structure RowAgrees (J : JsonCodec) (k : String) (row : RequestRow) (req : JobRequest) : Prop where
  parse : J.parse row.data = some req
  requestId : req.requestId = k
  applicantEmail : row.applicantEmail = req.applicantEmail
  status : row.status = req.status.toInt

/-- Every row agrees, and no key has a NUL. -/
def RowsAgree (J : JsonCodec) (t : Tables) : Prop :=
  ∀ k row, t.jobRequests.lookup k = some row → cStr k = k ∧ ∃ req, RowAgrees J k row req

/-- The table has a row with this key and this address. -/
def HasRow (t : Tables) (k email : String) : Prop :=
  ∃ row, t.jobRequests.lookup k = some row ∧ row.applicantEmail = email

/-- **The pact of the request table.** -/
def requestPact (J : JsonCodec) : Pact (MasterState Tables Fs) where
  Inv s := RowsAgree J s.adminDb
  Rel s s' := ∀ k email, HasRow s.adminDb k email → HasRow s'.adminDb k email
  refl _ _ _ h := h
  trans h₁ h₂ k email h := h₂ k email (h₁ k email h)

section Operations

variable {P : Platform Tables Fs} {e : Env} {op : MasterOp} {s : MasterState Tables Fs}
  {req : JobRequest} {data : String}

/-- An operation that does not write the table keeps to the pact. -/
theorem keeps_of_not_writesRequests (hP : P.store = idealStore) (h : writesRequests op = false)
    (hs : (requestPact P.json).Inv s) :
    (requestPact P.json).Inv (s.exec P e op).2 ∧ (requestPact P.json).Rel s (s.exec P e op).2 := by
  have hsame := jobRequests_exec (e := e) (s := s) (keepsRequests_of_eq hP) h
  constructor
  · intro k row hrow
    exact hs k row (hsame ▸ hrow)
  · rintro k email ⟨row, hrow, hemail⟩
    exact ⟨row, by rw [hsame, hrow], hemail⟩

/-- **An insertion keeps to the pact**, if it carries one request, without NUL. -/
theorem keeps_addJobRequest (hP : P.store = idealStore) (hJ : P.json.Lawful)
    (hd : P.json.print req = some data) (hid : cStr req.requestId = req.requestId)
    (hemail : cStr req.applicantEmail = req.applicantEmail) (hs : (requestPact P.json).Inv s) :
    let op : MasterOp :=
      .store (.addJobRequest req.requestId req.applicantEmail req.status.toInt data)
    (requestPact P.json).Inv (s.exec P e op).2 ∧ (requestPact P.json).Rel s (s.exec P e op).2 := by
  have hdata : cStr data = data := cStr_of_nul_not_mem (hJ.print_no_nul req data hd)
  simp only [MasterState.exec_store, hP, idealStore, StateStore.addJobRequest]
  split
  · rename_i hc
    have hlookup (k : String) : (s.adminDb.jobRequests.insert (cStr req.requestId)
        ⟨cStr req.applicantEmail, req.status.toInt, cStr data⟩).lookup k =
          if k = req.requestId then some ⟨req.applicantEmail, req.status.toInt, data⟩
          else s.adminDb.jobRequests.lookup k := by
      rw [Table.lookup_insert, hid, hemail, hdata]
    constructor
    · intro k row hrow
      rw [hlookup] at hrow
      split at hrow
      · rename_i hk
        subst hk
        obtain rfl := Option.some.inj hrow
        exact ⟨hid, req, hJ.parse_print req data hd, rfl, rfl, rfl⟩
      · exact hs k row hrow
    · rintro k email ⟨row, hrow, hre⟩
      refine ⟨row, ?_, hre⟩
      rw [hlookup, if_neg ?_, hrow]
      -- the key of the new row was free
      rintro rfl
      rw [hid, hrow] at hc
      cases hc.2
  · exact ⟨hs, fun _ _ h => h⟩

/-- **An update keeps to the pact**, if it carries one request, and the row of that request has
its address. -/
theorem keeps_updateRequestStatus (hP : P.store = idealStore) (hJ : P.json.Lawful)
    (hd : P.json.print req = some data) (hid : cStr req.requestId = req.requestId)
    (hrow : HasRow s.adminDb req.requestId req.applicantEmail) (hs : (requestPact P.json).Inv s) :
    let op : MasterOp := .store (.updateRequestStatus req.requestId req.status.toInt data)
    (requestPact P.json).Inv (s.exec P e op).2 ∧ (requestPact P.json).Rel s (s.exec P e op).2 := by
  have hdata : cStr data = data := cStr_of_nul_not_mem (hJ.print_no_nul req data hd)
  simp only [MasterState.exec_store, hP, idealStore, StateStore.updateRequestStatus]
  split
  · have hlookup (k : String) : (s.adminDb.jobRequests.modify (cStr req.requestId)
        fun row => { row with status := req.status.toInt, data := cStr data }).lookup k =
          (s.adminDb.jobRequests.lookup k).map fun row =>
            if k = req.requestId then { row with status := req.status.toInt, data := data }
            else row := by
      rw [hid, hdata]
      by_cases hk : k = req.requestId
      · subst hk
        rw [Table.lookup_modify_self]
        simp only [if_pos]
      · rw [Table.lookup_modify_of_ne hk]
        simp only [if_neg hk, Option.map_id']
    constructor
    · intro k row' hrow'
      rw [hlookup] at hrow'
      obtain ⟨row, hl, rfl⟩ := Option.map_eq_some_iff.mp hrow'
      split
      · rename_i hk
        subst hk
        obtain ⟨row₁, hrow₁, hemail⟩ := hrow
        obtain rfl := Option.some.inj (hl.symm.trans hrow₁)
        exact ⟨hid, req, hJ.parse_print req data hd, rfl, hemail, rfl⟩
      · exact hs k row hl
    · rintro k email ⟨row, hl, hemail⟩
      refine ⟨_, by rw [hlookup, hl, Option.map_some], ?_⟩
      split <;> exact hemail
  · exact ⟨hs, fun _ _ h => h⟩

end Operations

/-! ### The handlers that update -/

section Handlers

variable {P : Platform Tables Fs} {s : MasterState Tables Fs}
  {log : List (MasterState Tables Fs × MasterState Tables Fs)} {req : JobRequest}

/-- A handler that has read a request, and wants to write it back. -/
structure HasRead (s : MasterState Tables Fs) (req : JobRequest) : Prop where
  nul : cStr req.requestId = req.requestId
  row : HasRow s.adminDb req.requestId req.applicantEmail

theorem HasRead.later {s' : MasterState Tables Fs} (h : HasRead s req)
    (hrel : (requestPact P.json).Rel s s') : HasRead s' req :=
  ⟨h.nul, hrel _ _ h.row⟩

/-- A handler that writes what it has read, and returns. -/
theorem meets_write (hP : P.store = idealStore) (hJ : P.json.Lawful) {α : Type} {a : α}
    {data : String} (hd : P.json.print req = some data) (h : HasRead s req) :
    (Prog.call (MasterOp.store (.updateRequestStatus req.requestId req.status.toInt data))
      fun _ => Prog.ret a).Meets (MasterState.exec P) (requestPact P.json) (fun _ _ => True)
        s log := by
  refine .call (fun e s' hrel hs => ?_) fun _ _ _ _ => trivial
  exact keeps_updateRequestStatus hP hJ hd h.nul (h.later hrel).row hs

theorem meets_storeUpdate (hP : P.store = idealStore) (hJ : P.json.Lawful) (h : HasRead s req) :
    (MasterService.storeUpdate P.json req).Meets (MasterState.exec P) (requestPact P.json)
      (fun _ _ => True) s log := by
  rw [MasterService.storeUpdate]
  cases hd : P.json.print req with
  | none => trivial
  | some data => exact meets_write hP hJ hd h

theorem meets_updateFound (hP : P.store = idealStore) (hJ : P.json.Lawful) (request : JobRequest)
    {targetJson : String}
    (h : ∀ req, targetJson ≠ "" → P.json.parse targetJson = some req → HasRead s req) :
    (MasterService.updateFound P.json request targetJson).Meets (MasterState.exec P)
      (requestPact P.json) (fun _ _ => True) s log := by
  rw [MasterService.updateFound]
  split
  · trivial
  · rename_i hne
    split
    · trivial
    · rename_i req hp
      obtain ⟨hnul, hrow⟩ := h req hne hp
      refine meets_storeUpdate hP hJ ?_
      -- the archive is neither the key nor the address
      rw [MasterService.withArchive]
      split
      · exact ⟨hnul, hrow⟩
      · exact ⟨hnul, hrow⟩

/-- **What a handler finds in a listing, it has read**: the request names the row it was read
from, and the row has its address. -/
theorem hasRead_of_listing (hP : P.store = idealStore) {e : Env} {k : String}
    (hs : (requestPact P.json).Inv s)
    (hne : MasterService.findRequest k (s.exec P e (.store .listRequests)).1 ≠ "")
    (hp : P.json.parse (MasterService.findRequest k (s.exec P e (.store .listRequests)).1) =
      some req) :
    HasRead (s.exec P e (.store .listRequests)).2 req := by
  obtain ⟨row, hrow, hparse⟩ :=
    Option.bind_eq_some_iff.mp (stored_of_listing (keepsRequests_of_eq hP) hne hp)
  have hs' : (requestPact P.json).Inv (s.exec P e (.store .listRequests)).2 :=
    (keeps_of_not_writesRequests hP rfl hs).1
  obtain ⟨hk, req', hagree⟩ := hs' k row hrow
  obtain rfl := Option.some.inj (hparse.symm.trans hagree.parse)
  have hid := hagree.requestId
  subst hid
  exact ⟨hk, row, hrow, hagree.applicantEmail⟩

/-- **`UpdateJobRequest` keeps to the pact.** -/
theorem meets_updateJobRequest (hP : P.store = idealStore) (hJ : P.json.Lawful)
    (request : JobRequest) :
    (MasterService.updateJobRequest P.json request).Meets (MasterState.exec P)
      (requestPact P.json) (fun _ _ => True) s log :=
  .call (fun _ _ _ hs => keeps_of_not_writesRequests hP rfl hs) fun _ _ _ hs =>
    meets_updateFound hP hJ request fun _ hne hp => hasRead_of_listing hP hs hne hp

theorem meets_storeReview (hP : P.store = idealStore) (hJ : P.json.Lawful)
    (request : ReviewRequest) (h : HasRead s req) :
    (MasterService.storeReview P.json request req).Meets (MasterState.exec P) (requestPact P.json)
      (fun _ _ => True) s log := by
  rw [MasterService.storeReview]
  cases hd : P.json.print req with
  | none => trivial
  | some data => exact meets_write hP hJ hd h

theorem meets_decideReview (hP : P.store = idealStore) (hJ : P.json.Lawful)
    (request : ReviewRequest) (h : HasRead s req) :
    (MasterService.decideReview P.json request req).Meets (MasterState.exec P)
      (requestPact P.json) (fun _ _ => True) s log := by
  refine .call (fun e s' _ hs => keeps_of_not_writesRequests hP rfl hs) fun e s' hrel _ => ?_
  -- neither the decision nor the job touches the key and the address
  have hread (s₁ : MasterState Tables Fs) (hrel₁ : (requestPact P.json).Rel s' s₁) :
      HasRead s₁ (MasterService.reviewed e.now request req) :=
    ⟨h.nul, hrel₁ _ _ (hrel _ _ h.row)⟩
  split
  · refine .call (fun e s' _ hs => keeps_of_not_writesRequests hP rfl hs) fun e' s₁ hrel₁ _ => ?_
    exact meets_storeReview hP hJ request (hread _ hrel₁)
  · exact meets_storeReview hP hJ request (hread _ fun _ _ h => h)

theorem meets_reviewFound (hP : P.store = idealStore) (hJ : P.json.Lawful)
    (request : ReviewRequest) {targetJson : String}
    (h : ∀ req, targetJson ≠ "" → P.json.parse targetJson = some req → HasRead s req) :
    (MasterService.reviewFound P.json request targetJson).Meets (MasterState.exec P)
      (requestPact P.json) (fun _ _ => True) s log := by
  rw [MasterService.reviewFound]
  split
  · trivial
  · rename_i hne
    split
    · trivial
    · rename_i req hp
      exact meets_decideReview hP hJ request (h req hne hp)

/-- **`AdminReviewRequest` keeps to the pact.** -/
theorem meets_adminReviewRequest (hP : P.store = idealStore) (hJ : P.json.Lawful)
    (request : ReviewRequest) :
    (MasterService.adminReviewRequest P.json request).Meets (MasterState.exec P)
      (requestPact P.json) (fun _ _ => True) s log :=
  .call (fun _ _ _ hs => keeps_of_not_writesRequests hP rfl hs) fun _ _ _ hs =>
    meets_reviewFound hP hJ request fun _ hne hp => hasRead_of_listing hP hs hne hp

end Handlers

/-! ### The handler that inserts -/

/-- The changes of the request table among some steps: the table before and after each of
them. -/
def tableChanges (log : List (MasterState Tables Fs × MasterState Tables Fs)) :
    List (Table String RequestRow × Table String RequestRow) :=
  (log.map fun p => (p.1.adminDb.jobRequests, p.2.adminDb.jobRequests)).filter fun p => p.1 ≠ p.2

theorem tableChanges_concat_of_eq {log : List (MasterState Tables Fs × MasterState Tables Fs)}
    {s s' : MasterState Tables Fs} (h : s.adminDb.jobRequests = s'.adminDb.jobRequests) :
    tableChanges (log ++ [(s, s')]) = tableChanges log := by
  rw [tableChanges, List.map_append, List.filter_append, tableChanges]
  simp [h]

theorem tableChanges_concat_of_ne {log : List (MasterState Tables Fs × MasterState Tables Fs)}
    {s s' : MasterState Tables Fs} (h : s.adminDb.jobRequests ≠ s'.adminDb.jobRequests) :
    tableChanges (log ++ [(s, s')]) =
      tableChanges log ++ [(s.adminDb.jobRequests, s'.adminDb.jobRequests)] := by
  rw [tableChanges, List.map_append, List.filter_append, tableChanges]
  simp [h]

/-- **What a submission does**, by its steps and its reply: on success it inserts one pending
row under the identifier it replies, and nothing else; on failure it changes nothing. -/
structure Submitted (J : JsonCodec) (log : List (MasterState Tables Fs × MasterState Tables Fs))
    (r : StatusResponse) : Prop where
  success : r.success = true → ∃ table row req,
    tableChanges log = [(table, table.insert r.message row)] ∧ table.lookup r.message = none ∧
      RowAgrees J r.message row req ∧ req.status = .pending
  failure : r.success = false → tableChanges log = []

section Submission

variable {P : Platform Tables Fs} {s : MasterState Tables Fs}
  {log : List (MasterState Tables Fs × MasterState Tables Fs)}

theorem meets_storeRequest (hP : P.store = idealStore) (hJ : P.json.Lawful) {now : ℤ}
    {request : JobRequest} {id : String} (hid : NulFree id)
    (hemail : NulFree request.applicantEmail) (hlog : tableChanges log = []) :
    (MasterService.storeRequest P.json now request id).Meets (MasterState.exec P)
      (requestPact P.json) (Submitted P.json) s log := by
  rw [MasterService.storeRequest]
  dsimp only
  cases hd : P.json.print
      { request with requestId := id, submittedAt := now, status := .pending } with
  | none => exact ⟨(fun h => by cases h), fun _ => hlog⟩
  | some data =>
    have hkey := cStr_of_nul_not_mem hid
    have haddress := cStr_of_nul_not_mem hemail
    have hdata : cStr data = data := cStr_of_nul_not_mem (hJ.print_no_nul _ data hd)
    refine .call (fun e s' _ hs => keeps_addJobRequest hP hJ hd hkey haddress hs)
      fun e s' _ hs => ?_
    rw [MasterState.exec_store, hP]
    dsimp only [idealStore]
    rw [StateStore.addJobRequest, hkey, haddress, hdata]
    split
    · rename_i hc
      -- the insertion is the one change
      let row : RequestRow := ⟨request.applicantEmail, JobRequestStatus.pending.toInt, data⟩
      have hagree : RowAgrees P.json id row
          { request with requestId := id, submittedAt := now, status := .pending } :=
        ⟨hJ.parse_print _ data hd, rfl, rfl, rfl⟩
      have hne : s'.adminDb.jobRequests ≠ s'.adminDb.jobRequests.insert id row := by
        intro heq
        have hl := congrArg (AList.lookup id) heq
        rw [hc.2, AList.lookup_insert] at hl
        cases hl
      refine ⟨fun _ => ⟨_, row, _, ?_, hc.2, hagree, rfl⟩, (fun h => by cases h)⟩
      rw [tableChanges_concat_of_ne hne, hlog]
      rfl
    · refine ⟨(fun h => by cases h), fun _ => ?_⟩
      rw [tableChanges_concat_of_eq rfl, hlog]

/-- **`SubmitPublicRequest` keeps to the pact**, and does what it should. -/
theorem meets_submitPublicRequest (hP : P.store = idealStore) (hJ : P.json.Lawful)
    {request : JobRequest} (hid : NulFree request.requestId)
    (hemail : NulFree request.applicantEmail) :
    (MasterService.submitPublicRequest P.json request).Meets (MasterState.exec P)
      (requestPact P.json) (Submitted P.json) s [] := by
  refine .call (fun e s' _ hs => keeps_of_not_writesRequests hP rfl hs) fun e s' _ _ => ?_
  have hfirst : tableChanges ([] ++ [(s', (s'.exec P e .now).2)]) = [] :=
    tableChanges_concat_of_eq rfl
  split
  · refine .call (fun e s' _ hs => keeps_of_not_writesRequests hP rfl hs) fun e' s₁ _ _ => ?_
    have hreq : NulFree "req-" := nul_not_mem_ofList (by decide)
    have hdash : NulFree "-" := nul_not_mem_ofList (by decide)
    refine meets_storeRequest hP hJ ?_ hemail ?_
    · exact ((hreq.append (nulFree_toString_int _)).append hdash).append (nulFree_toString_nat _)
    · exact (tableChanges_concat_of_eq rfl).trans hfirst
  · exact meets_storeRequest hP hJ hid hemail hfirst

end Submission

/-! ### All tasks -/

/-- Requests come without NUL. -/
def nulFreeRequests (_ : MasterConfig Tables Fs) : MasterEvent → Bool
  | .start (.rpc _ (.submitPublicRequest request)) =>
    decide (NulFree request.requestId) && decide (NulFree request.applicantEmail)
  | _ => true

/-- What a thread has done when it has returned. -/
def requestPost (J : JsonCodec) :
    Task → List (MasterState Tables Fs × MasterState Tables Fs) → Reply → Prop
  | .rpc _ (.submitPublicRequest _), log, a => ∃ r, a = .status r ∧ Submitted J log r
  | _, _, _ => True

/-- **Every task keeps to the pact.** -/
theorem meets_body {P : Platform Tables Fs} (hP : P.store = idealStore) (hJ : P.json.Lawful)
    {c : MasterConfig Tables Fs} {t : Task} (hg : nulFreeRequests c (.start t) = true)
    (s : MasterState Tables Fs) :
    ((master P).body t).Meets (MasterState.exec P) (requestPact P.json)
      (requestPost P.json t) s [] := by
  cases ht : t.onRequests with
  | false =>
    refine (only_of_not_onRequests P ht).meets (fun e o s ho hs =>
      keeps_of_not_writesRequests hP ho hs) fun log a => ?_
    cases t with
    | rpc metadata rpc =>
      cases rpc with
      | submitPublicRequest request => cases ht
      | _ => trivial
    | _ => trivial
  | true =>
    cases t with
    | rpc metadata rpc =>
      rw [master_body_rpc]
      cases rpc with
      | submitPublicRequest request =>
        obtain ⟨hid, hemail⟩ := Bool.and_eq_true_iff.mp hg
        refine Prog.meets_map.mpr ((meets_submitPublicRequest hP hJ (of_decide_eq_true hid)
          (of_decide_eq_true hemail)).mono fun log r hr => ⟨r, rfl, hr⟩)
      | updateJobRequest request =>
        exact Prog.meets_map.mpr (meets_updateJobRequest hP hJ request)
      | adminReviewRequest request =>
        exact Prog.meets_map.mpr (meets_adminReviewRequest hP hJ request)
      | _ => cases ht
    | _ => cases ht

/-- **The request table is coherent.** Along every run of the master from a table whose rows
agree, the keys are distinct, every row agrees with its JSON, and every submission that has
returned has done what its reply says. -/
theorem request_table_coherent {P : Platform Tables Fs} (hP : P.store = idealStore)
    (hJ : P.json.Lawful) {db : Option Tables} {adminDb : Tables} {fairShare : Fs}
    (h₀ : RowsAgree P.json adminDb) {es : List MasterEvent} {c : MasterConfig Tables Fs}
    (h : (master P).Run (fun c ev => nulFreeRequests c ev = true)
      (masterStart db adminDb fairShare) es c) :
    (c.state.adminDb.jobRequests.pairs.map Prod.fst).Nodup ∧ RowsAgree P.json c.state.adminDb ∧
      ∀ i metadata request r,
        c.threads[i]? = some ⟨.rpc metadata (.submitPublicRequest request), .ret (.status r)⟩ →
          Submitted P.json
            ((master P).ownSteps i (masterStart db adminDb fairShare).state es) r := by
  have hinv : (requestPact P.json).Inv (masterStart db adminDb fairShare).state := h₀
  have hkept := h.meets (Q := requestPost P.json) hinv rfl
    (fun c t hg s => meets_body hP hJ hg s) fun o r t ht => by cases ht
  refine ⟨?_, hkept.inv, fun i metadata request r hi => ?_⟩
  · have hkeys : c.state.adminDb.jobRequests.pairs.map Prod.fst =
        c.state.adminDb.jobRequests.entries.map Sigma.fst := by
      rw [Table.pairs, List.map_map]
      rfl
    rw [hkeys]
    exact c.state.adminDb.jobRequests.nodupKeys
  · obtain ⟨r', hr', hsub⟩ := hkept.thread i _ hi
    cases hr'
    exact hsub

/-! ### Ann's request -/

/-- The thread is a submission that has replied `r`. -/
def hasReplied (r : StatusResponse) (th : Thread MasterOp.Res Task Reply) : Bool :=
  match th.task, th.prog with
  | .rpc _ (.submitPublicRequest _), .ret (.status r') => r' = r
  | _, _ => false

theorem exists_of_hasReplied {r : StatusResponse} {th : Thread MasterOp.Res Task Reply}
    (h : hasReplied r th = true) : ∃ metadata request,
      th = ⟨.rpc metadata (.submitPublicRequest request), .ret (.status r)⟩ := by
  obtain ⟨t, p⟩ := th
  rw [hasReplied] at h
  split at h
  · rename_i metadata request r' ht hp
    obtain rfl := of_decide_eq_true h
    dsimp only at ht hp
    exact ⟨metadata, request, by rw [ht, hp]⟩
  · cases h

/-- **The law at work**: Ann's request is stored in an empty table. -/
theorem request_table_coherent_ann : ∃ es c,
    (master annsPlatform).Run (fun c ev => nulFreeRequests c ev = true)
        (masterStart none {} ()) es c ∧
      RowsAgree annsCodec c.state.adminDb ∧
      Submitted annsCodec ((master annsPlatform).ownSteps 0 (masterStart none {} ()).state es)
        { success := true, message := "req-1" } := by
  have hempty : RowsAgree annsCodec {} := by
    intro k row h
    cases h
  obtain ⟨es, c, hrun, hc⟩ := System.exists_run (S := master annsPlatform) (g := nulFreeRequests)
    (c := masterStart none {} ())
    (p := fun c => c.threads[0]?.any (hasReplied { success := true, message := "req-1" }))
    (performs 0 (.rpc [] (.submitPublicRequest annsRequest)) {} 2) (by decide +kernel)
  obtain ⟨th, hi, hth⟩ := (Option.any_eq_true _ _).mp hc
  obtain ⟨metadata, request, rfl⟩ := exists_of_hasReplied hth
  have h := request_table_coherent rfl annsCodec_lawful hempty hrun
  exact ⟨es, c, hrun, h.2.1, h.2.2 0 metadata request _ hi⟩

end CertOS
