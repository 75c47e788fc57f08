import CertOS.Master.Footprint

/-!
# The table of job requests

A job request is kept as a row of the admin database: the request as JSON, and
beside it its key and the number of its status. Three handlers write the table.
`SubmitPublicRequest` inserts a row; `UpdateJobRequest` and
`AdminReviewRequest` read a whole row, change some fields, and write the whole
row back under the key they find inside the JSON.

That the two copies of the key and of the status agree is therefore an
invariant, `CertOS.Coherent`. Every write is well formed, whatever its handler
has read (`CertOS.WellFormed`, `CertOS.only_wellFormed`), so the invariant holds
along every run on the ideal store (`CertOS.coherent_run`), and with it a
handler that works on one request writes no other
(`CertOS.Touches`).
-/

namespace CertOS

open Interleave

variable {Fs : Type}

/-! ### What the handlers write -/

/-- The operation writes the request table. -/
def writesRequests : MasterOp → Bool
  | .store (.addJobRequest ..) | .store (.updateRequestStatus ..) => true
  | _ => false

/-- The task is one of the three that write the request table. -/
def Task.onRequests : Task → Bool
  | .rpc _ (.submitPublicRequest _) | .rpc _ (.updateJobRequest _)
  | .rpc _ (.adminReviewRequest _) => true
  | _ => false

/-- A write is well formed: it carries the JSON of a request, with the key and
the number of the status of that request. -/
def WellFormed (J : JsonCodec) : MasterOp → Prop
  | .store (.addJobRequest id _ status data) =>
    ∃ req, J.print req = some data ∧ id = req.requestId ∧ status = req.status.toInt ∧
      req.status = .pending
  | .store (.updateRequestStatus id status data) =>
    ∃ req, J.print req = some data ∧ id = req.requestId ∧ status = req.status.toInt
  | _ => True

/-- The operation is an update of the row with key `k`. -/
def Touches (k : String) : MasterOp → Prop
  | .store (.updateRequestStatus id _ _) => cStr id = k
  | _ => False

theorem wellFormed_of_not_writesRequests {J : JsonCodec} {op : MasterOp}
    (h : writesRequests op = false) : WellFormed J op := by
  cases op with
  | store o =>
    cases o with
    | addJobRequest => cases h
    | updateRequestStatus => cases h
    | _ => trivial
  | _ => trivial

theorem not_touches_of_not_writesRequests {k : String} {op : MasterOp}
    (h : writesRequests op = false) : ¬Touches k op := by
  cases op with
  | store o =>
    cases o with
    | updateRequestStatus => cases h
    | _ => exact id
  | _ => exact id

/-- **The other tasks leave the request table alone.** -/
theorem only_of_not_onRequests {Db : Type} (P : Platform Db Fs) {t : Task}
    (h : t.onRequests = false) :
    ((master P).body t).Only fun op => writesRequests op = false := by
  refine (only_mayDo P t).mono fun op hop => ?_
  by_contra hw
  rw [Bool.not_eq_false] at hw
  cases op with
  | store o =>
    cases o with
    | addJobRequest id email status data =>
      cases t with
      | rpc metadata rpc =>
        cases rpc with
        | submitPublicRequest => cases h
        | _ => cases hop
      | _ => cases hop
    | updateRequestStatus id status data =>
      cases t with
      | rpc metadata rpc =>
        cases rpc with
        | updateJobRequest => cases h
        | adminReviewRequest => cases h
        | _ => cases hop
      | _ => cases hop
    | _ => cases hw
  | _ => cases hw

/-! ### The three that write it -/

/-- **Every write is well formed**, whatever its handler has read. -/
theorem only_wellFormed {Db : Type} (P : Platform Db Fs) (t : Task) :
    ((master P).body t).Only (WellFormed P.json) := by
  cases h : t.onRequests with
  | false => exact (only_of_not_onRequests P h).mono fun _ => wellFormed_of_not_writesRequests
  | true =>
    cases t with
    | rpc metadata rpc =>
      rw [master_body_rpc]
      cases rpc with
      | submitPublicRequest request =>
        exact Prog.only_map.mpr (MasterService.only_submitPublicRequest _ trivial trivial
          fun req data hd hpend => ⟨req, hd, rfl, rfl, hpend⟩)
      | updateJobRequest request =>
        exact Prog.only_map.mpr (.op_bind trivial fun requests =>
          MasterService.only_updateFound _ _ fun req data hd => ⟨req, hd, rfl, rfl⟩)
      | adminReviewRequest request =>
        exact Prog.only_map.mpr (.op_bind trivial fun requests =>
          MasterService.only_reviewFound _ _ trivial (fun _ _ _ => trivial)
            fun req data hd => ⟨req, hd, rfl, rfl⟩)
      | _ => cases h
    | _ => cases h

/-! ### The stored request -/

/-- The request that the row with key `k` holds, if there is one and it
parses. -/
def stored (J : JsonCodec) (k : String) (t : Tables) : Option JobRequest :=
  (t.jobRequests.lookup k).bind fun row => J.parse row.data

/-- **The two copies agree**: the JSON of every row that parses names the row
itself, and the status beside it. -/
def Coherent (J : JsonCodec) (t : Tables) : Prop :=
  ∀ k row req, t.jobRequests.lookup k = some row → J.parse row.data = some req →
    cStr req.requestId = k ∧ row.status = req.status.toInt

theorem Coherent.of_stored {J : JsonCodec} {t : Tables} (h : Coherent J t) {k : String}
    {req : JobRequest} (hs : stored J k t = some req) : cStr req.requestId = k := by
  obtain ⟨row, hrow, hreq⟩ := Option.bind_eq_some_iff.mp hs
  exact (h k row req hrow hreq).1

/-- What a handler finds in a listing is what the row holds. -/
theorem stored_of_findRequest {J : JsonCodec} {ok : Bool} {k : String} {t : Tables}
    {req : JobRequest} (hne : MasterService.findRequest k (StateStore.listRequests ok t) ≠ "")
    (hp : J.parse (MasterService.findRequest k (StateStore.listRequests ok t)) = some req) :
    stored J k t = some req := by
  rw [MasterService.findRequest] at hne hp
  cases hf : (StateStore.listRequests ok t).find? fun r => r.1 = k with
  | none => simp [hf] at hne
  | some r =>
    have hk : r.1 = k := by simpa using List.find?_some hf
    have hmem := List.mem_of_find?_eq_some hf
    cases ok with
    | false => cases hmem
    | true =>
      obtain ⟨row, hrow, hd⟩ := StateStore.mem_listRequests.mp hmem
      have hp' : J.parse row.data = some req := by
        rw [hd]
        simpa [hf] using hp
      rw [stored, ← hk, hrow]
      exact hp'

/-- A listing that works shows the row. -/
theorem findRequest_of_lookup {k : String} {t : Tables} {row : RequestRow}
    (h : t.jobRequests.lookup k = some row) :
    MasterService.findRequest k (StateStore.listRequests true t) = row.data := by
  rw [MasterService.findRequest]
  cases hf : (StateStore.listRequests true t).find? fun r => r.1 = k with
  | none =>
    have hmem : (k, row.data) ∈ StateStore.listRequests true t :=
      StateStore.mem_listRequests.mpr ⟨row, h, rfl⟩
    simpa using List.find?_eq_none.mp hf _ hmem
  | some r =>
    have hk : r.1 = k := by simpa using List.find?_some hf
    obtain ⟨row', hrow', hd⟩ := StateStore.mem_listRequests.mp (List.mem_of_find?_eq_some hf)
    rw [hk] at hrow'
    obtain rfl := Option.some.inj (h.symm.trans hrow')
    exact hd.symm

/-- A listing does not show a row that is not there. -/
theorem findRequest_of_lookup_eq_none {k : String} {t : Tables} {ok : Bool}
    (h : t.jobRequests.lookup k = none) :
    MasterService.findRequest k (StateStore.listRequests ok t) = "" := by
  rw [MasterService.findRequest]
  cases hf : (StateStore.listRequests ok t).find? fun r => r.1 = k with
  | none => rfl
  | some r =>
    have hk : r.1 = k := by simpa using List.find?_some hf
    have hmem := List.mem_of_find?_eq_some hf
    cases ok with
    | false => cases hmem
    | true =>
      obtain ⟨row, hrow, -⟩ := StateStore.mem_listRequests.mp hmem
      rw [hk, h] at hrow
      cases hrow

section Exec

variable {P : Platform Tables Fs} {e : Env} {op : MasterOp} {s : MasterState Tables Fs}

/-- The rows after an operation: only the three calls on the table change
them. -/
theorem jobRequests_exec (hP : P.store.KeepsRequests) (h : writesRequests op = false) :
    (s.exec P e op).2.adminDb.jobRequests =
      s.adminDb.jobRequests := by
  cases op with
  | store o =>
    cases o with
    | setKv k v => exact hP.setKv _ k v _
    | getKv k => exact hP.getKv _ k _
    | addJobRequest => cases h
    | updateRequestStatus => cases h
    | listRequests => rw [MasterState.exec_store, hP.listRequests]
  | _ => rfl

/-- **What a well-formed operation can do to a row**: nothing, a new row with a
pending request, or an update with the request it carries. -/
theorem lookup_jobRequests_exec (hP : P.store.KeepsRequests) (hJ : P.json.Lawful)
    (hw : WellFormed P.json op) (k : String) :
    (s.exec P e op).2.adminDb.jobRequests.lookup k =
        s.adminDb.jobRequests.lookup k ∨
      ∃ row req, (s.exec P e op).2.adminDb.jobRequests.lookup
          k = some row ∧
        P.json.parse row.data = some req ∧ cStr req.requestId = k ∧ row.status = req.status.toInt ∧
        (((∃ id email status data, op = .store (.addJobRequest id email status data)) ∧
            s.adminDb.jobRequests.lookup k = none ∧ req.status = .pending) ∨
          (Touches k op ∧ ∃ data, op = .store (.updateRequestStatus req.requestId req.status.toInt
            data) ∧ P.json.print req = some data)) := by
  cases hr : writesRequests op with
  | false => exact Or.inl (by rw [jobRequests_exec hP hr])
  | true =>
    cases op with
    | store o =>
      cases o with
      | addJobRequest id email status data =>
        obtain ⟨req, hd, rfl, rfl, hpend⟩ := hw
        simp only [MasterState.exec_store, hP.addJobRequest, StateStore.addJobRequest]
        split
        · rename_i hc
          obtain ⟨-, hnone⟩ := hc
          by_cases hk : k = cStr req.requestId
          · -- the row is new, and its text has no NUL, so it is stored whole
            subst hk
            refine Or.inr ⟨_, req, by rw [AList.lookup_insert], ?_, rfl, rfl,
              Or.inl ⟨⟨_, _, _, _, rfl⟩, hnone, hpend⟩⟩
            rw [cStr_of_nul_not_mem (hJ.print_no_nul req data hd)]
            exact hJ.parse_print req data hd
          · exact Or.inl (AList.lookup_insert_ne hk)
        · exact Or.inl rfl
      | updateRequestStatus id status data =>
        obtain ⟨req, hd, rfl, rfl⟩ := hw
        simp only [MasterState.exec_store, hP.updateRequestStatus, StateStore.updateRequestStatus]
        split
        · by_cases hk : k = cStr req.requestId
          · subst hk
            cases hl : s.adminDb.jobRequests.lookup (cStr req.requestId) with
            | none => exact Or.inl (by rw [Table.lookup_modify_self, hl]; rfl)
            | some row =>
              -- status and text are replaced together
              refine Or.inr ⟨_, req, by rw [Table.lookup_modify_self, hl]; rfl, ?_, rfl, rfl,
                Or.inr ⟨rfl, data, rfl, hd⟩⟩
              rw [cStr_of_nul_not_mem (hJ.print_no_nul req data hd)]
              exact hJ.parse_print req data hd
          · exact Or.inl (Table.lookup_modify_of_ne hk _ _)
        · exact Or.inl rfl
      | _ => cases hr
    | _ => cases hr

theorem Coherent.exec (hP : P.store = idealStore) (hJ : P.json.Lawful)
    (hc : Coherent P.json s.adminDb) (hw : WellFormed P.json op) :
    Coherent P.json (s.exec P e op).2.adminDb := by
  intro k row req hrow hreq
  rcases lookup_jobRequests_exec (keepsRequests_of_eq hP) hJ hw k with
    hsame | ⟨row', req', hrow', hreq', hk, hst, -⟩
  · exact hc k row req (hsame ▸ hrow) hreq
  · obtain rfl := Option.some.inj (hrow.symm.trans hrow')
    obtain rfl := Option.some.inj (hreq.symm.trans hreq')
    exact ⟨hk, hst⟩

/-- The request a row holds after a well-formed operation. -/
theorem stored_exec (hP : P.store = idealStore) (hJ : P.json.Lawful) (hw : WellFormed P.json op)
    (k : String) :
    stored P.json k (s.exec P e op).2.adminDb =
        stored P.json k s.adminDb ∨
      ∃ req, stored P.json k (s.exec P e op).2.adminDb =
          some req ∧
        (((∃ id email status data, op = .store (.addJobRequest id email status data)) ∧
            stored P.json k s.adminDb = none ∧ req.status = .pending) ∨
          (Touches k op ∧ ∃ data, op = .store (.updateRequestStatus req.requestId req.status.toInt
            data) ∧ P.json.print req = some data)) := by
  rcases lookup_jobRequests_exec (e := e) (s := s) (keepsRequests_of_eq hP) hJ hw k with
    hsame | ⟨row, req, hrow, hreq, -, -, hwhy⟩
  · exact Or.inl (by rw [stored, hsame, stored])
  · refine Or.inr ⟨req, by rw [stored, hrow]; exact hreq, ?_⟩
    rcases hwhy with ⟨hadd, hnone, hpend⟩ | htouch
    · exact Or.inl ⟨hadd, by rw [stored, hnone]; rfl, hpend⟩
    · exact Or.inr htouch

/-- An update that SQLite carries out leaves the request it carries. -/
theorem stored_update (hP : P.store = idealStore) (hJ : P.json.Lawful) (hok : e.sqliteOk = true)
    {k id data : String} {status : ℤ} {req₀ req : JobRequest} (hid : cStr id = k)
    (hs : stored P.json k s.adminDb = some req₀) (hd : P.json.print req = some data) :
    stored P.json k (s.exec P e (.store (.updateRequestStatus id status data))).2.adminDb =
      some req := by
  subst hid
  obtain ⟨row, hrow, -⟩ := Option.bind_eq_some_iff.mp hs
  simp only [MasterState.exec_store, hP, idealStore, StateStore.updateRequestStatus, hok, if_pos,
    stored]
  rw [Table.lookup_modify_self, hrow]
  change P.json.parse (cStr data) = some req
  rw [cStr_of_nul_not_mem (hJ.print_no_nul req data hd)]
  exact hJ.parse_print req data hd

/-- **A write of a request**: it changes one record, if it is carried out. -/
theorem stored_write (hP : P.store = idealStore) (hJ : P.json.Lawful) {req : JobRequest}
    {data : String} (hd : P.json.print req = some data) (id : String) (status : ℤ) (k : String) :
    stored P.json k (s.exec P e (.store (.updateRequestStatus id status data))).2.adminDb =
        stored P.json k s.adminDb ∨
      (e.sqliteOk = true ∧ cStr id = k ∧
        stored P.json k (s.exec P e (.store (.updateRequestStatus id status data))).2.adminDb =
          some req) := by
  simp only [MasterState.exec_store, hP, idealStore, StateStore.updateRequestStatus]
  split
  · rename_i hok
    by_cases hk : k = cStr id
    · subst hk
      cases hl : s.adminDb.jobRequests.lookup (cStr id) with
      | none =>
        left
        rw [stored, stored, Table.lookup_modify_self, hl]
        rfl
      | some row =>
        right
        refine ⟨hok, rfl, ?_⟩
        rw [stored, Table.lookup_modify_self, hl]
        change P.json.parse (cStr data) = some req
        rw [cStr_of_nul_not_mem (hJ.print_no_nul req data hd)]
        exact hJ.parse_print req data hd
    · left
      rw [stored, stored, Table.lookup_modify_of_ne hk]
  · exact Or.inl rfl

/-- What a handler finds in its listing is stored. -/
theorem stored_of_listing (hP : P.store.KeepsRequests) {k : String} {req : JobRequest}
    (hne : MasterService.findRequest k (s.exec P e (.store .listRequests)).1 ≠ "")
    (hp : P.json.parse (MasterService.findRequest k (s.exec P e (.store .listRequests)).1) =
      some req) :
    stored P.json k (s.exec P e (.store .listRequests)).2.adminDb = some req := by
  rw [MasterState.exec_store, hP.listRequests] at hne hp ⊢
  exact stored_of_findRequest hne hp

end Exec

/-- A listing that works shows a handler the request that is stored. -/
theorem findRequest_of_stored {J : JsonCodec} (hJ : J.Lawful) {k : String} {t : Tables}
    {req : JobRequest} (hs : stored J k t = some req) :
    MasterService.findRequest k (StateStore.listRequests true t) ≠ "" ∧
      J.parse (MasterService.findRequest k (StateStore.listRequests true t)) = some req := by
  obtain ⟨row, hrow, hreq⟩ := Option.bind_eq_some_iff.mp hs
  rw [findRequest_of_lookup hrow]
  refine ⟨fun hempty => ?_, hreq⟩
  rw [hempty, hJ.parse_empty] at hreq
  cases hreq

/-- **The two copies agree along every run** on the ideal store. -/
theorem coherent_run {P : Platform Tables Fs} (hP : P.store = idealStore) (hJ : P.json.Lawful)
    {ok : MasterConfig Tables Fs → MasterEvent → Prop}
    {c c' : MasterConfig Tables Fs} {es : List MasterEvent}
    (h : (master P).Run ok c es c')
    (hc : Coherent P.json c.state.adminDb)
    (hth : ∀ th ∈ c.threads, th.prog.Only (WellFormed P.json)) :
    Coherent P.json c'.state.adminDb ∧ ∀ th ∈ c'.threads, th.prog.Only (WellFormed P.json) := by
  have hthreads {c' : MasterConfig Tables Fs} {es : List MasterEvent}
      (h : (master P).Run ok c es c') : ∀ th ∈ c'.threads, th.prog.Only (WellFormed P.json) :=
    h.forall_threads (q := fun th => th.prog.Only (WellFormed P.json)) hth
      (fun _ t _ => by exact only_wellFormed P t) (fun _ _ _ hu => by cases hu)
      fun _ _ _ r hq => hq.2 r
  refine ⟨?_, hthreads h⟩
  induction h with
  | nil => exact hc
  | snoc hrun hg hstep ih =>
    cases hstep with
    | start t => exact ih
    | did i t e op k hi => exact ih.exec hP hJ (hthreads hrun _ (List.mem_of_getElem? hi)).1

/-! ### The two handlers, place by place -/

/-- Where a review is. -/
inductive ReviewPlace where
  /-- In front of `list_requests`. -/
  | reading
  /-- It has the stored request, and is about to look at the clock. -/
  | deciding (req : JobRequest)
  /-- It is about to submit the job. -/
  | submitting (req : JobRequest) (now : ℤ)
  /-- It is about to write the request back. -/
  | storing (req : JobRequest) (now : ℤ)
  | ended (a : Reply)

/-- What is left of a review. -/
def reviewAt (J : JsonCodec) (request : ReviewRequest) : ReviewPlace → MasterProg Reply
  | .reading => Reply.ofExcept .status <$> MasterService.adminReviewRequest J request
  | .deciding req => Reply.ofExcept .status <$> MasterService.decideReview J request req
  | .submitting req now =>
    .call (.job (.submitJob req.requestedSpec "public-user" req.applicantName)) fun _ =>
      Reply.ofExcept .status <$>
        MasterService.storeReview J request (MasterService.reviewed now request req)
  | .storing req now =>
    Reply.ofExcept .status <$>
      MasterService.storeReview J request (MasterService.reviewed now request req)
  | .ended a => .ret a

/-- Where a review goes from its read. -/
def reviewRead (J : JsonCodec) (request : ReviewRequest) (requests : List (String × String)) :
    ReviewPlace :=
  if MasterService.findRequest request.requestId requests = "" then
    .ended (.error ⟨.notFound, "Request not found"⟩)
  else
    match J.parse (MasterService.findRequest request.requestId requests) with
    | none => .ended (.error ⟨.internal, "Failed to parse stored request"⟩)
    | some req => .deciding req

/-- The reply of a review that has come to its end. -/
def reviewDone (request : ReviewRequest) : Reply :=
  .status {
    success := true
    message := if request.approve then "Request approved and job scheduled"
      else "Request rejected" }

section ReviewAt

variable (J : JsonCodec) (request : ReviewRequest) (req : JobRequest) (now : ℤ)

theorem reviewAt_reading :
    reviewAt J request .reading = .call (.store .listRequests) fun requests =>
      reviewAt J request (reviewRead J request requests) := by
  refine congrArg (Prog.call _) (funext fun requests => ?_)
  change Reply.ofExcept .status <$> MasterService.reviewFound J request _ = _
  rw [reviewRead, MasterService.reviewFound]
  split
  · rfl
  · cases J.parse (MasterService.findRequest request.requestId requests) <;> rfl

theorem reviewAt_deciding :
    reviewAt J request (.deciding req) = .call .now fun now =>
      reviewAt J request (if request.approve then .submitting req now else .storing req now) := by
  refine congrArg (Prog.call _) (funext fun now => ?_)
  change Reply.ofExcept .status <$> ((if request.approve = true then _ else _) :
    MasterProg (Except Status StatusResponse)) = _
  split <;> rfl

theorem reviewAt_submitting :
    reviewAt J request (.submitting req now) =
      .call (.job (.submitJob req.requestedSpec "public-user" req.applicantName)) fun _ =>
        reviewAt J request (.storing req now) := rfl

theorem reviewAt_storing :
    reviewAt J request (.storing req now) =
      match J.print (MasterService.reviewed now request req) with
      | none => .ret (.error ⟨.internal, "Failed to serialize request"⟩)
      | some data => .call (.store (.updateRequestStatus req.requestId
          (MasterService.reviewed now request req).status.toInt data)) fun _ =>
            reviewAt J request (.ended (reviewDone request)) := by
  rw [reviewAt, MasterService.storeReview]
  cases J.print (MasterService.reviewed now request req) <;> rfl

end ReviewAt

/-- The operation submits a job. -/
def submits : MasterOp → Bool
  | .job (.submitJob ..) => true
  | _ => false

/-- How a review goes from place to place. -/
inductive ReviewPlace.Next (r : ReviewRequest) : ReviewPlace → ReviewPlace → Prop
  | away {a : Reply} (h : a = .error ⟨.notFound, "Request not found"⟩ ∨
      a = .error ⟨.internal, "Failed to parse stored request"⟩) : Next r .reading (.ended a)
  | found (req : JobRequest) : Next r .reading (.deciding req)
  | approve (req : JobRequest) (now : ℤ) (h : r.approve = true) :
      Next r (.deciding req) (.submitting req now)
  | reject (req : JobRequest) (now : ℤ) (h : r.approve = false) :
      Next r (.deciding req) (.storing req now)
  | submitted (req : JobRequest) (now : ℤ) : Next r (.submitting req now) (.storing req now)
  | stored (req : JobRequest) (now : ℤ) : Next r (.storing req now) (.ended (reviewDone r))

/-- **What one step of a review does**: it goes to the next place, submits a job
only from the place for that, and changes the row, if at all, by writing the
decision. -/
theorem reviewAt_step {P : Platform Tables Fs} (hP : P.store = idealStore) (hJ : P.json.Lawful)
    {r : ReviewRequest} {pl : ReviewPlace} {op : MasterOp} {cont : op.Res → MasterProg Reply}
    (hcall : reviewAt P.json r pl = .call op cont) (e : Env) (s : MasterState Tables Fs)
    (k : String) :
    ∃ pl', cont (s.exec P e op).1 = reviewAt P.json r pl' ∧ pl.Next r pl' ∧
      (submits op = true → ∃ req now, pl = .submitting req now) ∧
      (stored P.json k (s.exec P e op).2.adminDb = stored P.json k s.adminDb ∨
        ∃ req now, pl = .storing req now ∧ stored P.json k (s.exec P e op).2.adminDb =
          some (MasterService.reviewed now r req)) := by
  cases pl with
  | reading =>
    rw [reviewAt_reading] at hcall
    cases hcall
    refine ⟨_, rfl, ?_, (fun h => by cases h), Or.inl ?_⟩
    · rw [reviewRead]
      split
      · exact .away (Or.inl rfl)
      · split
        · exact .away (Or.inr rfl)
        · exact .found _
    · rw [stored, stored, jobRequests_exec (keepsRequests_of_eq hP) rfl]
  | deciding req =>
    rw [reviewAt_deciding] at hcall
    cases hcall
    refine ⟨_, rfl, ?_, (fun h => by cases h), Or.inl rfl⟩
    split
    · rename_i h
      exact .approve req _ h
    · rename_i h
      exact .reject req _ (Bool.not_eq_true _ ▸ h)
  | submitting req now =>
    rw [reviewAt_submitting] at hcall
    cases hcall
    exact ⟨_, rfl, .submitted req now, fun _ => ⟨req, now, rfl⟩, Or.inl rfl⟩
  | storing req now =>
    rw [reviewAt_storing] at hcall
    cases hd : P.json.print (MasterService.reviewed now r req) with
    | none =>
      rw [hd] at hcall
      cases hcall
    | some data =>
      rw [hd] at hcall
      cases hcall
      refine ⟨_, rfl, .stored req now, (fun h => by cases h), ?_⟩
      rcases stored_write (e := e) (s := s) hP hJ hd req.requestId
        (MasterService.reviewed now r req).status.toInt k with hsame | ⟨-, -, hnew⟩
      · exact Or.inl hsame
      · exact Or.inr ⟨req, now, rfl, hnew⟩
  | ended a => cases hcall

/-- Where an update is. -/
inductive UpdatePlace where
  | reading
  | storing (req : JobRequest)
  | ended (a : Reply)

/-- What is left of an update. -/
def updateAt (J : JsonCodec) (request : JobRequest) : UpdatePlace → MasterProg Reply
  | .reading => Reply.status <$> MasterService.updateJobRequest J request
  | .storing req =>
    Reply.status <$>
      MasterService.storeUpdate J (MasterService.withArchive request.requestedSpec.archivePath req)
  | .ended a => .ret a

/-- Where an update goes from its read. -/
def updateRead (J : JsonCodec) (request : JobRequest) (requests : List (String × String)) :
    UpdatePlace :=
  if MasterService.findRequest request.requestId requests = "" then
    .ended (.status { success := false, message := "Request not found" })
  else
    match J.parse (MasterService.findRequest request.requestId requests) with
    | none => .ended (.status { success := false, message := "Failed to parse request" })
    | some req => .storing req

section UpdateAt

variable (J : JsonCodec) (request req : JobRequest)

theorem updateAt_reading :
    updateAt J request .reading = .call (.store .listRequests) fun requests =>
      updateAt J request (updateRead J request requests) := by
  refine congrArg (Prog.call _) (funext fun requests => ?_)
  change Reply.status <$> MasterService.updateFound J request _ = _
  rw [updateRead, MasterService.updateFound]
  split
  · rfl
  · cases J.parse (MasterService.findRequest request.requestId requests) <;> rfl

@[simp] theorem withArchive_requestId (path : String) :
    (MasterService.withArchive path req).requestId = req.requestId := by
  rw [MasterService.withArchive]
  split <;> rfl

@[simp] theorem withArchive_status (path : String) :
    (MasterService.withArchive path req).status = req.status := by
  rw [MasterService.withArchive]
  split <;> rfl

theorem updateAt_storing :
    updateAt J request (.storing req) =
      match J.print (MasterService.withArchive request.requestedSpec.archivePath req) with
      | none => .ret (.status { success := false, message := "Failed to serialize update" })
      | some data => .call (.store (.updateRequestStatus req.requestId req.status.toInt data))
          fun _ => updateAt J request (.ended (.status { success := true })) := by
  rw [updateAt, MasterService.storeUpdate]
  cases J.print (MasterService.withArchive request.requestedSpec.archivePath req) with
  | none => rfl
  | some data =>
    rw [withArchive_requestId, withArchive_status]
    rfl

end UpdateAt

/-! ### A request and its JSON -/

/-- The conversions, known at a list of requests. -/
def tableCodec (l : List (JobRequest × String)) : JsonCodec where
  print req := (l.find? fun p => p.1 = req).map Prod.snd
  parse data := (l.find? fun p => p.2 = data).map Prod.fst

theorem tableCodec_lawful {l : List (JobRequest × String)} (hnd : (l.map Prod.snd).Nodup)
    (htext : ∀ p ∈ l, p.2 ≠ "" ∧ '\x00' ∉ p.2.toList) : (tableCodec l).Lawful where
  parse_print req data h := by
    obtain ⟨p, hp, rfl⟩ := Option.map_eq_some_iff.mp h
    have hreq : p.1 = req := by simpa using List.find?_some hp
    have hmem := List.mem_of_find?_eq_some hp
    -- the entry with this text is the one it was printed from
    cases hf : l.find? fun p' => p'.2 = p.2 with
    | none => simpa using List.find?_eq_none.mp hf p hmem
    | some p' =>
      have hdata : p'.2 = p.2 := by simpa using List.find?_some hf
      have hp' : p' = p := List.inj_on_of_nodup_map hnd (List.mem_of_find?_eq_some hf) hmem hdata
      change (l.find? fun p' => p'.2 = p.2).map Prod.fst = some req
      rw [hf, hp', ← hreq]
      rfl
  print_no_nul req data h := by
    obtain ⟨p, hp, rfl⟩ := Option.map_eq_some_iff.mp h
    exact (htext p (List.mem_of_find?_eq_some hp)).2
  parse_empty := by
    have hnone : l.find? (fun p => p.2 = "") = none := by
      refine List.find?_eq_none.mpr fun p hp => ?_
      simpa using (htext p hp).1
    change (l.find? fun p => p.2 = "").map Prod.fst = none
    rw [hnone]
    rfl

/-- A request as it is stored when it arrives, with nothing but its
identifier. -/
def annsRequest : JobRequest := { requestId := "req-1" }

/-- The request with an uploaded archive. -/
def annsUpload : JobRequest :=
  { requestId := "req-1", requestedSpec := { archivePath := "/a.tgz" } }

/-- A decision on a request at time 105. -/
def decidedAt105 (status : JobRequestStatus) (req : JobRequest) : JobRequest :=
  { req with status := status, reviewedAt := 105 }

/-- The JSON of Ann's request, of her upload, and of decisions on them. -/
def annsCodec : JsonCodec := tableCodec
  [(annsRequest, "\x7b\"requestId\":\"req-1\"\x7d"),
    (annsUpload,
      "\x7b\"requestId\":\"req-1\",\"requestedSpec\":\x7b\"archivePath\":\"/a.tgz\"\x7d\x7d"),
    (decidedAt105 .approved annsRequest,
      "\x7b\"requestId\":\"req-1\",\"status\":\"JOB_REQUEST_APPROVED\",\"reviewedAt\":\"105\"\x7d"),
    (decidedAt105 .rejected annsRequest,
      "\x7b\"requestId\":\"req-1\",\"status\":\"JOB_REQUEST_REJECTED\",\"reviewedAt\":\"105\"\x7d"),
    (decidedAt105 .approved annsUpload,
      "\x7b\"requestId\":\"req-1\",\"requestedSpec\":\x7b\"archivePath\":\"/a.tgz\"\x7d,\"status\":\"JOB_REQUEST_APPROVED\",\"reviewedAt\":\"105\"\x7d")]

theorem annsCodec_lawful : annsCodec.Lawful := by
  refine tableCodec_lawful (by simp) ?_
  simp only [List.forall_mem_cons]
  exact ⟨⟨by simp, nul_not_mem_ofList (by decide)⟩, ⟨by simp, nul_not_mem_ofList (by decide)⟩,
    ⟨by simp, nul_not_mem_ofList (by decide)⟩, ⟨by simp, nul_not_mem_ofList (by decide)⟩,
    ⟨by simp, nul_not_mem_ofList (by decide)⟩, by simp⟩

/-- The ideal store with these conversions. -/
def annsPlatform : Platform Tables Unit :=
  { barePlatform with store := idealStore, json := annsCodec }

/-- The database in which Ann's request is pending. -/
def annsTables : Tables where
  jobRequests := AList.insert "req-1" ⟨"", 0, (annsCodec.print annsRequest).getD ""⟩ ∅

theorem stored_annsTables : stored annsCodec "req-1" annsTables = some annsRequest := by decide

theorem coherent_annsTables : Coherent annsCodec annsTables := by
  intro k row req hrow hreq
  have hone : annsTables.jobRequests.lookup k =
      if k = "req-1" then some ⟨"", 0, (annsCodec.print annsRequest).getD ""⟩ else none := by
    rw [annsTables, Table.lookup_insert]
    rfl
  rw [hone] at hrow
  split at hrow
  · rename_i hk
    subst hk
    obtain rfl := Option.some.inj hrow
    obtain rfl : annsRequest = req := by
      have h : annsCodec.parse ((annsCodec.print annsRequest).getD "") = some annsRequest := by
        decide
      exact Option.some.inj (h.symm.trans hreq)
    exact ⟨by decide, rfl⟩
  · cases hrow

/-- The state of a master that has this database and nothing else. -/
def annsState : MasterState Tables Unit where
  jobMgr := {}
  nodeRegistry := {}
  adminDb := annsTables
  fairShare := ()

end CertOS
