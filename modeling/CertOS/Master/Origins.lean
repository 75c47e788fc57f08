import CertOS.Interleave.RelyGuarantee
import CertOS.Master.Confined
import CertOS.Master.Requests
import CertOS.Master.Submissions

/-!
# Where the records of the master come from

A record of the request table is written many times, and always as a whole: it is inserted
by a submission, and an upload and a review read it, change some fields, and write it back.
None of these writers looks at what the others have done in the meantime, so a write may
undo another one; but it never makes anything up. Every record stems from one submission,
whose name, address, goal and specification it has; its archive is that of the submission
or of an upload for this request, and its decision that of a review of this request
(`CertOS.Explained`).

A job gets into its table in one of two ways: a call of `SubmitJob` submits it, or the
approval of a request does, with what the record that the review has read asks for. So
every job was asked for by somebody (`CertOS.AskedFor`).

The rule is that of rely and guarantee. A writer relies on one thing, that the record it
has read could be explained when it was read; and since an explanation refers to the tasks
that were started, and not to the table, it is as good at the time of the write.
-/

namespace CertOS

open Interleave

variable {Fs : Type}

/-- The task inserts or writes back a request, or submits a job. -/
def Task.records : Task → Bool
  | .rpc _ (.submitJob _) => true
  | t => t.onRequests

/-! ### Requests -/

/-- The request as `SubmitPublicRequest` stores it: with an identifier, unless it has come
with one, stamped, and pending. -/
structure RecordOf (request r : JobRequest) : Prop where
  eq : r = { request with requestId := r.requestId, submittedAt := r.submittedAt,
                          status := .pending }
  requestId : request.requestId ≠ "" → r.requestId = request.requestId

/-- **The later record stems from the earlier one**, by tasks of `T` for the request with
key `k`: the archive may be that of an upload, and the decision that of a review, and the
rest is as it was. -/
structure StemsFrom (T : Task → Prop) (k : String) (r₀ r : JobRequest) : Prop where
  same : r = { r₀ with
    requestedSpec := { r₀.requestedSpec with archivePath := r.requestedSpec.archivePath }
    status := r.status
    reviewComment := r.reviewComment
    reviewedAt := r.reviewedAt }
  archive : r.requestedSpec.archivePath = r₀.requestedSpec.archivePath ∨
    ∃ metadata u, T (.rpc metadata (.updateJobRequest u)) ∧ u.requestId = k ∧
      r.requestedSpec.archivePath = u.requestedSpec.archivePath
  decision : (r.status = r₀.status ∧ r.reviewComment = r₀.reviewComment ∧
      r.reviewedAt = r₀.reviewedAt) ∨
    ∃ metadata v, T (.rpc metadata (.adminReviewRequest v)) ∧ v.requestId = k ∧
      r.status = (if v.approve then .approved else .rejected) ∧ r.reviewComment = v.comment

/-- A record that the table had at the start, or that of a submission. -/
def Origin (J : JsonCodec) (adminDb : Tables) (T : Task → Prop) (k : String) (r₀ : JobRequest) :
    Prop :=
  stored J k adminDb = some r₀ ∨
    ∃ metadata request, T (.rpc metadata (.submitPublicRequest request)) ∧ RecordOf request r₀

/-- **The record can be explained.** -/
def Explained (J : JsonCodec) (adminDb : Tables) (T : Task → Prop) (k : String)
    (r : JobRequest) : Prop :=
  ∃ r₀, Origin J adminDb T k r₀ ∧ StemsFrom T k r₀ r

section Explanations

variable {T T' : Task → Prop} {k : String} {r₀ r : JobRequest}

theorem StemsFrom.refl (T : Task → Prop) (k : String) (r : JobRequest) : StemsFrom T k r r :=
  ⟨rfl, Or.inl rfl, Or.inl ⟨rfl, rfl, rfl⟩⟩

/-- An upload writes the record back with its archive. -/
theorem StemsFrom.withArchive (h : StemsFrom T k r₀ r) {metadata : Metadata} {u : JobRequest}
    (ht : T (.rpc metadata (.updateJobRequest u))) (hu : u.requestId = k) :
    StemsFrom T k r₀ (MasterService.withArchive u.requestedSpec.archivePath r) := by
  rw [MasterService.withArchive]
  split
  · exact h
  · refine ⟨?_, Or.inr ⟨metadata, u, ht, hu, rfl⟩, h.decision⟩
    rw [h.same]

/-- A review writes the record back with its decision. -/
theorem StemsFrom.reviewed (h : StemsFrom T k r₀ r) {metadata : Metadata} {v : ReviewRequest}
    (ht : T (.rpc metadata (.adminReviewRequest v))) (hv : v.requestId = k) (now : ℤ) :
    StemsFrom T k r₀ (MasterService.reviewed now v r) := by
  refine ⟨?_, h.archive, Or.inr ⟨metadata, v, ht, hv, rfl, rfl⟩⟩
  rw [h.same]
  rfl

/-- An explanation refers to tasks, and more tasks do not spoil it. -/
theorem Explained.mono {J : JsonCodec} {adminDb : Tables} (h : Explained J adminDb T k r)
    (hT : ∀ t, t.records = true → T t → T' t) : Explained J adminDb T' k r := by
  obtain ⟨r₀, horigin, hsame, harchive, hdecision⟩ := h
  refine ⟨r₀, horigin.imp_right ?_, hsame, harchive.imp_right ?_, hdecision.imp_right ?_⟩
  · rintro ⟨metadata, request, ht, hr⟩
    exact ⟨metadata, request, hT _ rfl ht, hr⟩
  · rintro ⟨metadata, u, ht, hu⟩
    exact ⟨metadata, u, hT _ rfl ht, hu⟩
  · rintro ⟨metadata, v, ht, hv⟩
    exact ⟨metadata, v, hT _ rfl ht, hv⟩

end Explanations

/-! ### Jobs -/

/-- **The job was asked for**, with this specification and in these names: by a call of
`SubmitJob`, in the name the call goes by, or by the approval of a request, in the name of
the applicant. -/
inductive AskedFor (J : JsonCodec) (adminDb : Tables) (T : Task → Prop) (spec : JobSpec) :
    String → String → Prop
  | call (metadata : Metadata) (h : T (.rpc metadata (.submitJob spec))) :
    AskedFor J adminDb T spec (MasterService.callerName metadata)
      (MasterService.callerName metadata)
  | request (metadata : Metadata) (v : ReviewRequest) (r : JobRequest)
      (h : T (.rpc metadata (.adminReviewRequest v))) (happrove : v.approve = true)
      (hr : Explained J adminDb T v.requestId r) (hspec : r.requestedSpec = spec) :
    AskedFor J adminDb T spec "public-user" r.applicantName

theorem AskedFor.mono {J : JsonCodec} {adminDb : Tables} {T T' : Task → Prop} {spec : JobSpec}
    {userId username : String} (h : AskedFor J adminDb T spec userId username)
    (hT : ∀ t, t.records = true → T t → T' t) : AskedFor J adminDb T' spec userId username := by
  cases h with
  | call metadata h => exact .call metadata (hT _ rfl h)
  | request metadata v r h happrove hr hspec =>
    exact .request metadata v r (hT _ rfl h) happrove (hr.mono hT) hspec

/-! ### The pact -/

/-- Every row of the request table can be read, and is filed under its own identifier. -/
def Readable (J : JsonCodec) (t : Tables) : Prop :=
  ∀ k row, t.jobRequests.lookup k = some row →
    ∃ r, J.parse row.data = some r ∧ cStr r.requestId = k

/-- An empty table can be read. -/
theorem readable_empty (J : JsonCodec) : Readable J {} := by
  intro k row h
  cases h

/-- **Everything in the two tables can be explained.** -/
structure Origins (J : JsonCodec) (adminDb : Tables) (T : Task → Prop)
    (s : MasterState Tables Fs) : Prop where
  requests : ∀ k row, s.adminDb.jobRequests.lookup k = some row →
    ∃ r, J.parse row.data = some r ∧ cStr r.requestId = k ∧ Explained J adminDb T k r
  jobs : ∀ j info, s.jobMgr.jobs.lookup j = some info →
    AskedFor J adminDb T info.spec info.userId info.username

/-- **The pact.** -/
def originPact (J : JsonCodec) (adminDb : Tables) (T : Task → Prop) :
    Pact (MasterState Tables Fs) where
  Inv := Origins J adminDb T
  Rel _ _ := True
  refl _ := trivial
  trans _ _ := trivial

theorem Origins.mono {J : JsonCodec} {adminDb : Tables} {T T' : Task → Prop}
    {s : MasterState Tables Fs} (h : Origins J adminDb T s)
    (hT : ∀ t, t.records = true → T t → T' t) : Origins J adminDb T' s where
  requests k row hrow := by
    obtain ⟨r, hparse, hk, hr⟩ := h.requests k row hrow
    exact ⟨r, hparse, hk, hr.mono hT⟩
  jobs j info hj := (h.jobs j info hj).mono hT

theorem Origins.of_stored {J : JsonCodec} {adminDb : Tables} {T : Task → Prop}
    {s : MasterState Tables Fs} (h : Origins J adminDb T s) {k : String} {r : JobRequest}
    (hr : stored J k s.adminDb = some r) : cStr r.requestId = k ∧ Explained J adminDb T k r := by
  obtain ⟨row, hrow, hparse⟩ := Option.bind_eq_some_iff.mp hr
  obtain ⟨r', hparse', hrest⟩ := h.requests k row hrow
  obtain rfl := Option.some.inj (hparse.symm.trans hparse')
  exact hrest

section Operations

variable {P : Platform Tables Fs} {adminDb : Tables} {T : Task → Prop} {e : Env}
  {s : MasterState Tables Fs} {r : JobRequest} {data : String}

/-- **An operation that writes no request and submits no job keeps to the pact.** -/
theorem Origins.exec {op : MasterOp} (hP : P.store.KeepsRequests)
    (hw : writesRequests op = false) (hj : submits op = false)
    (hs : Origins P.json adminDb T s) : Origins P.json adminDb T (s.exec P e op).2 := by
  refine ⟨fun k row hrow => hs.requests k row (jobRequests_exec (e := e) (s := s) hP hw ▸ hrow),
    fun j info hinfo => ?_⟩
  cases op with
  | job o =>
    have ho : o.isSubmit = false := by
      cases o with
      | submitJob => cases hj
      | _ => rfl
    rw [MasterState.exec_job, JobManager.lookup_exec _ _ _ ho] at hinfo
    obtain ⟨info₀, hinfo₀, rfl⟩ := Option.map_eq_some_iff.mp hinfo
    obtain ⟨hspec, huser, hname, -⟩ : _ ∧ _ ∧ _ ∧ _ := by
      simpa only [JobInfo.data, SubmissionData.mk.injEq] using
        JobManager.touch_data e.now o j info₀
    rw [hspec, huser, hname]
    exact hs.jobs j info₀ hinfo₀
  | _ => exact hs.jobs j info hinfo

/-- **A submission keeps to the pact**, if the job was asked for. -/
theorem Origins.submitJob {spec : JobSpec} {userId username : String}
    (hask : AskedFor P.json adminDb T spec userId username) (hs : Origins P.json adminDb T s) :
    Origins P.json adminDb T (s.exec P e (.job (.submitJob spec userId username))).2 := by
  refine ⟨hs.requests, fun j info hinfo => ?_⟩
  rw [MasterState.exec_job, JobManager.exec_submitJob_jobs, Table.lookup_insert] at hinfo
  split at hinfo
  · obtain rfl := Option.some.inj hinfo
    exact hask
  · exact hs.jobs j info hinfo

/-- **An insertion keeps to the pact**, if the record it carries can be explained. -/
theorem Origins.addJobRequest (hP : P.store.KeepsRequests) (hJ : P.json.Lawful)
    (hd : P.json.print r = some data) (email : String)
    (hr : Explained P.json adminDb T (cStr r.requestId) r) (hs : Origins P.json adminDb T s) :
    Origins P.json adminDb T
      (s.exec P e (.store (.addJobRequest r.requestId email r.status.toInt data))).2 := by
  refine ⟨fun k row hrow => ?_, hs.jobs⟩
  simp only [MasterState.exec_store, hP.addJobRequest, StateStore.addJobRequest] at hrow
  split at hrow
  · rw [Table.lookup_insert] at hrow
    split at hrow
    · -- the text has no NUL, so it is stored whole
      rename_i hk
      obtain rfl := Option.some.inj hrow
      refine ⟨r, ?_, hk.symm, hk.symm ▸ hr⟩
      dsimp only
      rw [cStr_of_nul_not_mem (hJ.print_no_nul r data hd)]
      exact hJ.parse_print r data hd
    · exact hs.requests k row hrow
  · exact hs.requests k row hrow

/-- **An update keeps to the pact**, if the record it carries can be explained. -/
theorem Origins.updateRequestStatus (hP : P.store.KeepsRequests) (hJ : P.json.Lawful)
    (hd : P.json.print r = some data) (hr : Explained P.json adminDb T (cStr r.requestId) r)
    (hs : Origins P.json adminDb T s) :
    Origins P.json adminDb T
      (s.exec P e (.store (.updateRequestStatus r.requestId r.status.toInt data))).2 := by
  refine ⟨fun k row hrow => ?_, hs.jobs⟩
  have hwrite : WellFormed P.json
      (.store (.updateRequestStatus r.requestId r.status.toInt data)) := ⟨r, hd, rfl, rfl⟩
  rcases lookup_jobRequests_exec (e := e) (s := s) hP hJ hwrite k with
    hsame | ⟨row', r', hrow', hparse, hk, -, ⟨⟨_, _, _, _, hop⟩, -⟩ | ⟨-, data', hop, hd'⟩⟩
  · exact hs.requests k row (hsame ▸ hrow)
  · cases hop
  · obtain rfl := Option.some.inj (hrow.symm.trans hrow')
    -- both texts are the one that was written, so the two requests are one
    simp only [MasterOp.store.injEq, StoreOp.updateRequestStatus.injEq] at hop
    obtain ⟨-, -, rfl⟩ := hop
    obtain rfl : r = r' :=
      Option.some.inj ((hJ.parse_print r _ hd).symm.trans (hJ.parse_print r' _ hd'))
    exact ⟨r, hparse, hk, hk ▸ hr⟩

end Operations

/-! ### The handlers -/

section Handlers

variable {P : Platform Tables Fs} {adminDb : Tables} {T : Task → Prop}
  {s : MasterState Tables Fs} {log : List (MasterState Tables Fs × MasterState Tables Fs)}
  {r : JobRequest}

/-- A step of a handler that writes no request and submits no job. -/
theorem originPact_idle (hP : P.store.KeepsRequests) {α : Type} {op : MasterOp}
    (hw : writesRequests op = false) (hj : submits op = false) {k : op.Res → MasterProg α}
    (hk : ∀ e s', Origins P.json adminDb T s' →
      (k (s'.exec P e op).1).Meets (MasterState.exec P) (originPact P.json adminDb T)
        (fun _ _ => True) (s'.exec P e op).2 (log ++ [(s', (s'.exec P e op).2)])) :
    (Prog.call op k).Meets (MasterState.exec P) (originPact P.json adminDb T) (fun _ _ => True)
      s log :=
  .call (fun _ _ _ hs => ⟨Origins.exec hP hw hj hs, trivial⟩) fun e s' _ hs => hk e s' hs

/-- A handler that writes a record that can be explained, and returns. -/
theorem originPact_write (hP : P.store.KeepsRequests) (hJ : P.json.Lawful) {α : Type} {a : α}
    {data : String} (hd : P.json.print r = some data)
    (hr : Explained P.json adminDb T (cStr r.requestId) r) :
    (Prog.call (MasterOp.store (.updateRequestStatus r.requestId r.status.toInt data))
      fun _ => Prog.ret a).Meets (MasterState.exec P) (originPact P.json adminDb T)
        (fun _ _ => True) s log :=
  .call (fun _ _ _ hs => ⟨Origins.updateRequestStatus hP hJ hd hr hs, trivial⟩)
    fun _ _ _ _ => trivial

/-- **What a handler finds in a listing can be explained**, and names the row it was read
from. -/
theorem explained_of_listing (hP : P.store.KeepsRequests) {e : Env} {k : String}
    (hs : Origins P.json adminDb T s)
    (hne : MasterService.findRequest k (s.exec P e (.store .listRequests)).1 ≠ "")
    (hp : P.json.parse (MasterService.findRequest k (s.exec P e (.store .listRequests)).1) =
      some r) :
    cStr r.requestId = k ∧ Explained P.json adminDb T k r := by
  have hs' : Origins P.json adminDb T (s.exec P e (.store .listRequests)).2 :=
    Origins.exec hP rfl rfl hs
  exact hs'.of_stored (stored_of_listing hP hne hp)

theorem originPact_updateFound (hP : P.store.KeepsRequests) (hJ : P.json.Lawful)
    {metadata : Metadata} {u : JobRequest} (ht : T (.rpc metadata (.updateJobRequest u)))
    {targetJson : String}
    (h : ∀ r, targetJson ≠ "" → P.json.parse targetJson = some r →
      cStr r.requestId = u.requestId ∧ Explained P.json adminDb T u.requestId r) :
    (MasterService.updateFound P.json u targetJson).Meets (MasterState.exec P)
      (originPact P.json adminDb T) (fun _ _ => True) s log := by
  rw [MasterService.updateFound]
  split
  · trivial
  · rename_i hne
    split
    · trivial
    · rename_i r hp
      obtain ⟨hk, r₀, horigin, hstems⟩ := h r hne hp
      rw [MasterService.storeUpdate]
      cases hd : P.json.print (MasterService.withArchive u.requestedSpec.archivePath r) with
      | none => trivial
      | some data =>
        refine originPact_write hP hJ hd ?_
        rw [withArchive_requestId, hk]
        exact ⟨r₀, horigin, hstems.withArchive ht rfl⟩

theorem originPact_storeReview (hP : P.store.KeepsRequests) (hJ : P.json.Lawful)
    (v : ReviewRequest) (hr : Explained P.json adminDb T (cStr r.requestId) r) :
    (MasterService.storeReview P.json v r).Meets (MasterState.exec P)
      (originPact P.json adminDb T) (fun _ _ => True) s log := by
  rw [MasterService.storeReview]
  cases hd : P.json.print r with
  | none => trivial
  | some data => exact originPact_write hP hJ hd hr

theorem originPact_reviewFound (hP : P.store.KeepsRequests) (hJ : P.json.Lawful)
    {metadata : Metadata} {v : ReviewRequest} (ht : T (.rpc metadata (.adminReviewRequest v)))
    {targetJson : String}
    (h : ∀ r, targetJson ≠ "" → P.json.parse targetJson = some r →
      cStr r.requestId = v.requestId ∧ Explained P.json adminDb T v.requestId r) :
    (MasterService.reviewFound P.json v targetJson).Meets (MasterState.exec P)
      (originPact P.json adminDb T) (fun _ _ => True) s log := by
  rw [MasterService.reviewFound]
  split
  · trivial
  · rename_i hne
    split
    · trivial
    · rename_i r hp
      obtain ⟨hk, hr⟩ := h r hne hp
      refine originPact_idle hP rfl rfl fun e s' _ => ?_
      have hreviewed : Explained P.json adminDb T
          (cStr (MasterService.reviewed e.now v r).requestId)
          (MasterService.reviewed e.now v r) := by
        obtain ⟨r₀, horigin, hstems⟩ := hr
        exact ⟨r₀, hk.symm ▸ horigin, hk.symm ▸ hstems.reviewed ht rfl e.now⟩
      split
      · -- the job is submitted with what the record that was read asks for
        rename_i happrove
        have hask := AskedFor.request metadata v r ht happrove hr rfl
        exact .call (fun e s' _ hs => ⟨hs.submitJob hask, trivial⟩)
          fun _ _ _ _ => originPact_storeReview hP hJ v hreviewed
      · exact originPact_storeReview hP hJ v hreviewed

theorem originPact_storeRequest (hP : P.store.KeepsRequests) (hJ : P.json.Lawful)
    {metadata : Metadata} {request : JobRequest}
    (ht : T (.rpc metadata (.submitPublicRequest request))) (now : ℤ) {id : String}
    (hid : request.requestId ≠ "" → id = request.requestId) :
    (MasterService.storeRequest P.json now request id).Meets (MasterState.exec P)
      (originPact P.json adminDb T) (fun _ _ => True) s log := by
  rw [MasterService.storeRequest]
  dsimp only
  cases hd : P.json.print
      { request with requestId := id, submittedAt := now, status := .pending } with
  | none => trivial
  | some data =>
    refine .call (fun e s' _ hs => ⟨Origins.addJobRequest hP hJ hd _ ?_ hs, trivial⟩)
      fun e s' _ _ => ?_
    · exact ⟨_, Or.inr ⟨metadata, request, ht, rfl, hid⟩, .refl T _ _⟩
    · dsimp only [Prog.bind]
      split <;> trivial

/-- The other tasks do neither. -/
theorem only_of_not_records (P : Platform Tables Fs) {t : Task} (h : t.records = false) :
    ((master P).body t).Only fun op => writesRequests op = false ∧ submits op = false := by
  have hon : t.onRequests = false := by
    cases t with
    | rpc metadata rpc =>
      cases rpc with
      | submitJob spec => rfl
      | _ => exact h
    | _ => rfl
  refine (only_of_not_onRequests P hon).and ((only_mayDo P t).mono fun op hop => ?_)
  cases op with
  | job o =>
    cases o with
    | submitJob spec userId username =>
      cases t with
      | rpc metadata rpc =>
        cases rpc with
        | submitJob spec => cases h
        | adminReviewRequest v => cases h
        | _ => cases hop
      | _ => cases hop
    | _ => rfl
  | _ => rfl

/-- **Every task keeps to the pact.** -/
theorem originPact_body (hP : P.store.KeepsRequests) (hJ : P.json.Lawful) {t : Task} (ht : T t) :
    ((master P).body t).Meets (MasterState.exec P) (originPact P.json adminDb T)
      (fun _ _ => True) s log := by
  cases hrec : t.records with
  | false =>
    exact (only_of_not_records P hrec).meets
      (fun e o s ho hs => ⟨Origins.exec hP ho.1 ho.2 hs, trivial⟩) fun _ _ => trivial
  | true =>
    cases t with
    | rpc metadata rpc =>
      rw [master_body_rpc]
      cases rpc with
      | submitJob spec =>
        refine Prog.meets_map.mpr (.call
          (fun e s' _ hs => ⟨hs.submitJob (.call metadata ht), trivial⟩) fun e s' _ _ => ?_)
        refine originPact_idle hP rfl rfl fun e s' _ => ?_
        dsimp only [Prog.bind]
        split <;> trivial
      | submitPublicRequest request =>
        refine Prog.meets_map.mpr (originPact_idle hP rfl rfl fun e s' _ => ?_)
        split
        · rename_i hempty
          exact originPact_idle hP rfl rfl fun _ _ _ =>
            originPact_storeRequest hP hJ ht _ fun hne => absurd hempty hne
        · exact originPact_storeRequest hP hJ ht _ fun _ => rfl
      | updateJobRequest u =>
        exact Prog.meets_map.mpr (originPact_idle hP rfl rfl fun e s' hs =>
          originPact_updateFound hP hJ ht fun r hne hp => explained_of_listing hP hs hne hp)
      | adminReviewRequest v =>
        exact Prog.meets_map.mpr (originPact_idle hP rfl rfl fun e s' hs =>
          originPact_reviewFound hP hJ ht fun r hne hp => explained_of_listing hP hs hne hp)
      | _ => cases hrec
    | _ => cases hrec

end Handlers

/-! ### The runs -/

section Runs

variable {P : Platform Tables Fs} {adminDb : Tables} {T : Task → Prop}
  {ok : MasterConfig Tables Fs → MasterEvent → Prop} {es : List MasterEvent}
  {c c' : MasterConfig Tables Fs}

/-- **What can be explained remains explained** where no text leaves its literal, if the
explanations may refer to the tasks that are started. -/
theorem Origins.run_of_keepsRequests (hP : P.store.KeepsRequests) (hJ : P.json.Lawful)
    (h₀ : Origins P.json adminDb T c.state) (hc : c.threads = [])
    (hT : ∀ t, .start t ∈ es → T t) (h : (master P).Run ok c es c') :
    Origins P.json adminDb T c'.state :=
  (h.of_mem.meets (G := originPact P.json adminDb T) (Q := fun _ _ _ => True) h₀ hc
    (fun c t ht s => originPact_body hP hJ (hT t ht)) fun o r t ht => by cases ht).inv

/-- So it does in every run whose texts stay in their literals. -/
theorem Origins.run {E : SqlEngine} (hP : P.store = sqlStore E) (hJ : P.json.Lawful)
    (h₀ : Origins P.json adminDb T c.state) (hc : c.threads = [])
    (hT : ∀ t, .start t ∈ es → T t) (hkv : ∀ ev ∈ es, contained ev = true)
    (h : (master P).Run ok c es c') : Origins P.json adminDb T c'.state :=
  run_of_keepsRequests (P := P.confined E) (confinedStore_keepsRequests E) hJ h₀ hc hT
    (confined_run hP (fun _ ev hev => hkv ev hev) h.of_mem)

/-- Before the first call, the tables hold what the table of requests has held before. -/
theorem explained_of_readable (h : Readable P.json adminDb) (k : String) (row : RequestRow)
    (hrow : adminDb.jobRequests.lookup k = some row) : ∃ r, P.json.parse row.data = some r ∧
      cStr r.requestId = k ∧ Explained P.json adminDb T k r := by
  obtain ⟨r, hparse, hk⟩ := h k row hrow
  exact ⟨r, hparse, hk, r, Or.inl (Option.bind_eq_some_iff.mpr ⟨row, hrow, hparse⟩), .refl _ k r⟩

theorem Origins.start {db : Option Tables} {fairShare : Fs} (h : Readable P.json adminDb) :
    Origins P.json adminDb T (masterStart db adminDb fairShare).state :=
  ⟨explained_of_readable h, fun j info hj => by cases hj⟩

end Runs

end CertOS
