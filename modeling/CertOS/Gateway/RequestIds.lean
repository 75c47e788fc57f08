import CertOS.Gateway.RestRoutes
import CertOS.Master.Requests

/-!
# Identifiers in paths

The web client names a request in the path of an upload and of a review. The handler cuts
the identifier out again, with the length of what stands before it counted by hand and the
end where the word behind it occurs first.

Both lengths are off by one, in different directions: the upload keeps the slash before the
identifier (`CertOS.RestRoutes.uploadCut`), the review loses its first character
(`CertOS.RestRoutes.reviewCut`). So neither route ever names the request the client means
(`CertOS.RestRoutes.upload_never_recovers`, `CertOS.RestRoutes.review_never_recovers`). An
identifier that begins with the word that is searched ends the piece before it has begun;
in the review the length then wraps around, and the piece is the rest of the path.
-/

namespace CertOS

open Interleave

namespace RestRoutes

variable {L : JsonLibrary} {req : HttpRequest} {id : String}

/-! ### The paths of the web client -/

/-- The path to which the web client sends the file of a request. -/
def uploadTarget (id : String) : String := "/api/v1/public/request/" ++ id ++ "/upload"

/-- The path to which the web client sends a decision on a request. -/
def reviewTarget (id : String) : String := "/api/v1/admin/requests/" ++ id ++ "/review"

/-- The path of such a request is its target, which does not end in a slash. -/
theorem normPath_of_target {before after : String} {pre w : List Char} {c : Char}
    (h : req.target = before ++ id ++ after) (hbefore : before.toList = pre ++ ['/'])
    (hafter : after.toList = '/' :: (w ++ [c])) (hc : c ≠ '/') :
    normPath req = pre ++ '/' :: (id.toList ++ '/' :: (w ++ [c])) := by
  have htarget : req.target.toList = (pre ++ '/' :: (id.toList ++ '/' :: w)) ++ [c] := by
    rw [h, String.toList_append, String.toList_append, hbefore, hafter]
    simp only [List.append_assoc, List.cons_append, List.nil_append]
  have hlast : ¬ (1 < req.target.toList.length ∧ req.target.toList.getLast? = some '/') := by
    rw [htarget, List.getLast?_concat]
    exact fun hslash => hc (Option.some.inj hslash.2)
  rw [normPath, if_neg hlast, htarget]
  simp only [List.append_assoc, List.cons_append]

/-- A path begins with its head and the slash behind it. -/
theorem prefix_of_head {before : String} {pre s : List Char} (h : before.toList = pre ++ ['/']) :
    before.toList <+: pre ++ '/' :: s := by
  rw [h]
  exact ⟨s, by rw [List.append_assoc, List.singleton_append]⟩

theorem normPath_upload (h : req.target = uploadTarget id) :
    normPath req =
      "/api/v1/public/request".toList ++ '/' :: (id.toList ++ '/' :: "upload".toList) :=
  normPath_of_target (w := "uploa".toList) (c := 'd') h (by decide) (by decide) (by decide)

theorem normPath_review (h : req.target = reviewTarget id) :
    normPath req =
      "/api/v1/admin/requests".toList ++ '/' :: (id.toList ++ '/' :: "review".toList) :=
  normPath_of_target (w := "revie".toList) (c := 'w') h (by decide) (by decide) (by decide)

/-- Where the word of the upload is found. -/
theorem find_upload (hid : '/' ∉ id.toList) :
    Text.find "/upload".toList
        ("/api/v1/public/request".toList ++ '/' :: (id.toList ++ '/' :: "upload".toList)) =
      some (if "upload".toList <+: id.toList then 22 else 23 + id.toList.length) :=
  Text.find_behind_name (by decide) hid (by decide)

/-- Where the word of the review is found. -/
theorem find_review (hid : '/' ∉ id.toList) :
    Text.find "/review".toList
        ("/api/v1/admin/requests".toList ++ '/' :: (id.toList ++ '/' :: "review".toList)) =
      some (if "review".toList <+: id.toList then 22 else 23 + id.toList.length) :=
  Text.find_behind_name (by decide) hid (by decide)

/-! ### What is cut out -/

/-- What the upload takes for the identifier. -/
def uploadCut (id : String) : String :=
  if "upload".toList <+: id.toList then "" else String.ofList ('/' :: id.toList)

/-- What the review takes for the identifier. -/
def reviewCut (id : String) : String :=
  if "review".toList <+: id.toList then String.ofList (id.toList.drop 1 ++ '/' :: "review".toList)
  else String.ofList (id.toList.drop 1)

theorem substr_upload (hid : '/' ∉ id.toList) (h : req.target = uploadTarget id) :
    substr (normPath req) 22 (lengthTo "/upload" 22 (normPath req)) = .ok (uploadCut id) := by
  have hsize := length_normPath_lt req
  rw [normPath_upload h] at hsize ⊢
  rw [List.length_append, List.length_cons, List.length_append] at hsize
  rw [lengthTo, find_upload hid, substr_append (by decide), Option.getD_some, uploadCut]
  split
  · rw [Text.sizeSub_of_le (le_refl _) (by decide), Nat.sub_self, List.take_zero]
  · have hbefore : "/api/v1/public/request".toList.length = 22 := by decide
    have hlen : Text.sizeSub (23 + id.toList.length) 22 = ('/' :: id.toList).length := by
      rw [Text.sizeSub_of_le (by omega) (by omega), List.length_cons]
      omega
    rw [hlen, ← List.cons_append, List.take_left]

theorem substr_review (hid : '/' ∉ id.toList) (hne : id ≠ "") (h : req.target = reviewTarget id) :
    substr (normPath req) 24 (lengthTo "/review" 24 (normPath req)) = .ok (reviewCut id) := by
  have hsize := length_normPath_lt req
  have hbefore : "/api/v1/admin/requests".toList.length = 22 := by decide
  obtain ⟨c, rest, hlist⟩ : ∃ c rest, id.toList = c :: rest :=
    List.exists_cons_of_ne_nil fun hnil => hne (String.toList_eq_nil_iff.mp hnil)
  have hpath : "/api/v1/admin/requests".toList ++ '/' :: (c :: rest ++ '/' :: "review".toList) =
      ("/api/v1/admin/requests".toList ++ ['/', c]) ++ (rest ++ '/' :: "review".toList) := by
    simp only [List.append_assoc, List.cons_append, List.nil_append]
  have hpre : ("/api/v1/admin/requests".toList ++ ['/', c]).length = 24 := by
    rw [List.length_append, hbefore]
    rfl
  rw [normPath_review h, List.length_append, List.length_cons, hlist, List.cons_append,
    List.length_cons, List.length_append] at hsize
  rw [normPath_review h, lengthTo, find_review hid, Option.getD_some, reviewCut, hlist, hpath,
    substr_append hpre, List.drop_succ_cons, List.drop_zero]
  split
  · -- the piece ends before it begins, and its length wraps around
    rw [Text.sizeSub_of_lt (by decide), List.take_of_length_le]
    rw [List.length_append]
    omega
  · have hlen : Text.sizeSub (23 + (c :: rest).length) 24 = rest.length := by
      rw [List.length_cons, Text.sizeSub_of_le (by omega) (by omega)]
      omega
    rw [hlen, List.take_left]

/-- The upload takes something else for the identifier. -/
theorem uploadCut_ne : uploadCut id ≠ id := by
  rw [uploadCut]
  split
  · rename_i hword
    rintro rfl
    exact absurd hword (by decide)
  · intro h
    have hlen := congrArg String.length h
    rw [String.length_ofList, List.length_cons, String.length_toList] at hlen
    omega

/-- So does the review. -/
theorem reviewCut_ne (hid : '/' ∉ id.toList) (hne : id ≠ "") : reviewCut id ≠ id := by
  rw [reviewCut]
  split
  · intro h
    rw [← h, String.toList_ofList] at hid
    exact hid (List.mem_append_right _ List.mem_cons_self)
  · intro h
    have hlen := congrArg String.length h
    have hpos : id.length ≠ 0 := fun h0 => hne (String.length_eq_zero_iff.mp h0)
    rw [String.length_ofList, List.length_drop, String.length_toList] at hlen
    omega

/-- Of an identifier as the master makes it the review leaves the `r` out. -/
theorem head?_reviewCut (h : "req-".toList <+: id.toList) :
    (reviewCut id).toList.head? = some 'e' := by
  obtain ⟨t, ht⟩ := h
  rw [reviewCut, ← ht]
  split
  · rw [String.toList_ofList]
    rfl
  · rw [String.toList_ofList]
    rfl

/-! ### The routes -/

/-- A request of the web client with the file of a request reaches the upload. -/
theorem isUpload_of_target (hid : '/' ∉ id.toList) (hpost : req.method = .post)
    (h : req.target = uploadTarget id) : IsUpload req where
  method := hpost
  start := by
    rw [startsWith, normPath_upload h, decide_eq_true_eq, Text.find_eq_zero]
    exact prefix_of_head (by decide)
  mark := by
    rw [mentions, normPath_upload h, find_upload hid]
    rfl

/-- A request of the web client with a decision reaches the review. -/
theorem isReview_of_target (hid : '/' ∉ id.toList) (hpost : req.method = .post)
    (h : req.target = reviewTarget id) : IsReview req where
  method := hpost
  start := by
    rw [startsWith, normPath_review h, decide_eq_true_eq, Text.find_eq_zero]
    exact prefix_of_head (by decide)
  mark := by
    rw [mentions, normPath_review h, find_review hid]
    rfl

/-- **The upload** of the web client is the upload for what is cut out of its path. -/
theorem apiRoutes_upload (hid : '/' ∉ id.toList) (hpost : req.method = .post)
    (h : req.target = uploadTarget id) : apiRoutes L req = storeUpload L req (uploadCut id) := by
  rw [apiRoutes_of_isUpload (isUpload_of_target hid hpost h), upload, substr_upload hid h]

/-- **The review** of the web client is the review of what is cut out of its path. -/
theorem apiRoutes_review (hid : '/' ∉ id.toList) (hne : id ≠ "") (hpost : req.method = .post)
    (h : req.target = reviewTarget id) {approve : Bool} {comment : String}
    (hbody : parseReview L req = .ok (approve, comment)) :
    apiRoutes L req =
      respond (.adminReviewRequest (bearerToken req) (reviewCut id) approve comment) := by
  rw [apiRoutes_of_isReview (isReview_of_target hid hpost h), review, substr_review hid hne h,
    hbody]
  rfl

/-- **The upload recovers the identifier**: it tells the master of an archive of `id`, and of
no other request. -/
def UploadRecovers (L : JsonLibrary) (req : HttpRequest) (id : String) : Prop :=
  ∀ reqId archivePath,
    (apiRoutes L req).Calls (.bridge (.updateRequestArchive reqId archivePath)) → reqId = id

/-- **The review recovers the identifier**: it asks the master to decide on `id`, and on no
other request. -/
def ReviewRecovers (L : JsonLibrary) (req : HttpRequest) (id : String) : Prop :=
  ∀ token reqId approve comment,
    (apiRoutes L req).Calls (.bridge (.adminReviewRequest token reqId approve comment)) →
      reqId = id

/-- The length of the piece that a route cuts out of a path wraps around: the word is found
before the piece begins. -/
def LengthWraps (mark : String) (start : ℕ) (path : List Char) : Prop :=
  ∃ n, Text.find mark.toList path = some n ∧ n < start

/-- **No upload recovers the identifier.** -/
theorem upload_never_recovers (L : JsonLibrary) (hid : '/' ∉ id.toList) (hpost : req.method = .post)
    (h : req.target = uploadTarget id) : ¬ UploadRecovers L req id := by
  intro hrec
  have hcall : (apiRoutes L req).Calls
      (.bridge (.updateRequestArchive (uploadCut id) (uploadPath (uploadCut id)))) := by
    rw [apiRoutes_upload hid hpost h, calls_storeUpload]
    exact Or.inr (Or.inr (Or.inr rfl))
  exact uploadCut_ne (hrec _ _ hcall)

/-- **No review recovers the identifier**, and the length wraps around just for the identifiers
that begin with the word that is searched. -/
theorem review_never_recovers (L : JsonLibrary) (hid : '/' ∉ id.toList) (hne : id ≠ "")
    (hpost : req.method = .post) (h : req.target = reviewTarget id) {approve : Bool}
    {comment : String} (hbody : parseReview L req = .ok (approve, comment)) :
    ¬ ReviewRecovers L req id ∧
      (LengthWraps "/review" 24 (normPath req) ↔ "review".toList <+: id.toList) := by
  constructor
  · intro hrec
    have hcall : (apiRoutes L req).Calls
        (.bridge (.adminReviewRequest (bearerToken req) (reviewCut id) approve comment)) := by
      rw [apiRoutes_review hid hne hpost h hbody, calls_respond]
    exact reviewCut_ne hid hne (hrec _ _ _ _ hcall)
  · have hlen : id.toList.length ≠ 0 := fun h0 =>
      hne (String.toList_eq_nil_iff.mp (List.length_eq_zero_iff.mp h0))
    rw [LengthWraps, normPath_review h, find_review hid]
    constructor
    · rintro ⟨n, hn, hlt⟩
      by_contra hword
      rw [if_neg hword] at hn
      have hn := Option.some.inj hn
      omega
    · intro hword
      rw [if_pos hword]
      exact ⟨22, rfl, by decide⟩

end RestRoutes

/-! ### What becomes of it -/

section Master

variable {Fs : Type} {P : Platform Tables Fs} {id : String} {e : ℕ → Env}
  {s : MasterState Tables Fs}

/-- The master knows no request under this identifier: the archive is not linked, and the
gateway is told so. -/
theorem GrpcBridge.run_updateRequestArchive_of_none (hP : P.store = idealStore) {reqId : String}
    (archivePath : String) (h : s.adminDb.jobRequests.lookup reqId = none) :
    (GrpcBridge.updateRequestArchive P reqId archivePath).run (MasterState.exec P) e s =
      (GrpcBridge.failure "Request not found", s) := by
  rw [GrpcBridge.updateRequestArchive, serve_eq_handle, Prog.run_map, Rpc.handle, Prog.run_map,
    MasterService.updateJobRequest, Call.listRequests, Prog.op_bind, Prog.run_call,
    MasterState.exec_store, hP]
  dsimp only [idealStore]
  rw [findRequest_of_lookup_eq_none h, MasterService.updateFound, if_pos rfl]
  rfl

/-- The master knows no request under this identifier: nothing is decided. -/
theorem GrpcBridge.run_adminReviewRequest_of_none (hP : P.store = idealStore) {reqId : String}
    (token : String) (approve : Bool) (comment : String)
    (h : s.adminDb.jobRequests.lookup reqId = none) :
    (GrpcBridge.adminReviewRequest P token reqId approve comment).run (MasterState.exec P) e s =
      (GrpcBridge.failure "Request not found", s) := by
  rw [GrpcBridge.adminReviewRequest, serve_eq_handle, Prog.run_map, Rpc.handle, Prog.run_map,
    MasterService.adminReviewRequest, Call.listRequests, Prog.op_bind, Prog.run_call,
    MasterState.exec_store, hP]
  dsimp only [idealStore]
  rw [findRequest_of_lookup_eq_none h, MasterService.reviewFound, if_pos rfl]
  rfl

/-- **No archive is ever linked**: if the master keeps its requests under identifiers that are
not empty and have no slash, it knows none of those that an upload names. -/
theorem archive_not_linked (hP : P.store = idealStore)
    (hkeys : ∀ k ∈ s.adminDb.jobRequests, k ≠ "" ∧ '/' ∉ k.toList) (archivePath : String) :
    (GrpcBridge.updateRequestArchive P (RestRoutes.uploadCut id) archivePath).run
        (MasterState.exec P) e s =
      (GrpcBridge.failure "Request not found", s) := by
  refine GrpcBridge.run_updateRequestArchive_of_none hP archivePath ?_
  rw [AList.lookup_eq_none]
  intro hmem
  obtain ⟨hne, hslash⟩ := hkeys _ hmem
  rw [RestRoutes.uploadCut] at hne hslash
  split at hne
  · exact hne rfl
  · rename_i hword
    rw [if_neg hword, String.toList_ofList] at hslash
    exact hslash List.mem_cons_self

/-- **No request is ever decided on**: if the master keeps its requests under identifiers as it
makes them, it knows none of those that a review names. -/
theorem request_not_reviewed (hP : P.store = idealStore)
    (hkeys : ∀ k ∈ s.adminDb.jobRequests, "req-".toList <+: k.toList)
    (hid : "req-".toList <+: id.toList) (token : String) (approve : Bool) (comment : String) :
    (GrpcBridge.adminReviewRequest P token (RestRoutes.reviewCut id) approve comment).run
        (MasterState.exec P) e s =
      (GrpcBridge.failure "Request not found", s) := by
  refine GrpcBridge.run_adminReviewRequest_of_none hP token approve comment ?_
  rw [AList.lookup_eq_none]
  intro hmem
  obtain ⟨t, ht⟩ := hkeys _ hmem
  have hhead := RestRoutes.head?_reviewCut hid
  rw [← ht] at hhead
  exact absurd hhead (by simp)

end Master

namespace RestRoutes

/-! ### Ann's request -/

/-- The body of an approval. -/
def approvalText : String := "\x7b\"approve\":true,\"comment\":\"Approved by admin\"\x7d"

/-- The library, known at this text. -/
def approvalLibrary : JsonLibrary where
  parse text :=
    if text = approvalText then
      .ok (.object [("approve", .bool true), ("comment", .string "Approved by admin")])
    else .error "syntax error [boost.json:1]"
  notObject := "value is not an object [boost.json:31]"
  notString := "value is not a string [boost.json:32]"
  notInt64 := "value is not a std::int64_t number [boost.json:34]"
  notBool := "value is not a bool [boost.json:29]"

/-- A request as the web client makes it for the file of `req-1`. -/
def annUploads : HttpRequest where
  method := .post
  target := uploadTarget "req-1"
  size := by decide

/-- A request as the web client makes it for the approval of `id`. -/
def approves (id : String) (h : (reviewTarget id).length < 2 ^ 64) : HttpRequest where
  method := .post
  target := reviewTarget id
  body := approvalText
  size := h

theorem upload_never_recovers_ann : ¬ UploadRecovers approvalLibrary annUploads "req-1" :=
  upload_never_recovers approvalLibrary (by decide) rfl rfl

/-- **The upload for `req-1` is filed under `/req-1`.** -/
theorem upload_misses_ann :
    (apiRoutes approvalLibrary annUploads).Calls
        (.bridge (.updateRequestArchive "/req-1" "./uploads//req-1.tar.gz")) ∧
      ¬ UploadRecovers approvalLibrary annUploads "req-1" := by
  have hcut : uploadCut "req-1" = "/req-1" := by decide
  have hfile : uploadPath "/req-1" = "./uploads//req-1.tar.gz" := by decide
  have hcall : (apiRoutes approvalLibrary annUploads).Calls
      (.bridge (.updateRequestArchive "/req-1" "./uploads//req-1.tar.gz")) := by
    have hroute : apiRoutes approvalLibrary annUploads = storeUpload approvalLibrary annUploads _ :=
      apiRoutes_upload (by decide) rfl rfl
    rw [hroute, hcut, calls_storeUpload, hfile]
    exact Or.inr (Or.inr (Or.inr rfl))
  refine ⟨hcall, fun hrec => ?_⟩
  exact absurd (hrec _ _ hcall) (by decide)

theorem review_never_recovers_ann :
    ¬ ReviewRecovers approvalLibrary (approves "req-1" (by decide)) "req-1" ∧
      (LengthWraps "/review" 24 (normPath (approves "req-1" (by decide))) ↔
        "review".toList <+: "req-1".toList) :=
  review_never_recovers approvalLibrary (by decide) (by decide) rfl rfl rfl

/-- **The approval of `req-1` decides on `eq-1`**, and in the approval of `review-7` the length
wraps around. -/
theorem review_misses_ann :
    (apiRoutes approvalLibrary (approves "req-1" (by decide))).Calls
        (.bridge (.adminReviewRequest "" "eq-1" true "Approved by admin")) ∧
      ¬ ReviewRecovers approvalLibrary (approves "req-1" (by decide)) "req-1" ∧
      LengthWraps "/review" 24 (normPath (approves "review-7" (by decide))) := by
  have hcut : reviewCut "req-1" = "eq-1" := by decide
  have hroute : apiRoutes approvalLibrary (approves "req-1" (by decide)) =
      respond (.adminReviewRequest "" (reviewCut "req-1") true "Approved by admin") :=
    apiRoutes_review (by decide) (by decide) rfl rfl rfl
  have hcall : (apiRoutes approvalLibrary (approves "req-1" (by decide))).Calls
      (.bridge (.adminReviewRequest "" "eq-1" true "Approved by admin")) := by
    rw [hroute, hcut, calls_respond]
  refine ⟨hcall, fun hrec => ?_, 22, by decide, by decide⟩
  exact absurd (hrec _ _ _ _ hcall) (by decide)

end RestRoutes

end CertOS
