import CertOS.Gateway.RequestIds
import CertOS.LexicalPath

/-!
# The file of an upload

An upload is stored in a file that is named after a piece of the path of the request, from
a fixed offset to the first `/upload` behind it. Nobody checks the piece, and the route is
open to everyone: `..` in it leads out of the directory of the uploads
(`CertOS.RestRoutes.upload_escapes`).

Where the file lies is `LexicalPath.StrictlyInside`, and the condition under which it is the
directory of the uploads is `CertOS.RestRoutes.opensInside_iff`. A walk that has left the
directory cannot come back to it by its name, since the name begins with the word at which
the piece ends.
-/

namespace CertOS

open Interleave

namespace RestRoutes

variable {L : JsonLibrary} {req : HttpRequest}

/-- The file name as the operating system gets it: up to the first NUL. -/
def untilNul (name : List Char) : List Char := name.takeWhile (· ≠ '\x00')

theorem untilNul_append {a b : List Char} : untilNul (a ++ b) =
    if '\x00' ∈ a then untilNul a else a ++ untilNul b := by
  split
  · rename_i hnul
    obtain ⟨u, v, rfl, hu⟩ := List.eq_append_cons_of_mem hnul
    have hcut (w : List Char) : untilNul (u ++ '\x00' :: w) = u := by
      have hpos : ∀ c ∈ u, decide (c ≠ '\x00') = true := fun c hc =>
        decide_eq_true fun h0 => hu (h0 ▸ hc)
      rw [untilNul, List.takeWhile_append_of_pos hpos, List.takeWhile_cons_of_neg (by simp),
        List.append_nil]
    rw [List.append_assoc, List.cons_append, hcut, hcut]
  · rename_i hnul
    exact List.takeWhile_append_of_pos fun c hc => decide_eq_true fun h0 => hnul (h0 ▸ hc)

theorem untilNul_of_not_mem {a : List Char} (h : '\x00' ∉ a) : untilNul a = a := by
  rw [← List.append_nil a, untilNul_append, if_neg h]
  rfl

/-- What stands in the path of a request from offset 22 to the first `/upload`. -/
def uploadPiece (req : HttpRequest) : List Char :=
  let s := (normPath req).drop 22
  s.take ((Text.find "/upload".toList s).getD 0)

/-- **Every file the request opens is strictly inside of the directory of the uploads.** -/
def OpensInside (L : JsonLibrary) (req : HttpRequest) : Prop :=
  ∀ path, (apiRoutes L req).Calls (.openFile path) →
    LexicalPath.StrictlyInside uploadDir.toList path.toList

/-- The path of an upload, taken apart. -/
theorem exists_upload (h : IsUpload req) : ∃ s m,
    normPath req = "/api/v1/public/request".toList ++ '/' :: s ∧
      Text.find "/upload".toList ('/' :: s) = some m ∧ uploadPiece req = ('/' :: s).take m := by
  obtain ⟨s, hs⟩ := Text.find_eq_zero.mp (of_decide_eq_true h.start)
  have hhead : "/api/v1/public/request/".toList = "/api/v1/public/request".toList ++ ['/'] := by
    decide
  have hpath : normPath req = "/api/v1/public/request".toList ++ '/' :: s := by
    rw [← hs, hhead, List.append_assoc, List.singleton_append]
  have hdrop : (normPath req).drop 22 = '/' :: s := by
    have hlen : "/api/v1/public/request".toList.length = 22 := by decide
    rw [hpath, ← hlen, List.drop_left]
  obtain ⟨m, hm⟩ : ∃ m, Text.find "/upload".toList ('/' :: s) = some m := by
    have hmark := h.mark
    rw [mentions, hpath, Text.find_append_of_mismatch (by decide), Option.isSome_map] at hmark
    exact Option.isSome_iff_exists.mp hmark
  refine ⟨s, m, hpath, hm, ?_⟩
  rw [uploadPiece, hdrop, hm]
  rfl

/-- The upload cuts out the piece. -/
theorem substr_uploadPiece (h : IsUpload req) :
    substr (normPath req) 22 (lengthTo "/upload" 22 (normPath req)) =
      .ok (String.ofList (uploadPiece req)) := by
  obtain ⟨s, m, hpath, hm, hpiece⟩ := exists_upload h
  have hle := Text.le_length_of_find hm
  have hsize := length_normPath_lt req
  rw [hpath, List.length_append] at hsize
  have hhead : "/api/v1/public/request".toList.length = 22 := by decide
  rw [hpiece, lengthTo, hpath, Text.find_append_of_mismatch (by decide), hm, substr_append hhead,
    Option.map_some, Option.getD_some, hhead, Text.sizeSub_of_le (by omega) (by omega),
    Nat.add_sub_cancel]

/-- A path whose first part has no NUL, as the operating system gets it. -/
theorem toList_cStr_path {dir sep ending : String} (hsep : sep.toList = ['/'])
    (hdir : '\x00' ∉ dir.toList) (piece : List Char) :
    (cStr (dir ++ sep ++ String.ofList piece ++ ending)).toList =
      dir.toList ++ '/' :: untilNul (piece ++ ending.toList) := by
  have hpath : (dir ++ sep ++ String.ofList piece ++ ending).toList =
      dir.toList ++ '/' :: (piece ++ ending.toList) := by
    rw [String.toList_append, String.toList_append, String.toList_append, hsep,
      String.toList_ofList, List.append_assoc, List.append_assoc]
    rfl
  rw [cStr, String.toList_ofList, hpath, ← untilNul, untilNul_append, if_neg hdir]
  rfl

/-- The path of the file, as the operating system gets it. -/
theorem cStr_uploadPath (piece : List Char) :
    (cStr (uploadPath (String.ofList piece))).toList =
      uploadDir.toList ++ '/' :: untilNul (piece ++ ".tar.gz".toList) :=
  toList_cStr_path (by decide) (by decide) piece

/-- A request opens a file for its piece, and no other. -/
theorem calls_openFile (h : IsUpload req) {path : String} :
    (apiRoutes L req).Calls (.openFile path) ↔
      cStr (uploadPath (String.ofList (uploadPiece req))) = path := by
  rw [apiRoutes_of_isUpload h, upload, substr_uploadPiece h, calls_storeUpload]
  simp only [reduceCtorEq, GatewayOp.openFile.injEq, false_or, or_false]

/-- **The piece does not name the directory of the uploads.** -/
theorem not_mem_components (h : IsUpload req) :
    "uploads".toList ∉ LexicalPath.components (untilNul (uploadPiece req ++ ".tar.gz".toList)) := by
  obtain ⟨s, m, -, hm, hpiece⟩ := exists_upload h
  have hcut := Text.not_infix_take_of_find (List.cons_ne_nil _ _) hm
  intro hmem
  rcases LexicalPath.prefix_or_infix_of_mem hmem with hin | hin
  · -- the piece is empty or begins with a separator
    have hin := hin.trans (List.takeWhile_prefix _)
    rw [hpiece] at hin
    cases m with
    | zero =>
      rw [List.take_zero, List.nil_append] at hin
      exact absurd hin (by decide)
    | succ m => exact absurd (List.cons_prefix_cons.mp hin).1 (by decide)
  · have hin := hin.trans (List.takeWhile_prefix _).isInfix
    rw [hpiece] at hin
    have hdot : '.' ∉ '/' :: "uploads".toList := by decide
    rcases Text.infix_append_sep hdot hin with hin | hin
    · have hmark : "/upload".toList <:+: '/' :: "uploads".toList := by decide
      exact hcut (hmark.trans hin)
    · exact absurd hin (by decide)

/-- The place of the file of an upload. -/
theorem opensInside_iff_strictlyInside (h : IsUpload req) :
    OpensInside L req ↔ LexicalPath.StrictlyInside uploadDir.toList
      (uploadDir.toList ++ '/' :: untilNul (uploadPiece req ++ ".tar.gz".toList)) := by
  rw [← cStr_uploadPath, OpensInside]
  refine ⟨fun hall => hall _ ((calls_openFile h).mpr rfl), fun hin path hpath => ?_⟩
  rw [← (calls_openFile h).mp hpath]
  exact hin

/-- Below the directory of the uploads is what never goes above it and ends below it. -/
theorem strictlyInside_uploadDir_iff {name : List Char}
    (h : "uploads".toList ∉ LexicalPath.components name) :
    LexicalPath.StrictlyInside uploadDir.toList (uploadDir.toList ++ '/' :: name) ↔
      ∃ d, LexicalPath.depth 0 (LexicalPath.components name) = some (d + 1) :=
  LexicalPath.strictlyInside_iff (show _ = [] ++ ["uploads".toList] by decide) (by decide) h

/-- **When uploads stay inside of their directory**: if and only if the name of the file,
which is the piece with its ending, read component by component never goes above its start
and ends below it. -/
theorem opensInside_iff (L : JsonLibrary) (h : IsUpload req) :
    OpensInside L req ↔ ∃ d,
      LexicalPath.depth 0
        (LexicalPath.components (untilNul (uploadPiece req ++ ".tar.gz".toList))) = some (d + 1) :=
  (opensInside_iff_strictlyInside h).trans (strictlyInside_uploadDir_iff (not_mem_components h))

/-- Ann's upload is inside. -/
theorem opensInside_iff_ann : OpensInside approvalLibrary annUploads := by
  have hid : '/' ∉ "req-1".toList := by decide
  have hup : IsUpload annUploads := isUpload_of_target hid rfl rfl
  exact (opensInside_iff approvalLibrary hup).mpr ⟨0, by decide⟩

/-- A request that climbs. -/
def climbing : HttpRequest where
  method := .post
  target := "/api/v1/public/request/../../x/upload"
  size := by decide

theorem isUpload_climbing : IsUpload climbing where
  method := rfl
  start := by decide
  mark := by decide

/-- **An upload escapes**: this one is written to a file `x.tar.gz` above the directory in which
the gateway runs. -/
theorem upload_escapes :
    (apiRoutes approvalLibrary climbing).Calls (.openFile "./uploads//../../x.tar.gz") ∧
      LexicalPath.resolve "./uploads//../../x.tar.gz".toList =
        ["..".toList, "x.tar.gz".toList] ∧
      ¬ OpensInside approvalLibrary climbing := by
  have hcall : (apiRoutes approvalLibrary climbing).Calls
      (.openFile "./uploads//../../x.tar.gz") :=
    (calls_openFile isUpload_climbing).mpr (by decide)
  refine ⟨hcall, by decide, fun hall => ?_⟩
  exact absurd (hall _ hcall) (by decide)

/-! ### Uploads of the web client -/

/-- The name of an archive goes one directory down. -/
theorem depth_archive {name : List Char} (hsep : '/' ∉ name) :
    LexicalPath.depth 0 (LexicalPath.components (name ++ ".tar.gz".toList)) = some 1 := by
  have hlen : ".tar.gz".toList.length = 7 := by decide
  have hone : LexicalPath.components (name ++ ".tar.gz".toList) = [name ++ ".tar.gz".toList] := by
    refine List.splitOn_eq_singleton fun hmem => ?_
    rcases List.mem_append.mp hmem with hmem | hmem
    · exact hsep hmem
    · exact absurd hmem (by decide)
  have hne {c : List Char} (hc : c.length < 7) : name ++ ".tar.gz".toList ≠ c := by
    rintro rfl
    rw [List.length_append, hlen] at hc
    omega
  have hname : ¬ (name ++ ".tar.gz".toList = [] ∨ name ++ ".tar.gz".toList = LexicalPath.here) :=
    fun h => h.elim (hne (by decide)) (hne (by decide))
  rw [hone, LexicalPath.depth_of_name hname (hne (by decide))]
  rfl

/-- **The uploads of the web client stay inside**, for every identifier that is one name. -/
theorem opensInside_of_target {id : String} (hid : '/' ∉ id.toList) (hnul : '\x00' ∉ id.toList)
    (hpost : req.method = .post) (h : req.target = uploadTarget id) : OpensInside L req := by
  have hup := isUpload_of_target hid hpost h
  have hpiece : uploadPiece req = (uploadCut id).toList := by
    have hcut := (substr_uploadPiece hup).symm.trans (substr_upload hid h)
    rw [← Except.ok.inj hcut, String.toList_ofList]
  have hwhole {name : List Char} (hname : '\x00' ∉ name) :
      untilNul (name ++ ".tar.gz".toList) = name ++ ".tar.gz".toList := by
    rw [untilNul_append, if_neg hname]
    rfl
  rw [opensInside_iff_strictlyInside hup, strictlyInside_uploadDir_iff (not_mem_components hup),
    hpiece, uploadCut]
  refine ⟨0, ?_⟩
  split
  · rw [show "".toList = [] from rfl, hwhole List.not_mem_nil]
    exact depth_archive List.not_mem_nil
  · rw [String.toList_ofList, hwhole (List.not_mem_cons_of_ne_of_not_mem (by decide) hnul)]
    -- the piece begins with the slash before the identifier
    have hcomponents : LexicalPath.components ('/' :: id.toList ++ ".tar.gz".toList) =
        [] :: LexicalPath.components (id.toList ++ ".tar.gz".toList) :=
      LexicalPath.components_append [] _
    rw [hcomponents, LexicalPath.depth_of_skip (Or.inl rfl), depth_archive hid]

end RestRoutes

end CertOS
