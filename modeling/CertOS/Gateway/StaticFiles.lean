import CertOS.Gateway.UploadPath
import CertOS.PathJoin

/-!
# The static files

A request whose target does not begin with `/api/` is for a file: `RestRoutes::handle` joins
the web root and the target less its first character, and answers with what it finds there
(`CertOS.RestRoutes.staticFile`). The target is not looked at, so it may climb out of the web
root, or name another place altogether after a second slash (`CertOS.RestRoutes.static_escapes`).

Which targets stay inside is `CertOS.RestRoutes.servesInside_iff`: those that never climb above
the place where they start, or go down again by the names of the directories they have climbed.
-/

namespace CertOS

open Interleave

/-- An operation on the files of the web root. A path is what the operating system gets. -/
inductive FileOp where
  /-- `fs::exists`. -/
  | exists (path : String)
  /-- `fs::is_directory`. -/
  | isDirectory (path : String)
  /-- `std::ifstream`, and all that can be read from it. -/
  | readFile (path : String)

/-- What an operation answers. -/
@[reducible] def FileOp.Res : FileOp → Type
  | .exists _ => Except String Bool
  | .isDirectory _ => Except String Bool
  | .readFile _ => String

/-- A handler of a request for a file. -/
abbrev FileProg := Prog FileOp.Res

/-- The response to a request for a file: its status, its content type and its body. -/
structure FileResponse where
  status : ℕ
  contentType : Option String := none
  body : String := ""

namespace RestRoutes

/-! ### The handler -/

/-- `fs::path(root) / rest`. -/
def joinPath (root rest : String) : String :=
  String.ofList (LexicalPath.join root.toList rest.toList)

/-- `fs::path::extension`: from the last dot of the file name on, unless the name begins with
it. -/
def extension (path : String) : String :=
  let name := (LexicalPath.components path.toList).getLast?.getD []
  let ending := name.reverse.takeWhile (· ≠ '.')
  if name ≠ LexicalPath.up ∧ ending.length + 1 < name.length then
    String.ofList ('.' :: ending.reverse)
  else ""

/-- The content type of a file. -/
def contentType (path : String) : String :=
  let ext := extension path
  if ext = ".html" then "text/html"
  else if ext = ".css" then "text/css"
  else if ext = ".js" then "application/javascript"
  else if ext = ".png" then "image/png"
  else "application/octet-stream"

/-- The response where there is no file. -/
def fileNotFound : FileResponse where
  status := 404
  body := "404 Not Found"

/-- The response with a file. -/
def sendFile (fullPath : String) : FileProg (Except String FileResponse) := do
  let content ← Prog.op (FileOp.readFile (cStr fullPath))
  return .ok { status := 200, contentType := some (contentType fullPath), body := content }

/-- The file at a path, if there is one. What the file system throws is not caught. -/
def serveFile (fullPath : String) : FileProg (Except String FileResponse) := do
  let found ← Prog.op (FileOp.exists (cStr fullPath))
  match found with
  | .error what => return .error what
  | .ok false => return .ok fileNotFound
  | .ok true =>
    let directory ← Prog.op (FileOp.isDirectory (cStr fullPath))
    match directory with
    | .error what => return .error what
    | .ok true => return .ok fileNotFound
    | .ok false => sendFile fullPath

/-- The target of a request for a file, with that of the start page filled in. -/
def pagePath (req : HttpRequest) : List Char :=
  if req.target = "/" ∨ req.target = "/index.html" then "/login.html".toList else req.target.toList

/-- **A request for a file.** An empty target throws, and nothing catches it. -/
def staticFile (webRoot : String) (req : HttpRequest) : FileProg (Except String FileResponse) :=
  if req.target = "/favicon.ico" then return .ok { status := 204 }
  else
    match substr (pagePath req) 1 Text.npos with
    | .error what => return .error what
    | .ok rest => serveFile (joinPath webRoot rest)

/-- Which part of `handle` answers a request. -/
inductive Handling where
  | staticFile (prog : FileProg (Except String FileResponse))
  | options
  | api (prog : GatewayProg HttpResponse)

/-- **`RestRoutes::handle`.** -/
def handle (L : JsonLibrary) (webRoot : String) (req : HttpRequest) : Handling :=
  if ¬ startsWith "/api/" req.target.toList then .staticFile (staticFile webRoot req)
  else if req.method = .options then .options
  else .api (apiRoutes L req)

/-! ### Which file is read -/

variable {L : JsonLibrary} {webRoot : String} {req : HttpRequest}

/-- What a request names below the web root, if it gets as far as that. -/
def fileName (req : HttpRequest) : Option String :=
  if req.target = "/favicon.ico" ∨ req.target = "" then none
  else some (String.ofList ((pagePath req).drop 1))

theorem calls_serveFile {fullPath path : String} :
    (serveFile fullPath).Calls (.readFile path) ↔ cStr fullPath = path := by
  have hsend : (sendFile fullPath).Calls (.readFile path) ↔ cStr fullPath = path := by
    rw [sendFile, Prog.op_bind, Prog.calls_call]
    simp only [FileOp.readFile.injEq, or_iff_left_iff_imp]
    rintro ⟨content, h⟩
    exact absurd h Prog.not_calls_ret
  rw [serveFile, Prog.op_bind, Prog.calls_call, ← hsend]
  constructor
  · rintro (h | ⟨found, h⟩)
    · cases h
    · rcases found with what | _ | _
      · exact absurd h Prog.not_calls_ret
      · exact absurd h Prog.not_calls_ret
      · rcases Prog.calls_call.mp h with h | ⟨directory, h⟩
        · cases h
        · rcases directory with what | _ | _
          · exact absurd h Prog.not_calls_ret
          · exact h
          · exact absurd h Prog.not_calls_ret
  · intro h
    exact Or.inr ⟨.ok true, Prog.calls_call.mpr (Or.inr ⟨.ok false, h⟩)⟩

theorem pagePath_of_empty (h : req.target = "") : pagePath req = [] := by
  rw [pagePath, h, if_neg (by decide)]
  rfl

/-- All of the target behind its first character is cut out. -/
theorem substr_pagePath (h : req.target ≠ "") :
    substr (pagePath req) 1 Text.npos = .ok (String.ofList ((pagePath req).drop 1)) := by
  have hlen : 1 ≤ (pagePath req).length ∧ (pagePath req).length < 2 ^ 64 := by
    rw [pagePath]
    split
    · decide
    · have hpos : req.target.toList ≠ [] := fun hnil => h (String.toList_eq_nil_iff.mp hnil)
      exact ⟨List.length_pos_iff.mpr hpos, req.size⟩
  have hall : ((pagePath req).drop 1).take Text.npos = (pagePath req).drop 1 := by
    refine List.take_of_length_le ?_
    rw [List.length_drop, Text.npos]
    omega
  rw [substr, Text.substr, if_pos hlen.1, hall]

/-- **The file a request is answered with** is that of the joined path, and no other. -/
theorem calls_staticFile {path : String} : (staticFile webRoot req).Calls (.readFile path) ↔
    ∃ name, fileName req = some name ∧ cStr (joinPath webRoot name) = path := by
  rw [staticFile, fileName]
  by_cases hicon : req.target = "/favicon.ico"
  · rw [if_pos hicon, if_pos (Or.inl hicon)]
    exact iff_of_false Prog.not_calls_ret fun ⟨_, h, _⟩ => by cases h
  · rw [if_neg hicon]
    by_cases hempty : req.target = ""
    · rw [if_pos (Or.inr hempty), pagePath_of_empty hempty]
      exact iff_of_false Prog.not_calls_ret fun ⟨_, h, _⟩ => by cases h
    · rw [if_neg (not_or.mpr ⟨hicon, hempty⟩), substr_pagePath hempty]
      simp only [calls_serveFile, Option.some.injEq, exists_eq_left']

/-! ### Inside of the web root -/

theorem isAbsolute_untilNul {path : List Char} :
    LexicalPath.IsAbsolute (untilNul path) ↔ LexicalPath.IsAbsolute path := by
  cases path with
  | nil => rfl
  | cons c path =>
    by_cases hc : c = '\x00'
    · subst hc
      exact iff_of_false (by simp [LexicalPath.IsAbsolute, untilNul])
        (by simp [LexicalPath.IsAbsolute])
    · have hwhile : untilNul (c :: path) = c :: untilNul path :=
        List.takeWhile_cons_of_pos (decide_eq_true hc)
      rw [hwhile]
      rfl

/-- The joined path as the operating system gets it. -/
theorem untilNul_join {root rest : List Char} : untilNul (LexicalPath.join root rest) =
    if '\x00' ∈ root ∧ ¬ LexicalPath.IsAbsolute rest then untilNul root
    else LexicalPath.join (untilNul root) (untilNul rest) := by
  by_cases habs : LexicalPath.IsAbsolute rest
  · rw [if_neg (fun h => h.2 habs), LexicalPath.join_of_absolute habs,
      LexicalPath.join_of_absolute (isAbsolute_untilNul.mpr habs)]
  · have habs' : ¬ LexicalPath.IsAbsolute (untilNul rest) := isAbsolute_untilNul.not.mpr habs
    by_cases hnul : '\x00' ∈ root
    · have hne : root ≠ [] := List.ne_nil_of_mem hnul
      rw [if_pos ⟨hnul, habs⟩, LexicalPath.join, if_neg (not_or.mpr ⟨habs, hne⟩)]
      split
      · rw [untilNul_append, if_pos hnul]
      · rw [untilNul_append, if_pos hnul]
    · rw [if_neg (fun h => hnul h.1), untilNul_of_not_mem hnul, LexicalPath.join, LexicalPath.join]
      simp only [habs, habs', false_or]
      split
      · rfl
      · split
        · rw [untilNul_append, if_neg hnul]
        · rw [untilNul_append, if_neg hnul]
          rfl

/-- **Every file that is sent is inside of the web root.** -/
def ServesInside (L : JsonLibrary) (webRoot : String) (req : HttpRequest) : Prop :=
  ∀ prog path, handle L webRoot req = .staticFile prog → prog.Calls (.readFile path) →
    LexicalPath.Inside (cStr webRoot).toList path.toList

/-- **What is named stays inside of the web root**: behind a second slash, if the web root is
named from the root of the file system as well; and otherwise, if the directories climbed are
gone down again. -/
def StaysInside (root rest : List Char) : Prop :=
  if LexicalPath.IsAbsolute rest then
    LexicalPath.IsAbsolute root ∧ LexicalPath.names root <+: LexicalPath.names rest
  else
    (LexicalPath.IsAbsolute root ∨ LexicalPath.climbs rest ≤ (LexicalPath.names root).length) ∧
      (LexicalPath.names root).drop ((LexicalPath.names root).length - LexicalPath.climbs rest) <+:
        LexicalPath.names rest

theorem inside_joinPath {name : String} :
    LexicalPath.Inside (cStr webRoot).toList (cStr (joinPath webRoot name)).toList ↔
      ('\x00' ∈ webRoot.toList ∧ ¬ LexicalPath.IsAbsolute name.toList) ∨
        StaysInside (untilNul webRoot.toList) (untilNul name.toList) := by
  have hroot : (cStr webRoot).toList = untilNul webRoot.toList := String.toList_ofList
  have hpath : (cStr (joinPath webRoot name)).toList =
      untilNul (LexicalPath.join webRoot.toList name.toList) := by
    rw [cStr, String.toList_ofList, joinPath, String.toList_ofList, untilNul]
  rw [hroot, hpath, untilNul_join]
  split
  · rename_i h
    exact iff_of_true (LexicalPath.inside_self _) (Or.inl h)
  · rename_i h
    rw [or_iff_right h, LexicalPath.inside_join_iff]
    rfl

/-- **When the static files come from the web root**: if and only if what the request names, if
it names anything, stays inside of it. (A web root with a NUL is cut there, and then nothing
that is named behind it counts.) -/
theorem servesInside_iff (L : JsonLibrary) (webRoot : String)
    (h : startsWith "/api/" req.target.toList = false) :
    ServesInside L webRoot req ↔ ∀ name, fileName req = some name →
      ('\x00' ∈ webRoot.toList ∧ ¬ LexicalPath.IsAbsolute name.toList) ∨
        StaysInside (untilNul webRoot.toList) (untilNul name.toList) := by
  have hhandle : handle L webRoot req = .staticFile (staticFile webRoot req) := by
    rw [handle, h]
    rfl
  rw [ServesInside, hhandle]
  constructor
  · intro hlaw name hname
    exact inside_joinPath.mp (hlaw _ _ rfl (calls_staticFile.mpr ⟨name, hname, rfl⟩))
  · rintro hstays prog path ⟨⟩ hcalls
    obtain ⟨name, hname, rfl⟩ := calls_staticFile.mp hcalls
    exact inside_joinPath.mpr (hstays name hname)

/-- A request for a file. -/
def getFile (target : String) (h : target.length < 2 ^ 64) : HttpRequest where
  method := .get
  target := target
  size := h

/-- The law at work: a style sheet comes from the web root. -/
theorem servesInside_css :
    (staticFile "./web" (getFile "/css/style.css" (by decide))).Calls
        (.readFile "./web/css/style.css") ∧
      ServesInside approvalLibrary "./web" (getFile "/css/style.css" (by decide)) := by
  refine ⟨calls_staticFile.mpr ⟨"css/style.css", by decide, by decide⟩, ?_⟩
  refine (servesInside_iff approvalLibrary "./web" (by decide)).mpr fun name hname => Or.inr ?_
  obtain rfl : "css/style.css" = name := Option.some.inj hname
  rw [StaysInside, if_neg (by decide)]
  decide

/-- **A request escapes**: one is answered with the configuration beside the web root, and one
with a file from the root of the file system. -/
theorem static_escapes :
    (staticFile "./web" (getFile "/../config/gateway.yaml" (by decide))).Calls
        (.readFile "./web/../config/gateway.yaml") ∧
      ¬ ServesInside approvalLibrary "./web" (getFile "/../config/gateway.yaml" (by decide)) ∧
      (staticFile "./web" (getFile "//etc/passwd" (by decide))).Calls (.readFile "/etc/passwd") ∧
      ¬ ServesInside approvalLibrary "./web" (getFile "//etc/passwd" (by decide)) := by
  have hclimb : (staticFile "./web" (getFile "/../config/gateway.yaml" (by decide))).Calls
      (.readFile "./web/../config/gateway.yaml") :=
    calls_staticFile.mpr ⟨"../config/gateway.yaml", by decide, by decide⟩
  have hslash : (staticFile "./web" (getFile "//etc/passwd" (by decide))).Calls
      (.readFile "/etc/passwd") :=
    calls_staticFile.mpr ⟨"/etc/passwd", by decide, by decide⟩
  refine ⟨hclimb, fun hlaw => ?_, hslash, fun hlaw => ?_⟩
  · exact absurd (hlaw _ _ rfl hclimb) (by decide)
  · exact absurd (hlaw _ _ rfl hslash) (by decide)

end RestRoutes

end CertOS
