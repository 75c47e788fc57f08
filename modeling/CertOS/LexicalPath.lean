import Mathlib.Data.List.Infix
import Mathlib.Data.Nat.Notation

/-!
# Lexical resolution of paths

A relative path is a walk: its components, the parts between separators, are taken one
after the other, a name goes down into a directory and `..` goes up. `LexicalPath.resolve`
is where the walk ends, as a list of names from the start (after as many `..` as it has
gone above the start); it does not look at any file system.

`LexicalPath.StrictlyInside` compares the ends of two walks. For a path that begins with a
directory and goes on with a `rest`, what counts is how deep `rest` ends below its start
(`LexicalPath.depth`), as long as it does not leave the directory and come back by name
(`LexicalPath.strictlyInside_iff`).
-/

namespace LexicalPath

/-- The components of a path. Where separators follow one another there are empty ones. -/
def components (path : List Char) : List (List Char) := path.splitOn '/'

/-- The component that stays where it is. -/
def here : List Char := ['.']

/-- The component that goes up. -/
def up : List Char := ['.', '.']

/-- Where `..` leads to from `stack`, the innermost directory first. -/
def climb : List (List Char) → List (List Char)
  | [] => [up]
  | top :: rest => if top = up then up :: top :: rest else rest

/-- One component of a walk that has come to `stack`. -/
def step (stack : List (List Char)) (c : List Char) : List (List Char) :=
  if c = [] ∨ c = here then stack else if c = up then climb stack else c :: stack

/-- **Where a path leads to.** -/
def resolve (path : List Char) : List (List Char) := ((components path).foldl step []).reverse

/-- The path leads to a place below the one `dir` leads to. -/
def StrictlyInside (dir path : List Char) : Prop :=
  resolve dir <+: resolve path ∧ resolve dir ≠ resolve path

instance (dir path : List Char) : Decidable (StrictlyInside dir path) :=
  inferInstanceAs (Decidable (_ ∧ _))

/-- How deep below its start a walk ends that has come `d` down, if it never goes above the
start. -/
def depth : ℕ → List (List Char) → Option ℕ
  | d, [] => some d
  | d, c :: cs =>
    if c = [] ∨ c = here then depth d cs
    else if c = up then if d = 0 then none else depth (d - 1) cs
    else depth (d + 1) cs

section Component

variable {c : List Char} {stack : List (List Char)} {d : ℕ} {cs : List (List Char)}

theorem step_of_skip (h : c = [] ∨ c = here) : step stack c = stack := if_pos h

theorem step_up : step stack up = climb stack := rfl

theorem step_of_name (h : ¬(c = [] ∨ c = here)) (hup : c ≠ up) : step stack c = c :: stack := by
  rw [step, if_neg h, if_neg hup]

theorem depth_of_skip (h : c = [] ∨ c = here) : depth d (c :: cs) = depth d cs := by
  rw [depth, if_pos h]

theorem depth_zero_up : depth 0 (up :: cs) = none := rfl

theorem depth_succ_up : depth (d + 1) (up :: cs) = depth d cs := rfl

theorem depth_of_name (h : ¬(c = [] ∨ c = here)) (hup : c ≠ up) :
    depth d (c :: cs) = depth (d + 1) cs := by
  rw [depth, if_neg h, if_neg hup]

end Component

/-! ### Components -/

theorem components_append (a b : List Char) :
    components (a ++ '/' :: b) = components a ++ components b :=
  List.splitOn_append_cons_self a b

/-- A component is at the front of the path, or stands after a separator. -/
theorem prefix_or_infix_of_mem {c : List Char} : ∀ {path : List Char}, c ∈ components path →
    c <+: path ∨ '/' :: c <:+: path := by
  intro path
  induction hn : path.length using Nat.strong_induction_on generalizing path with
  | _ n ih =>
    intro hc
    by_cases hsep : '/' ∈ path
    · obtain ⟨a, b, rfl, ha⟩ := List.eq_append_cons_of_mem hsep
      rw [components_append, components, List.splitOn_eq_singleton ha] at hc
      rcases List.mem_append.mp hc with hc | hc
      · obtain rfl := List.mem_singleton.mp hc
        exact Or.inl (List.prefix_append _ _)
      · have hlt : b.length < n := by
          subst hn
          simp
          omega
        have hb : '/' :: b <:+ a ++ '/' :: b := List.suffix_append _ _
        rcases ih _ hlt rfl hc with h | h
        · exact Or.inr (((List.cons_prefix_cons.mpr ⟨rfl, h⟩).isInfix).trans hb.isInfix)
        · exact Or.inr (h.trans ((List.suffix_cons _ _).trans hb).isInfix)
    · rw [components, List.splitOn_eq_singleton hsep] at hc
      obtain rfl := List.mem_singleton.mp hc
      exact Or.inl (List.prefix_refl _)

/-! ### Leaving a directory -/

section Walk

variable {base : List Char} {above : List (List Char)}

/-- A walk that is outside of a directory stays outside, as long as it does not call the
directory by its name. -/
theorem not_suffix_step {stack : List (List Char)} {c : List Char} (hup : base ≠ up)
    (hc : c ≠ base) (h : ¬ base :: above <:+ stack) : ¬ base :: above <:+ step stack c := by
  have hpush {x : List Char} (hx : x ≠ base) : ¬ base :: above <:+ x :: stack := by
    intro hs
    rcases List.suffix_cons_iff.mp hs with heq | hs
    · exact hx (List.cons.inj heq).1.symm
    · exact h hs
  by_cases hskip : c = [] ∨ c = here
  · rwa [step_of_skip hskip]
  · by_cases hclimb : c = up
    · subst hclimb
      rw [step_up]
      cases stack with
      | nil => exact hpush (Ne.symm hup)
      | cons top rest =>
        rw [climb]
        split
        · exact hpush (Ne.symm hup)
        · exact fun hs => h (hs.trans (List.suffix_cons _ _))
    · rw [step_of_name hskip hclimb]
      exact hpush hc

theorem not_suffix_foldl (hup : base ≠ up) {cs : List (List Char)} (hcs : base ∉ cs)
    {stack : List (List Char)} (h : ¬ base :: above <:+ stack) :
    ¬ base :: above <:+ cs.foldl step stack := by
  induction cs generalizing stack with
  | nil => exact h
  | cons c cs ih =>
    obtain ⟨hc, hcs⟩ := List.ne_and_not_mem_of_not_mem_cons hcs
    exact ih hcs (not_suffix_step hup (Ne.symm hc) h)

/-- **A walk below a directory**: it ends as deep below it as `depth` says, or outside of
it. -/
theorem foldl_step (hup : base ≠ up) {cs : List (List Char)} (hcs : base ∉ cs)
    {below : List (List Char)} (hbelow : up ∉ below) :
    match depth below.length cs with
    | some d => ∃ below' : List (List Char), below'.length = d ∧
        cs.foldl step (below ++ base :: above) = below' ++ base :: above
    | none => ¬ base :: above <:+ cs.foldl step (below ++ base :: above) := by
  induction cs generalizing below with
  | nil => exact ⟨below, rfl, rfl⟩
  | cons c cs ih =>
    have hrest := List.not_mem_of_not_mem_cons hcs
    rw [List.foldl_cons]
    by_cases hskip : c = [] ∨ c = here
    · rw [depth_of_skip hskip, step_of_skip hskip]
      exact ih hrest hbelow
    · by_cases hclimb : c = up
      · subst hclimb
        rw [step_up]
        cases below with
        | nil =>
          -- the walk leaves the directory
          have hout : ¬ base :: above <:+ above := fun hs => absurd hs.length_le (by simp)
          rw [List.length_nil, depth_zero_up, List.nil_append, climb, if_neg hup]
          exact not_suffix_foldl hup hrest hout
        | cons top rest =>
          obtain ⟨htop, hbelow⟩ := List.ne_and_not_mem_of_not_mem_cons hbelow
          rw [List.length_cons, depth_succ_up, List.cons_append, climb, if_neg (Ne.symm htop)]
          exact ih hrest hbelow
      · rw [depth_of_name hskip hclimb, step_of_name hskip hclimb, ← List.cons_append]
        exact ih hrest (List.not_mem_cons_of_ne_of_not_mem (Ne.symm hclimb) hbelow)

end Walk

/-- **What lies inside of a directory**: a path that begins with it, and goes on with a
`rest` in which its name does not occur, leads below it if and only if `rest` never goes above
its start and ends below it. -/
theorem strictlyInside_iff {dir rest base : List Char} {above : List (List Char)}
    (hdir : resolve dir = above ++ [base]) (hup : base ≠ up) (hrest : base ∉ components rest) :
    StrictlyInside dir (dir ++ '/' :: rest) ↔
      ∃ d, depth 0 (components rest) = some (d + 1) := by
  have hstack : (components dir).foldl step [] = base :: above.reverse := by
    rw [resolve, List.reverse_eq_iff] at hdir
    simpa using hdir
  have hpath : (components (dir ++ '/' :: rest)).foldl step [] =
      (components rest).foldl step ([] ++ base :: above.reverse) := by
    rw [components_append, List.foldl_append, hstack, List.nil_append]
  have hwalk := @foldl_step base above.reverse hup _ hrest [] List.not_mem_nil
  rw [StrictlyInside, resolve, resolve, hstack, hpath, List.reverse_prefix, Ne, List.reverse_inj]
  rw [List.length_nil] at hwalk
  split at hwalk
  · rename_i d hd
    obtain ⟨below, hlen, hend⟩ := hwalk
    rw [hend, hd]
    refine ⟨fun h => ?_, fun h => ⟨List.suffix_append _ _, fun heq => ?_⟩⟩
    · cases d with
      | zero =>
        rw [List.length_eq_zero_iff.mp hlen] at h
        exact absurd rfl h.2
      | succ d => exact ⟨d, rfl⟩
    · obtain ⟨d', hd'⟩ := h
      have hl := congrArg List.length heq
      rw [List.length_append, hlen, Option.some.inj hd'] at hl
      omega
  · rename_i hd
    rw [hd]
    exact iff_of_false (fun h => hwalk h.1) fun h => by
      obtain ⟨d, hd⟩ := h
      cases hd

end LexicalPath
