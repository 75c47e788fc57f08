import Mathlib.Algebra.BigOperators.Group.List.Basic
import Mathlib.Algebra.Order.Ring.Nat
import Mathlib.Data.List.Basic

/-!
# The words of a shell command

`Shell.lex` splits a command line into words as a POSIX shell does: at blanks, with the three
ways of quoting taken into account and their quotes removed. It fails if the line is more than
the words of one simple command, because of a control operator, a redirection or a line break;
if a word is not what is written there, because of an expansion; and if a quotation is not
closed. What a shell does to the words afterwards, such as looking for files of a pattern, does
not split the line and is left out.

A command line is often put together from words with blanks between them and no quotes. The
shell gets the words back just if each of them is a *plain word*, which is not empty, does not
begin a comment and has none of the characters that mean something to the shell
(`Shell.lex_unwords_iff`). One half is the round trip. The other is an account of lengths: no
character of the line is in two words, and the quotes of a quoted character are in none
(`Shell.size_le_of_lex`), so a line that is just long enough for its words has no quotes.
-/

namespace Shell

/-! ### The characters -/

/-- The characters that separate words. -/
def isBlank (c : Char) : Bool := c = ' ' || c = '\t'

/-- The characters an operator begins with, and the line break. -/
def isOperator (c : Char) : Bool := c ∈ ['\n', '&', '|', ';', '<', '>', '(', ')']

/-- The dollar sign and the grave accent, with which expansions begin. -/
def isExpansion (c : Char) : Bool := c = '$' || c = '\x60'

/-- The apostrophe, the quotation mark and the backslash. -/
def isQuote (c : Char) : Bool := c = '\x27' || c = '\x22' || c = '\x5c'

/-- The characters that mean nothing inside a word. -/
def isPlain (c : Char) : Bool := !(isBlank c || isOperator c || isExpansion c || isQuote c)

/-! ### The lexer -/

/-- What the lexer is in the middle of. -/
inductive Mode where
  /-- Outside quotes, in a word or between two words. -/
  | plain (w : Option (List Char))
  /-- After a backslash outside quotes. -/
  | escaped (w : Option (List Char))
  /-- Between apostrophes. -/
  | single (w : List Char)
  /-- Between quotation marks. -/
  | double (w : List Char)
  /-- After a backslash between quotation marks. -/
  | escapedDouble (w : List Char)
  /-- In a comment. -/
  | comment

/-- The words of a command line, if it is one simple command of nothing but words that stand
for themselves. -/
def lex : Mode → List Char → Option (List (List Char))
  | .plain w, [] => some w.toList
  | .comment, [] => some []
  | .escaped _, [] | .single _, [] | .double _, [] | .escapedDouble _, [] => none
  | .plain w, c :: s =>
    if isBlank c then (lex (.plain none) s).map (w.toList ++ ·)
    else if isOperator c || isExpansion c then none
    else if c = '\x27' then lex (.single (w.getD [])) s
    else if c = '\x22' then lex (.double (w.getD [])) s
    else if c = '\x5c' then lex (.escaped w) s
    else if c = '#' && w.isNone then lex .comment s
    else lex (.plain (some (w.getD [] ++ [c]))) s
  | .escaped w, c :: s =>
    -- a line break behind a backslash is no character of the line
    if c = '\n' then lex (.plain w) s else lex (.plain (some (w.getD [] ++ [c]))) s
  | .single w, c :: s =>
    if c = '\x27' then lex (.plain (some w)) s else lex (.single (w ++ [c])) s
  | .double w, c :: s =>
    if c = '\x22' then lex (.plain (some w)) s
    else if isExpansion c then none
    else if c = '\x5c' then lex (.escapedDouble w) s
    else lex (.double (w ++ [c])) s
  | .escapedDouble w, c :: s =>
    if c = '\n' then lex (.double w) s
    else if isExpansion c || c = '\x22' || c = '\x5c' then lex (.double (w ++ [c])) s
    else lex (.double (w ++ ['\x5c', c])) s
  | .comment, c :: s => if c = '\n' then none else lex .comment s

/-- `Shell.lex` for strings. -/
def words (s : String) : Option (List String) :=
  (lex (.plain none) s.toList).map (·.map String.ofList)

/-- The words with a blank between any two. -/
def unwords (ws : List (List Char)) : List Char := [' '].intercalate ws

/-- A word that needs no quotes. -/
def IsPlainWord (w : List Char) : Prop :=
  w ≠ [] ∧ w.head? ≠ some '#' ∧ ∀ c ∈ w, isPlain c = true

instance (w : List Char) : Decidable (IsPlainWord w) :=
  decidable_of_iff (w ≠ [] ∧ w.head? ≠ some '#' ∧ w.all isPlain = true)
    (by rw [IsPlainWord, List.all_eq_true])

theorem words_eq_some {s : String} {ws : List String} :
    words s = some ws ↔ lex (.plain none) s.toList = some (ws.map String.toList) := by
  rw [words, Option.map_eq_some_iff]
  constructor
  · rintro ⟨ws', h, rfl⟩
    rw [h, List.map_map]
    have hid : String.toList ∘ String.ofList = id := funext fun _ => String.toList_ofList
    rw [hid, List.map_id]
  · intro h
    refine ⟨_, h, ?_⟩
    have hid : String.ofList ∘ String.toList = id := funext fun _ => String.ofList_toList
    rw [List.map_map, hid, List.map_id]

variable {m : Mode} {c : Char} {s t w u : List Char} {ws : List (List Char)}

/-! ### Plain characters -/

/-- A plain character goes into the word. -/
theorem lex_plain_cons {o : Option (List Char)} (hc : isPlain c = true)
    (ho : o = none → c ≠ '#') :
    lex (.plain o) (c :: s) = lex (.plain (some (o.getD [] ++ [c]))) s := by
  simp only [isPlain, isQuote, Bool.not_eq_true', Bool.or_eq_false_iff, decide_eq_false_iff_not]
    at hc
  obtain ⟨⟨⟨hblank, hop⟩, hexp⟩, ⟨hsingle, hdouble⟩, hback⟩ := hc
  have hcomment : (decide (c = '#') && o.isNone) = false := by
    rw [Bool.and_eq_false_iff, decide_eq_false_iff_not, Option.isNone_eq_false_iff,
      Option.isSome_iff_ne_none]
    by_cases hnone : o = none
    · exact Or.inl (ho hnone)
    · exact Or.inr hnone
  rw [lex, hblank, hop, hexp, hcomment, if_neg hsingle, if_neg hdouble, if_neg hback]
  rfl

/-- Plain characters go into the word. -/
theorem lex_plain_append (hu : ∀ c ∈ u, isPlain c = true) :
    lex (.plain (some w)) (u ++ s) = lex (.plain (some (w ++ u))) s := by
  induction u generalizing w with
  | nil => rw [List.nil_append, List.append_nil]
  | cons c u ih =>
    rw [List.cons_append, lex_plain_cons (hu c List.mem_cons_self) (by rintro ⟨⟩),
      ih fun c hc => hu c (List.mem_cons_of_mem _ hc), Option.getD_some, List.append_assoc,
      List.singleton_append]

/-- A plain word is read. -/
theorem lex_word (hw : IsPlainWord w) :
    lex (.plain none) (w ++ s) = lex (.plain (some w)) s := by
  obtain ⟨hne, hhead, hplain⟩ := hw
  obtain ⟨c, u, rfl⟩ := List.exists_cons_of_ne_nil hne
  have hc : c ≠ '#' := fun h => hhead (congrArg some h)
  rw [List.cons_append, lex_plain_cons (hplain c List.mem_cons_self) fun _ => hc,
    lex_plain_append fun c hc => hplain c (List.mem_cons_of_mem _ hc)]
  rfl

theorem unwords_singleton : unwords [w] = w := List.intercalate_singleton

theorem unwords_cons (hws : ws ≠ []) : unwords (w :: ws) = w ++ ' ' :: unwords ws := by
  rw [unwords, List.intercalate_cons_of_ne_nil hws, List.append_assoc, List.singleton_append]
  rfl

/-- A blank ends the word. -/
theorem lex_blank : lex (.plain (some w)) (' ' :: s) = (lex (.plain none) s).map (w :: ·) := rfl

/-! ### The account of lengths -/

/-- The characters of some words, with one more for the end of each. -/
def size (ws : List (List Char)) : ℕ := (ws.map fun w => w.length + 1).sum

@[simp] theorem size_nil : size [] = 0 := rfl

@[simp] theorem size_cons : size (w :: ws) = w.length + 1 + size ws := by
  rw [size, List.map_cons, List.sum_cons, size]

/-- The characters that have been read for the word, with one more if no quotation is open. -/
def Mode.held : Mode → ℕ
  | .plain w | .escaped w => (w.getD []).length + 1
  | .single w | .double w => w.length
  | .escapedDouble w => w.length + 1
  | .comment => 0

/-- A character is added to the word. -/
theorem held_plain_concat : (Mode.plain (some (w ++ [c]))).held = w.length + 2 := by
  rw [Mode.held, Option.getD_some, List.length_append, List.length_singleton]

theorem held_double_concat : (Mode.double (w ++ [c])).held = w.length + 1 :=
  List.length_append

/-- The account for a character outside quotes. -/
theorem size_le_of_lex_plain {o : Option (List Char)}
    (ih : ∀ {m ws}, lex m s = some ws → size ws ≤ m.held + s.length)
    (h : lex (.plain o) (c :: s) = some ws) : size ws ≤ (Mode.plain o).held + (s.length + 1) := by
  have hheld : (Mode.plain o).held = (o.getD []).length + 1 := rfl
  rw [lex] at h
  split at h
  · -- the word ends here, if there is one
    obtain ⟨ws', hws', rfl⟩ := Option.map_eq_some_iff.mp h
    have hle : size ws' ≤ 1 + s.length := ih hws'
    cases o with
    | none =>
      rw [Option.toList_none, List.nil_append]
      omega
    | some w =>
      rw [Option.toList_some, List.singleton_append, size_cons]
      rw [Option.getD_some] at hheld
      omega
  split at h
  · cases h
  split at h
  · have hle : size ws ≤ (o.getD []).length + s.length := ih h
    omega
  split at h
  · have hle : size ws ≤ (o.getD []).length + s.length := ih h
    omega
  split at h
  · have hle : size ws ≤ (o.getD []).length + 1 + s.length := ih h
    omega
  split at h
  · have hle : size ws ≤ 0 + s.length := ih h
    omega
  · have hle := ih h
    rw [held_plain_concat] at hle
    omega

/-- **The account of lengths**: the words have no more characters than the line. -/
theorem size_le_of_lex (h : lex m s = some ws) : size ws ≤ m.held + s.length := by
  induction s generalizing m ws with
  | nil =>
    cases m with
    | plain w =>
      obtain rfl := Option.some.inj h
      cases w with
      | none => exact Nat.zero_le _
      | some w => exact le_refl _
    | comment =>
      obtain rfl := Option.some.inj h
      exact le_refl _
    | _ => cases h
  | cons c s ih =>
    rw [List.length_cons]
    cases m with
    | plain o => exact size_le_of_lex_plain ih h
    | escaped o =>
      have hheld : (Mode.escaped o).held = (o.getD []).length + 1 := rfl
      rw [lex] at h
      split at h
      · have hle : size ws ≤ (o.getD []).length + 1 + s.length := ih h
        omega
      · have hle := ih h
        rw [held_plain_concat] at hle
        omega
    | single w =>
      have hheld : (Mode.single w).held = w.length := rfl
      rw [lex] at h
      split at h
      · have hle : size ws ≤ w.length + 1 + s.length := ih h
        omega
      · have hle : size ws ≤ (w ++ [c]).length + s.length := ih h
        rw [List.length_append, List.length_singleton] at hle
        omega
    | double w =>
      have hheld : (Mode.double w).held = w.length := rfl
      rw [lex] at h
      split at h
      · have hle : size ws ≤ w.length + 1 + s.length := ih h
        omega
      split at h
      · cases h
      split at h
      · have hle : size ws ≤ w.length + 1 + s.length := ih h
        omega
      · have hle := ih h
        rw [held_double_concat] at hle
        omega
    | escapedDouble w =>
      have hheld : (Mode.escapedDouble w).held = w.length + 1 := rfl
      rw [lex] at h
      split at h
      · have hle : size ws ≤ w.length + s.length := ih h
        omega
      split at h
      · have hle := ih h
        rw [held_double_concat] at hle
        omega
      · have hle : size ws ≤ (w ++ ['\x5c', c]).length + s.length := ih h
        rw [List.length_append, List.length_cons, List.length_singleton] at hle
        omega
    | comment =>
      rw [lex] at h
      split at h
      · cases h
      · have hle : size ws ≤ 0 + s.length := ih h
        have hheld : Mode.comment.held = 0 := rfl
        omega

/-! ### Reading back -/

/-- What the lexer does at a character that is not plain: it fails, it ends the word, or it
loses a character. -/
theorem not_plain_cases {o : Option (List Char)} (hc : isPlain c = false)
    (h : lex (.plain o) (c :: s) = some ws) :
    (∃ ws', isBlank c = true ∧ lex (.plain none) s = some ws' ∧ ws = o.toList ++ ws') ∨
      size ws ≤ (Mode.plain o).held + s.length := by
  have hheld : (Mode.plain o).held = (o.getD []).length + 1 := rfl
  simp only [isPlain, isQuote, Bool.not_eq_false', Bool.or_eq_true, decide_eq_true_eq] at hc
  rw [lex] at h
  split at h
  · rename_i hblank
    obtain ⟨ws', hws', rfl⟩ := Option.map_eq_some_iff.mp h
    exact Or.inl ⟨ws', hblank, hws', rfl⟩
  refine Or.inr ?_
  split at h
  · cases h
  split at h
  · have hle : size ws ≤ (o.getD []).length + s.length := size_le_of_lex h
    omega
  split at h
  · have hle : size ws ≤ (o.getD []).length + s.length := size_le_of_lex h
    omega
  split at h
  · have hle : size ws ≤ (o.getD []).length + 1 + s.length := size_le_of_lex h
    omega
  · rename_i hblank hop hsingle hdouble hback
    rw [Bool.or_eq_true] at hop
    tauto

/-- **A line that is just long enough has no quotes**: if the rest of a word and what follows
it are read as they are written, and what follows is just long enough for its words, then the
rest of the word is plain. -/
theorem forall_isPlain_of_lex (hsize : size ws = t.length)
    (h : lex (.plain (some w)) (u ++ t) = some ((w ++ u) :: ws)) : ∀ c ∈ u, isPlain c = true := by
  induction u generalizing w with
  | nil =>
    rintro c ⟨⟩
  | cons c u ih =>
    rw [List.cons_append] at h
    cases hc : isPlain c with
    | true =>
      rw [lex_plain_cons hc (by rintro ⟨⟩), Option.getD_some] at h
      have htail := ih (w := w ++ [c]) (by rwa [List.append_assoc])
      rintro d (_ | ⟨_, hd⟩)
      · exact hc
      · exact htail d hd
    | false =>
      rcases not_plain_cases hc h with ⟨ws', -, -, heq⟩ | hle
      · -- a word that ends here is too short
        have hlen := congrArg List.length (List.cons.inj heq).1
        rw [List.length_append, List.length_cons] at hlen
        omega
      · have hheld : (Mode.plain (some w)).held = w.length + 1 := rfl
        rw [size_cons, List.length_append, List.length_append, List.length_cons] at hle
        omega

/-- A word that is read as it is written is plain. -/
theorem isPlainWord_of_lex (hne : w ≠ []) (hsize : size ws = t.length)
    (h : lex (.plain none) (w ++ t) = some (w :: ws)) : IsPlainWord w := by
  obtain ⟨c, u, rfl⟩ := List.exists_cons_of_ne_nil hne
  have hheld : (Mode.plain none).held = 1 := rfl
  rw [List.cons_append] at h
  have htight : ¬ size ((c :: u) :: ws) ≤ (u ++ t).length + 1 := by
    rw [size_cons, List.length_cons, List.length_append]
    omega
  cases hc : isPlain c with
  | false =>
    rcases not_plain_cases hc h with ⟨ws', -, hrest, heq⟩ | hle
    · obtain rfl : (c :: u) :: ws = ws' := heq
      have hle := size_le_of_lex hrest
      omega
    · omega
  | true =>
    by_cases hhash : c = '#'
    · subst hhash
      have hle : size (('#' :: u) :: ws) ≤ 0 + (u ++ t).length :=
        size_le_of_lex (m := .comment) h
      omega
    · rw [lex_plain_cons hc fun _ => hhash] at h
      have hplain := forall_isPlain_of_lex (w := [c]) hsize h
      refine ⟨hne, fun hhead => hhash (Option.some.inj hhead), ?_⟩
      rintro d (_ | ⟨_, hd⟩)
      · exact hc
      · exact hplain d hd

/-- Words with blanks between them are just long enough. -/
theorem size_eq_length_unwords (hws : ws ≠ []) : size ws = (unwords ws).length + 1 := by
  induction ws with
  | nil => exact absurd rfl hws
  | cons w ws ih =>
    by_cases hnil : ws = []
    · subst hnil
      rw [unwords_singleton, size_cons, size_nil]
    · rw [unwords_cons hnil, size_cons, ih hnil, List.length_append, List.length_cons]
      omega

/-- **The words are read back** from a line where they stand with blanks between them and no
quotes, if and only if each of them is a plain word. -/
theorem lex_unwords_iff (hne : ∀ w ∈ ws, w ≠ []) :
    lex (.plain none) (unwords ws) = some ws ↔ ∀ w ∈ ws, IsPlainWord w := by
  induction ws with
  | nil => exact iff_of_true rfl (by rintro w ⟨⟩)
  | cons w ws ih =>
    have hw := hne w List.mem_cons_self
    rw [List.forall_mem_cons]
    by_cases hnil : ws = []
    · subst hnil
      rw [unwords_singleton]
      constructor
      · intro h
        have hread : lex (.plain none) (w ++ []) = some [w] := by rwa [List.append_nil]
        exact ⟨isPlainWord_of_lex hw rfl hread, by rintro w ⟨⟩⟩
      · rintro ⟨hplain, -⟩
        have hread := lex_word (s := []) hplain
        rw [List.append_nil] at hread
        rw [hread]
        rfl
    · rw [unwords_cons hnil, ← ih fun w hw => hne w (List.mem_cons_of_mem _ hw)]
      -- once the first word is plain, the others are read as they were
      have hread (hplain : IsPlainWord w) :
          lex (.plain none) (w ++ ' ' :: unwords ws) = some (w :: ws) ↔
            lex (.plain none) (unwords ws) = some ws := by
        rw [lex_word hplain, lex_blank, Option.map_eq_some_iff]
        constructor
        · rintro ⟨ws', hws', heq⟩
          obtain ⟨-, rfl⟩ := List.cons.inj heq
          exact hws'
        · intro h
          exact ⟨ws, h, rfl⟩
      constructor
      · intro h
        have hplain := isPlainWord_of_lex hw
          (by rw [size_eq_length_unwords hnil, List.length_cons]) h
        exact ⟨hplain, (hread hplain).mp h⟩
      · rintro ⟨hplain, h⟩
        exact (hread hplain).mpr h

end Shell
