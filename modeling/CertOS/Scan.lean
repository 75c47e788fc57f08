import Mathlib.Algebra.Group.Nat.Defs
import Mathlib.Data.List.Basic
import Mathlib.Data.List.TakeWhile

/-!
# Formatted input

The part of `<istream>` that reads words and numbers out of a text: the lines that
`std::getline` reads one after the other (`Scan.lines`), and the extraction of a word
(`Scan.word`) and of an unsigned number of 64 bits (`Scan.uint64`). An extraction that fails
leaves the stream failed, and the variables of all later ones as they were.

The other half is the format that a reader of such a text relies on: columns of numbers as
`printf` pads them (`Scan.Column`). What is written in columns is read back exactly, whatever
the widths (`Scan.uint64_column`), and so is a text that is put together from lines
(`Scan.lines_unlines`).
-/

namespace Scan

/-! ### Lines -/

/-- The lines that `std::getline` reads from a text one after the other. The last of them
needs no line break. -/
def lines : List Char → List (List Char)
  | [] => []
  | c :: s =>
    if c = '\n' then [] :: lines s
    else match lines s with
      | [] => [[c]]
      | line :: rest => (c :: line) :: rest

/-- The text of these lines, with a line break behind each. -/
def unlines (ls : List (List Char)) : List Char := ls.flatMap (· ++ ['\n'])

theorem lines_cons {c : Char} (h : c ≠ '\n') (s : List Char) :
    lines (c :: s) = (c :: (lines s).headD []) :: (lines s).tail := by
  rw [lines, if_neg h]
  cases lines s with
  | nil => rfl
  | cons line rest => rfl

/-- **The first line** is what stands in front of the first line break. -/
theorem lines_append {line : List Char} (h : '\n' ∉ line) (s : List Char) :
    lines (line ++ '\n' :: s) = line :: lines s := by
  induction line with
  | nil => rw [List.nil_append, lines, if_pos rfl]
  | cons c line ih =>
    have hc : c ≠ '\n' := fun hc => h (hc ▸ List.mem_cons_self)
    rw [List.cons_append, lines_cons hc, ih fun hmem => h (List.mem_cons_of_mem _ hmem)]
    rfl

/-- **A text of lines is read line by line.** -/
theorem lines_unlines {ls : List (List Char)} (h : ∀ line ∈ ls, '\n' ∉ line) :
    lines (unlines ls) = ls := by
  induction ls with
  | nil => rfl
  | cons line ls ih =>
    have hsplit : unlines (line :: ls) = line ++ '\n' :: unlines ls := by
      rw [unlines, List.flatMap_cons, List.append_assoc]
      rfl
    rw [hsplit, lines_append (h line List.mem_cons_self),
      ih fun l hl => h l (List.mem_cons_of_mem _ hl)]

/-! ### Extraction -/

/-- `std::isspace`, for the characters of ASCII. -/
def isSpace (c : Char) : Bool := c ∈ [' ', '\t', '\n', '\x0b', '\x0c', '\r']

/-- A stream: what has not been read yet, and whether an extraction has failed. -/
structure Input where
  rest : List Char
  fail : Bool := false

/-- `operator>>` into a string that holds `old`. -/
def word (old : List Char) (s : Input) : List Char × Input :=
  if s.fail then (old, s)
  else match s.rest.dropWhile isSpace with
    | [] => (old, { rest := [], fail := true })
    | t => (t.takeWhile (!isSpace ·), { rest := t.dropWhile (!isSpace ·) })

/-- The sign in front of a number. -/
def sign : List Char → Bool × List Char
  | '-' :: t => (true, t)
  | '+' :: t => (false, t)
  | t => (false, t)

/-- What `std::num_get` makes of a text that does not begin with a blank: a number of 64 bits,
negated if there is a minus sign. Where there is no digit, or too large a number, the
extraction fails, and the variable becomes zero, or the largest number. -/
def number (t : List Char) : UInt64 × Input :=
  let (negative, u) := sign t
  let digits := u.takeWhile Char.isDigit
  let rest := u.dropWhile Char.isDigit
  if digits = [] then (0, { rest := rest, fail := true })
  else
    let n := Nat.ofDigitChars 10 digits 0
    if n < 2 ^ 64 then
      (if negative then -UInt64.ofNat n else UInt64.ofNat n, { rest := rest })
    else (UInt64.ofNat (2 ^ 64 - 1), { rest := rest, fail := true })

/-- `operator>>` into a `uint64_t` that holds `old`. -/
def uint64 (old : UInt64) (s : Input) : UInt64 × Input :=
  if s.fail then (old, s)
  else match s.rest.dropWhile isSpace with
    | [] => (old, { rest := [], fail := true })
    | t => number t

/-- A text that a run of characters of a kind stops in front of. -/
def Stops (p : Char → Bool) (t : List Char) : Prop := ∀ c ∈ t.head?, p c = false

theorem stops_nil (p : Char → Bool) : Stops p [] := by
  intro c hc
  cases hc

theorem stops_cons {p : Char → Bool} {c : Char} (h : p c = false) (t : List Char) :
    Stops p (c :: t) := by
  intro d hd
  obtain rfl := Option.some.inj hd
  exact h

theorem takeWhile_of_stops {p : Char → Bool} {t : List Char} (h : Stops p t) :
    t.takeWhile p = [] := by
  cases t with
  | nil => rfl
  | cons c t => exact List.takeWhile_cons_of_neg (by rw [h c rfl]; exact Bool.false_ne_true)

theorem dropWhile_of_stops {p : Char → Bool} {t : List Char} (h : Stops p t) :
    t.dropWhile p = t := by
  cases t with
  | nil => rfl
  | cons c t => exact List.dropWhile_cons_of_neg (by rw [h c rfl]; exact Bool.false_ne_true)

/-- **A run ends where it is stopped.** -/
theorem takeWhile_append_of_stops {p : Char → Bool} {run t : List Char}
    (hrun : ∀ c ∈ run, p c = true) (h : Stops p t) : (run ++ t).takeWhile p = run := by
  rw [List.takeWhile_append_of_pos hrun, takeWhile_of_stops h, List.append_nil]

theorem dropWhile_append_of_stops {p : Char → Bool} {run t : List Char}
    (hrun : ∀ c ∈ run, p c = true) (h : Stops p t) : (run ++ t).dropWhile p = t := by
  rw [List.dropWhile_append_of_pos hrun, dropWhile_of_stops h]

/-- Blanks in front of a text are skipped. -/
theorem dropWhile_blanks {t : List Char} (h : Stops isSpace t) (n : ℕ) :
    (List.replicate n ' ' ++ t).dropWhile isSpace = t := by
  refine dropWhile_append_of_stops ?_ h
  intro c hc
  obtain rfl := List.eq_of_mem_replicate hc
  rfl

/-- A text without a blank. -/
def NoSpace (w : List Char) : Prop := w.all (!isSpace ·) = true

instance (w : List Char) : Decidable (NoSpace w) := inferInstanceAs (Decidable (_ = true))

theorem noSpace_iff {w : List Char} : NoSpace w ↔ ∀ c ∈ w, isSpace c = false := by
  simp [NoSpace]

/-- **A word is read** up to the blank behind it. -/
theorem word_blanks {w t : List Char} (hne : w ≠ []) (hw : NoSpace w)
    (ht : Stops (!isSpace ·) t) (n : ℕ) (old : List Char) :
    word old { rest := List.replicate n ' ' ++ (w ++ t) } = (w, { rest := t }) := by
  obtain ⟨c, w', rfl⟩ := List.exists_cons_of_ne_nil hne
  have hstop : Stops isSpace (c :: w' ++ t) :=
    stops_cons (noSpace_iff.mp hw c List.mem_cons_self) _
  have hrun : ∀ d ∈ c :: w', (!isSpace d) = true := List.all_eq_true.mp hw
  rw [word, if_neg Bool.false_ne_true, dropWhile_blanks hstop]
  have htake := takeWhile_append_of_stops hrun ht
  have hdrop := dropWhile_append_of_stops hrun ht
  rw [List.cons_append] at htake hdrop ⊢
  simp only [htake, hdrop]

/-! ### Columns -/

/-- A number in a column of some width, as `printf` writes it after a blank. -/
structure Column where
  width : ℕ
  value : UInt64

namespace Column

/-- The digits of the number. -/
def digits (c : Column) : List Char := Nat.toDigits 10 c.value.toNat

/-- The text of a column. -/
def text (c : Column) : List Char := ' ' :: List.leftpad c.width ' ' c.digits

theorem isDigit_of_mem_digits {c : Column} {d : Char} (h : d ∈ c.digits) : d.isDigit = true :=
  Nat.isDigit_of_mem_toDigits (by decide) (by decide) h

theorem digits_ne_nil (c : Column) : c.digits ≠ [] := Nat.toDigits_ne_nil

theorem text_eq (c : Column) :
    c.text = List.replicate (c.width - c.digits.length + 1) ' ' ++ c.digits := rfl

end Column

theorem isSpace_of_isDigit {d : Char} (h : d.isDigit = true) : isSpace d = false := by
  rw [isSpace, decide_eq_false_iff_not]
  intro hmem
  simp only [List.mem_cons, List.not_mem_nil, or_false] at hmem
  rcases hmem with rfl | rfl | rfl | rfl | rfl | rfl <;> exact absurd h (by decide)

/-- A digit is no sign. -/
theorem sign_of_isDigit {d : Char} (h : d.isDigit = true) (t : List Char) :
    sign (d :: t) = (false, d :: t) := by
  unfold sign
  split
  · rename_i heq
    obtain ⟨rfl, -⟩ := List.cons.inj heq
    exact absurd h (by decide)
  · rename_i heq
    obtain ⟨rfl, -⟩ := List.cons.inj heq
    exact absurd h (by decide)
  · rfl

/-- The digits of a number of 64 bits are read as this number. -/
theorem number_digits (c : Column) {t : List Char} (h : Stops Char.isDigit t) :
    number (c.digits ++ t) = (c.value, { rest := t }) := by
  obtain ⟨d, ds, hd⟩ := List.exists_cons_of_ne_nil c.digits_ne_nil
  have hsign : sign (c.digits ++ t) = (false, c.digits ++ t) := by
    rw [hd, List.cons_append]
    exact sign_of_isDigit (Column.isDigit_of_mem_digits (hd ▸ List.mem_cons_self)) _
  have htake := takeWhile_append_of_stops (fun d => Column.isDigit_of_mem_digits (c := c)) h
  have hdrop := dropWhile_append_of_stops (fun d => Column.isDigit_of_mem_digits (c := c)) h
  have hvalue : Nat.ofDigitChars 10 c.digits 0 = c.value.toNat :=
    Nat.ofDigitChars_ten_toDigits
  simp only [number, hsign, htake, hdrop, if_neg c.digits_ne_nil, hvalue,
    if_pos c.value.toNat_lt, UInt64.ofNat_toNat, Bool.false_eq_true, if_false]

/-- **A column is read back**, whatever its width. -/
theorem uint64_column (old : UInt64) (c : Column) {t : List Char} (h : Stops Char.isDigit t) :
    uint64 old { rest := c.text ++ t } = (c.value, { rest := t }) := by
  obtain ⟨d, ds, hd⟩ := List.exists_cons_of_ne_nil c.digits_ne_nil
  have hspace : isSpace d = false :=
    isSpace_of_isDigit (Column.isDigit_of_mem_digits (hd ▸ List.mem_cons_self))
  have hstop : Stops isSpace (c.digits ++ t) := by
    rw [hd, List.cons_append]
    exact stops_cons hspace _
  rw [uint64, if_neg Bool.false_ne_true, c.text_eq, List.append_assoc, dropWhile_blanks hstop]
  have hnumber := number_digits c h
  rw [hd, List.cons_append] at hnumber ⊢
  exact hnumber

/-! ### Rows -/

/-- The text of a row of columns. -/
def row (cs : List Column) : List Char := cs.flatMap Column.text

/-- A row begins with a blank, if there is any column in it. -/
theorem stops_row {p : Char → Bool} (h : p ' ' = false) (cs : List Column) :
    Stops p (row cs) := by
  cases cs with
  | nil => exact stops_nil p
  | cons c cs => exact stops_cons h _

/-- **A row is read column by column.** -/
theorem uint64_row (old : UInt64) (c : Column) (cs : List Column) :
    uint64 old { rest := row (c :: cs) } = (c.value, { rest := row cs }) :=
  uint64_column old c (stops_row (by decide) cs)

theorem newline_not_mem_row (cs : List Column) : '\n' ∉ row cs := by
  intro h
  obtain ⟨c, -, hc⟩ := List.mem_flatMap.mp h
  rw [c.text_eq] at hc
  rcases List.mem_append.mp hc with hc | hc
  · exact absurd (List.eq_of_mem_replicate hc) (by decide)
  · exact absurd (Column.isDigit_of_mem_digits hc) (by decide)

end Scan
