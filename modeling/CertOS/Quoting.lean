import Mathlib.Data.List.Basic

/-!
# Quoted literals

A literal of a language is written between two delimiters, and a delimiter
inside it is written twice: the string literals of SQL, the fields of CSV.
`Quoting.readLiteral` is the reader, for any alphabet and any delimiter `q`,
and `Quoting.escape` the printer.

The question answered here is what the reader makes of a text that was pasted
between two delimiters without being escaped. If the delimiters in the text
come in pairs (`Quoting.paired`), it reads the text with every pair collapsed
(`Quoting.readLiteral_append`); if they do not, it stops somewhere inside the
text (`Quoting.paired_of_readLiteral`). The paired texts are exactly those the
printer produces (`Quoting.escape_unquote`, `Quoting.paired_escape`), so
different ones stay different, and a text comes back unchanged just when it has
no delimiter at all (`Quoting.unquote_eq_self`).
-/

namespace Quoting

variable {α : Type} [DecidableEq α] (q : α)

/-- Read a literal whose opening delimiter has been read: its contents, and what
follows its closing delimiter. -/
def readLiteral : List α → Option (List α × List α)
  | [] => none
  | [c] => if c = q then some ([], []) else none
  | c :: d :: s =>
    if c = q then
      if d = q then (readLiteral s).map fun r => (q :: r.1, r.2) else some ([], d :: s)
    else (readLiteral (d :: s)).map fun r => (c :: r.1, r.2)

/-- The delimiters of a text come in pairs. -/
def paired : List α → Bool
  | [] => true
  | [c] => c ≠ q
  | c :: d :: s => if c = q then d = q && paired s else paired (d :: s)

/-- A text with every pair of delimiters collapsed. -/
def unquote : List α → List α
  | [] => []
  | [c] => [c]
  | c :: d :: s => if c = q then q :: unquote s else c :: unquote (d :: s)

/-- A text with every delimiter doubled. -/
def escape (s : List α) : List α := s.flatMap fun c => if c = q then [q, q] else [c]

variable {q}

@[simp] theorem escape_nil : escape q [] = [] := rfl

theorem escape_cons_self (s : List α) : escape q (q :: s) = q :: q :: escape q s := by
  simp [escape]

theorem escape_cons_of_ne {c : α} (h : c ≠ q) (s : List α) :
    escape q (c :: s) = c :: escape q s := by
  simp [escape, h]

/-! ### Reading what was pasted -/

/-- A closing delimiter with nothing doubled after it ends the literal. -/
theorem readLiteral_close {rest : List α} (h : rest.head? ≠ some q) :
    readLiteral q (q :: rest) = some ([], rest) := by
  cases rest with
  | nil => simp [readLiteral]
  | cons d s =>
    have hd : d ≠ q := fun hd => h (by rw [hd]; rfl)
    simp [readLiteral, hd]

theorem readLiteral_cons_of_ne {c : α} (h : c ≠ q) (s : List α) :
    readLiteral q (c :: s) = (readLiteral q s).map fun r => (c :: r.1, r.2) := by
  cases s with
  | nil => simp [readLiteral, h]
  | cons d s => rw [readLiteral, if_neg h]

/-- **A paired text is read whole**, with its pairs collapsed. -/
theorem readLiteral_append {s rest : List α} (hs : paired q s = true)
    (hrest : rest.head? ≠ some q) :
    readLiteral q (s ++ q :: rest) = some (unquote q s, rest) := by
  induction s using paired.induct q with
  | case1 => exact readLiteral_close hrest
  | case2 c =>
    have hc : c ≠ q := by simpa [paired] using hs
    rw [List.singleton_append, readLiteral_cons_of_ne hc, readLiteral_close hrest]
    rfl
  | case3 d s ih =>
    obtain ⟨rfl, hs⟩ : d = q ∧ paired q s = true := by simpa [paired] using hs
    rw [List.cons_append, List.cons_append, readLiteral, if_pos rfl, if_pos rfl, ih hs, unquote,
      if_pos rfl]
    rfl
  | case4 c d s hc ih =>
    have hs' : paired q (d :: s) = true := by simpa [paired, hc] using hs
    rw [List.cons_append, readLiteral_cons_of_ne hc, ih hs', unquote, if_neg hc]
    rfl

/-! ### The paired texts -/

theorem paired_cons_of_ne {c : α} (h : c ≠ q) (s : List α) : paired q (c :: s) = paired q s := by
  cases s with
  | nil => simp [paired, h]
  | cons d s => rw [paired, if_neg h]

theorem mem_escape {a : α} {s : List α} : a ∈ escape q s ↔ a ∈ s := by
  simp only [escape, List.mem_flatMap]
  constructor
  · rintro ⟨c, hc, ha⟩
    split at ha
    · rename_i hcq
      obtain rfl : a = q := by simpa using ha
      exact hcq ▸ hc
    · exact List.mem_singleton.mp ha ▸ hc
  · intro ha
    refine ⟨a, ha, ?_⟩
    split
    · rename_i haq
      simp [haq]
    · simp

/-- What the printer produces is paired. -/
theorem paired_escape (s : List α) : paired q (escape q s) = true := by
  induction s with
  | nil => rfl
  | cons c s ih =>
    by_cases hc : c = q
    · subst hc
      rw [escape_cons_self, paired, if_pos rfl, ih]
      simp
    · rw [escape_cons_of_ne hc, paired_cons_of_ne hc, ih]

/-- **The reader inverts the printer**: it has read the printed form of what it
returns. -/
theorem eq_of_readLiteral {t c rest : List α} (h : readLiteral q t = some (c, rest)) :
    t = escape q c ++ q :: rest := by
  induction t using readLiteral.induct q generalizing c with
  | case1 => cases h
  | case2 =>
    obtain ⟨rfl, rfl⟩ : [] = c ∧ [] = rest := by simpa [readLiteral] using h
    rfl
  | case3 a ha => simp [readLiteral, ha] at h
  | case4 s ih =>
    rw [readLiteral, if_pos rfl, if_pos rfl] at h
    obtain ⟨⟨c', rest'⟩, hs, hr⟩ := Option.map_eq_some_iff.mp h
    obtain ⟨rfl, rfl⟩ := Prod.mk.inj hr
    rw [ih hs, escape_cons_self]
    rfl
  | case5 d s hd =>
    rw [readLiteral, if_pos rfl, if_neg hd] at h
    obtain ⟨rfl, rfl⟩ := Prod.mk.inj (Option.some.inj h)
    rfl
  | case6 a d s ha ih =>
    rw [readLiteral, if_neg ha] at h
    obtain ⟨⟨c', rest'⟩, hs, hr⟩ := Option.map_eq_some_iff.mp h
    obtain ⟨rfl, rfl⟩ := Prod.mk.inj hr
    rw [ih hs, escape_cons_of_ne ha]
    rfl

/-- A text that is read whole, up to what follows it, is paired. -/
theorem paired_of_readLiteral {s c rest : List α}
    (h : readLiteral q (s ++ q :: rest) = some (c, rest)) : paired q s = true := by
  rw [List.append_cancel_right (eq_of_readLiteral h)]
  exact paired_escape c

/-- **A paired text is the printed form** of what it is read as. -/
theorem escape_unquote {s : List α} (hs : paired q s = true) : escape q (unquote q s) = s := by
  induction s using paired.induct q with
  | case1 => rfl
  | case2 c =>
    have hc : c ≠ q := by simpa [paired] using hs
    rw [unquote, escape_cons_of_ne hc, escape_nil]
  | case3 d s ih =>
    obtain ⟨rfl, hs⟩ : d = q ∧ paired q s = true := by simpa [paired] using hs
    rw [unquote, if_pos rfl, escape_cons_self, ih hs]
  | case4 c d s hc ih =>
    have hs' : paired q (d :: s) = true := by simpa [paired, hc] using hs
    rw [unquote, if_neg hc, escape_cons_of_ne hc, ih hs']

/-- Collapsing the pairs adds nothing to a text. -/
theorem mem_unquote {s : List α} (hs : paired q s = true) {a : α} : a ∈ unquote q s ↔ a ∈ s := by
  rw [← mem_escape (q := q), escape_unquote hs]

/-- Different paired texts are read as different contents. -/
theorem unquote_inj {s t : List α} (hs : paired q s = true) (ht : paired q t = true)
    (h : unquote q s = unquote q t) : s = t := by
  rw [← escape_unquote hs, h, escape_unquote ht]

theorem length_escape (s : List α) : (escape q s).length = s.length + s.count q := by
  induction s with
  | nil => rfl
  | cons c s ih =>
    by_cases hc : c = q
    · subst hc
      rw [escape_cons_self, List.count_cons_self]
      simp only [List.length_cons, ih]
      omega
    · rw [escape_cons_of_ne hc, List.count_cons_of_ne hc]
      simp only [List.length_cons, ih]
      omega

theorem paired_of_not_mem {s : List α} (h : q ∉ s) : paired q s = true := by
  induction s using paired.induct q with
  | case1 => rfl
  | case2 c =>
    have hc : c ≠ q := fun hc => h (List.mem_singleton.mpr hc.symm)
    simp [paired, hc]
  | case3 d s ih => exact absurd List.mem_cons_self h
  | case4 c d s hc ih =>
    rw [paired, if_neg hc]
    exact ih fun hm => h (List.mem_cons_of_mem _ hm)

/-- A text without the delimiter may stand in front. -/
theorem paired_append_of_not_mem {s t : List α} (h : q ∉ s) :
    paired q (s ++ t) = paired q t := by
  induction s with
  | nil => rfl
  | cons c s ih =>
    have hc : c ≠ q := fun hc => h (hc ▸ List.mem_cons_self)
    rw [List.cons_append, paired_cons_of_ne hc, ih fun hm => h (List.mem_cons_of_mem _ hm)]

theorem unquote_of_not_mem {s : List α} (h : q ∉ s) : unquote q s = s := by
  induction s using paired.induct q with
  | case1 => rfl
  | case2 c => rfl
  | case3 d s ih => exact absurd List.mem_cons_self h
  | case4 c d s hc ih =>
    rw [unquote, if_neg hc, ih fun hm => h (List.mem_cons_of_mem _ hm)]

/-- **A paired text comes back unchanged** just when it has no delimiter. -/
theorem unquote_eq_self {s : List α} (hs : paired q s = true) : unquote q s = s ↔ q ∉ s := by
  constructor
  · intro h hmem
    have hesc : escape q s = s := by
      have := escape_unquote hs
      rwa [h] at this
    have hlen := length_escape (q := q) s
    have hcount := List.count_pos_iff.mpr hmem
    rw [hesc] at hlen
    omega
  · exact unquote_of_not_mem

end Quoting
