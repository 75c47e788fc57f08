import Mathlib.Algebra.Group.Nat.Defs
import Mathlib.Data.List.Infix
import Mathlib.Data.Nat.Notation

/-!
# Substring search

`std::string::find`, on lists of characters. The last part is about lists that
are written into one text with a separator between their elements: a pattern
without the separator occurs in such a text only inside an element.
-/

namespace Text

variable {α : Type} [DecidableEq α]

/-- The first position at which `pat` occurs in a text, if it does. -/
def find (pat : List α) : List α → Option ℕ
  | [] => if pat = [] then some 0 else none
  | c :: s => if pat <+: c :: s then some 0 else (find pat s).map (· + 1)

/-- **A search succeeds exactly when the pattern occurs.** -/
theorem find_isSome {pat s : List α} : (find pat s).isSome = true ↔ pat <:+: s := by
  induction s with
  | nil =>
    rw [find]
    by_cases h : pat = []
    · simp [h]
    · simp [h]
  | cons c s ih =>
    rw [find]
    split
    · rename_i h
      simp [h.isInfix]
    · rename_i h
      rw [Option.isSome_map, ih, List.infix_cons_iff]
      simp [h]

theorem find_eq_none {pat s : List α} : find pat s = none ↔ ¬pat <:+: s := by
  rw [← find_isSome]
  cases find pat s <;> simp

/-- **A search passes over what cannot start the pattern**: if a text that starts with
the pattern stands after one without the first character of the pattern, it is found
there. -/
theorem find_append {a : α} {pat pre s : List α} (hpre : a ∉ pre) (hs : a :: pat <+: s) :
    find (a :: pat) (pre ++ s) = some pre.length := by
  induction pre with
  | nil =>
    cases s with
    | nil => exact absurd hs.length_le (by simp)
    | cons c s => exact if_pos hs
  | cons c pre ih =>
    have hne : ¬ a :: pat <+: c :: (pre ++ s) := by
      intro h
      have hac : a = c := (List.cons_prefix_cons.mp h).1
      exact hpre (hac ▸ List.mem_cons_self)
    rw [List.cons_append, find, if_neg hne, ih fun h => hpre (List.mem_cons_of_mem _ h)]
    rfl

/-- A search succeeds at the front just when the text starts with the pattern. -/
theorem find_eq_zero {pat s : List α} : find pat s = some 0 ↔ pat <+: s := by
  cases s with
  | nil =>
    rw [find, List.prefix_nil]
    split
    · rename_i h
      simp [h]
    · rename_i h
      simp [h]
  | cons c s =>
    rw [find]
    split
    · rename_i h
      simp [h]
    · rename_i h
      simp [h]

/-- **A search passes over a part that does not match**: if the pattern and the rest of the
part differ wherever one starts in it, the search goes on behind it. -/
theorem find_append_of_mismatch {pat pre s : List α}
    (h : ∀ l ∈ pre.tails, l ≠ [] → ¬ l <+: pat ∧ ¬ pat <+: l) :
    find pat (pre ++ s) = (find pat s).map (· + pre.length) := by
  induction pre with
  | nil => simp
  | cons c pre ih =>
    have hrest := ih fun l hl => h l (by
      rw [List.tails]
      exact List.mem_cons_of_mem _ hl)
    have hhere : ¬ pat <+: c :: pre ++ s := by
      intro hp
      obtain ⟨hshort, hlong⟩ := h (c :: pre) List.mem_cons_self (List.cons_ne_nil c pre)
      rcases List.prefix_or_prefix_of_prefix hp (List.prefix_append _ _) with hp | hp
      · exact hlong hp
      · exact hshort hp
    rw [List.cons_append] at hhere ⊢
    rw [find, if_neg hhere, hrest, Option.map_map]
    exact congrArg (fun f => (find pat s).map f) (funext fun n => Nat.add_assoc n _ 1)

/-- **A search finds the first occurrence**: there is none in what it has passed over. -/
theorem not_infix_take_of_find {pat : List α} (hpat : pat ≠ []) : ∀ {s : List α} {n : ℕ},
    find pat s = some n → ¬ pat <:+: s.take n := by
  intro s
  induction s with
  | nil =>
    intro n h hin
    rw [List.take_nil, List.infix_nil] at hin
    exact hpat hin
  | cons c s ih =>
    intro n h hin
    rw [find] at h
    split at h
    · obtain rfl := Option.some.inj h
      rw [List.take_zero, List.infix_nil] at hin
      exact hpat hin
    · rename_i hnot
      obtain ⟨m, hm, rfl⟩ := Option.map_eq_some_iff.mp h
      rw [List.take_succ_cons, List.infix_cons_iff] at hin
      rcases hin with hin | hin
      · exact hnot (hin.trans (List.cons_prefix_cons.mpr ⟨rfl, List.take_prefix _ _⟩))
      · exact ih hm hin

/-- What is found is inside of the text. -/
theorem le_length_of_find {pat : List α} : ∀ {s : List α} {n : ℕ},
    find pat s = some n → n ≤ s.length := by
  intro s
  induction s with
  | nil =>
    intro n h
    rw [find] at h
    split at h
    · obtain rfl := Option.some.inj h
      exact le_refl _
    · cases h
  | cons c s ih =>
    intro n h
    rw [find] at h
    split at h
    · obtain rfl := Option.some.inj h
      exact Nat.zero_le _
    · obtain ⟨m, hm, rfl⟩ := Option.map_eq_some_iff.mp h
      exact Nat.succ_le_succ (ih hm)

/-! ### Pieces of a text -/

/-- `std::string::npos`. -/
def npos : ℕ := 2 ^ 64 - 1

/-- The difference of two values of type `size_t`. -/
def sizeSub (a b : ℕ) : ℕ := (2 ^ 64 + a - b) % 2 ^ 64

theorem sizeSub_of_le {a b : ℕ} (h : b ≤ a) (ha : a < 2 ^ 64) : sizeSub a b = a - b := by
  rw [sizeSub]
  omega

theorem sizeSub_of_lt {a b : ℕ} (h : a < b) : sizeSub a b = 2 ^ 64 + a - b := by
  rw [sizeSub]
  omega

omit [DecidableEq α] in
/-- `std::string::substr`: at most `n` characters from a position on, or an exception if the
position is outside of the text. -/
def substr (s : List α) (pos n : ℕ) : Option (List α) :=
  if pos ≤ s.length then some ((s.drop pos).take n) else none

/-! ### Texts with separators -/

omit [DecidableEq α] in
theorem eq_nil_of_prefix_cons {sep : α} {u s : List α} (hu : sep ∉ u) (h : u <+: sep :: s) :
    u = [] := by
  cases u with
  | nil => rfl
  | cons c u =>
    obtain ⟨t, ht⟩ := h
    obtain ⟨rfl, -⟩ := List.cons.inj ht
    exact absurd List.mem_cons_self hu

omit [DecidableEq α] in
/-- **A pattern does not straddle a separator** it does not contain. -/
theorem infix_append_sep {sep : α} {u a b : List α} (hu : sep ∉ u) (h : u <:+: a ++ sep :: b) :
    u <:+: a ∨ u <:+: b := by
  rcases List.infix_append_iff.mp h with h | h | ⟨u₁, u₂, rfl, h₁, h₂⟩
  · exact Or.inl h
  · rcases List.infix_cons_iff.mp h with h | h
    · rw [eq_nil_of_prefix_cons hu h]
      exact Or.inl List.nil_infix
    · exact Or.inr h
  · have hu₂ : sep ∉ u₂ := fun hm => hu (List.mem_append_right _ hm)
    rw [eq_nil_of_prefix_cons hu₂ h₂, List.append_nil]
    exact Or.inl h₁.isInfix

/-- **A pattern occurs in a text exactly if it occurs in one of its parts** between
separators, if it contains none itself. -/
theorem infix_iff_splitOn {sep : α} {u : List α} (hu : sep ∉ u) {s : List α} :
    u <:+: s ↔ ∃ part ∈ s.splitOn sep, u <:+: part := by
  induction hn : s.length using Nat.strong_induction_on generalizing s with
  | _ n ih =>
    by_cases hs : sep ∈ s
    · obtain ⟨a, b, rfl, ha⟩ := List.eq_append_cons_of_mem hs
      have hshort : b.length < n := by
        rw [← hn, List.length_append, List.length_cons]
        omega
      rw [List.splitOn_append_cons_self_of_not_mem ha, List.exists_mem_cons_iff, ← ih _ hshort rfl]
      constructor
      · exact infix_append_sep hu
      · rintro (h | h)
        · exact h.trans (List.prefix_append _ _).isInfix
        · exact h.trans ((List.suffix_cons sep b).isInfix.trans (List.suffix_append a _).isInfix)
    · rw [List.splitOn_eq_singleton hs]
      simp

omit [DecidableEq α] in
/-- A text with one separator in it comes apart in one way. -/
theorem eq_of_append_sep {sep : α} {u v a b : List α} (ha : sep ∉ a) (hb : sep ∉ b)
    (h : u ++ sep :: v = a ++ sep :: b) : u = a ∧ v = b := by
  rcases List.append_eq_append_iff.mp h with ⟨c, rfl, hc⟩ | ⟨c, rfl, hc⟩
  · cases c with
    | nil => exact ⟨(List.append_nil u).symm, (List.cons.inj hc).2⟩
    | cons d c =>
      obtain ⟨rfl, -⟩ := List.cons.inj hc
      exact absurd (List.mem_append_right _ List.mem_cons_self) ha
  · cases c with
    | nil => exact ⟨List.append_nil a, (List.cons.inj hc).2.symm⟩
    | cons d c =>
      obtain ⟨-, rfl⟩ := List.cons.inj hc
      exact absurd (List.mem_append_right _ List.mem_cons_self) hb

omit [DecidableEq α] in
/-- A pattern at the front of a text does not reach over a separator it does not contain. -/
theorem prefix_append_sep {sep : α} {u a b : List α} (hu : sep ∉ u) :
    u <+: a ++ sep :: b ↔ u <+: a := by
  constructor
  · intro h
    rcases List.prefix_or_prefix_of_prefix h (List.prefix_append a _) with h' | ⟨t, rfl⟩
    · exact h'
    · have ht : t = [] := eq_nil_of_prefix_cons (fun hm => hu (List.mem_append_right _ hm))
        ((List.prefix_append_right_inj a).mp h)
      rw [ht, List.append_nil]
  · exact fun h => h.trans (List.prefix_append _ _)

/-- **Where a word is found that stands at the end of a text**, behind a separator and a name:
at the name, if the name begins with it, and else behind the name. -/
theorem find_behind_name {sep : α} {pre name word : List α}
    (hpre : ∀ l ∈ pre.tails, l ≠ [] → ¬ l <+: sep :: word ∧ ¬ sep :: word <+: l)
    (hname : sep ∉ name) (hword : sep ∉ word) :
    find (sep :: word) (pre ++ sep :: (name ++ sep :: word)) =
      some (if word <+: name then pre.length else pre.length + 1 + name.length) := by
  rw [find_append_of_mismatch hpre, find]
  by_cases h : word <+: name
  · rw [if_pos (List.cons_prefix_cons.mpr ⟨rfl, (prefix_append_sep hword).mpr h⟩), if_pos h]
    simp
  · rw [if_neg fun hp => h ((prefix_append_sep hword).mp (List.cons_prefix_cons.mp hp).2),
      if_neg h, find_append hname (List.prefix_refl _)]
    simp
    omega

end Text
