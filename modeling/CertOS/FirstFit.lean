import Mathlib.Algebra.BigOperators.Group.List.Basic
import Mathlib.Data.List.Basic
import Mathlib.Data.Nat.Notation

/-!
# First fit

Items arrive one after the other, each is put into the first bin with room for
it, and an item without room anywhere is left out. What an item takes of a bin is
a parameter (`take`), and so is when it fits (`fits`); nothing else is known of
bins and items.

Two properties of the parameters carry the results. If what an item takes is
subtracted exactly from a measure of the bin, the measure of what was given to a
bin and of what is left of it add up to the measure of the bin
(`FirstFit.left_add_given`). If a bin only gets smaller, an item that was left out
has no room in any bin at the end (`FirstFit.not_fits_of_left_out`), and an item
that fits wherever a later one fits is not left out if the later one is not
(`FirstFit.chosen_of_le`).

Bins that are made to measure for some items, in their order, take these items and no others:
all of them are put somewhere and all bins are full afterwards (`FirstFit.chosen_of_made`), and
an item that does not fit into a full bin is left out (`FirstFit.left_out_of_full`).
-/

namespace FirstFit

variable {α β : Type} (fits : α → β → Bool) (take : α → β → β)

/-- The bins after one item. -/
def put (a : α) (bins : List β) : List β :=
  match bins.findIdx? (fits a) with
  | some i => bins.modify i (take a)
  | none => bins

/-- The number of the bin each item is put into, if there is one. -/
def choices : List α → List β → List (Option ℕ)
  | [], _ => []
  | a :: as, bins => bins.findIdx? (fits a) :: choices as (put fits take a bins)

/-- What is left of the bins. -/
def left : List α → List β → List β
  | [], bins => bins
  | a :: as, bins => left as (put fits take a bins)

/-- The items that were put into bin `i`. -/
def given (i : ℕ) (as : List α) (bins : List β) : List α :=
  ((as.zip (choices fits take as bins)).filter fun p => p.2 = some i).map Prod.fst

variable {fits take}

/-! ### One item -/

/-- Bin `i` after one item. -/
theorem getElem?_put (a : α) (bins : List β) (i : ℕ) :
    (put fits take a bins)[i]? =
      if bins.findIdx? (fits a) = some i then bins[i]?.map (take a) else bins[i]? := by
  simp only [put]
  cases h : bins.findIdx? (fits a) with
  | none => simp
  | some k =>
    rw [List.getElem?_modify]
    by_cases hk : k = i
    · simp [hk]
    · simp [hk]

/-- The first bin with room has room. -/
theorem fits_of_findIdx? {a : α} {bins : List β} {i : ℕ} {b : β}
    (h : bins.findIdx? (fits a) = some i) (hb : bins[i]? = some b) : fits a b = true := by
  obtain ⟨hlt, hfits, -⟩ := List.findIdx?_eq_some_iff_getElem.mp h
  obtain ⟨-, rfl⟩ := List.getElem?_eq_some_iff.mp hb
  exact hfits

@[simp] theorem length_put (a : α) (bins : List β) :
    (put fits take a bins).length = bins.length := by
  simp only [put]
  split <;> simp

/-- What no item changes of a bin stays as it was. -/
theorem map_put {κ : Type} {f : β → κ} (hf : ∀ a b, f (take a b) = f b) (a : α) (bins : List β) :
    (put fits take a bins).map f = bins.map f := by
  refine List.ext_getElem? fun i => ?_
  rw [List.getElem?_map, List.getElem?_map, getElem?_put]
  split
  · rw [Option.map_map]
    exact congrArg (fun g => bins[i]?.map g) (funext fun b => hf a b)
  · rfl

/-! ### All items -/

@[simp] theorem length_choices (as : List α) (bins : List β) :
    (choices fits take as bins).length = as.length := by
  induction as generalizing bins with
  | nil => rfl
  | cons a as ih => simp [choices, ih]

/-- The choices for the first `k` items are the first `k` choices. -/
theorem choices_take (k : ℕ) (as : List α) (bins : List β) :
    choices fits take (as.take k) bins = (choices fits take as bins).take k := by
  induction as generalizing bins k with
  | nil => simp [choices]
  | cons a as ih =>
    cases k with
    | zero => simp [choices]
    | succ k => simp [choices, ih]

/-- More items are put into what the first ones have left. -/
theorem choices_append (as cs : List α) (bins : List β) :
    choices fits take (as ++ cs) bins =
      choices fits take as bins ++ choices fits take cs (left fits take as bins) := by
  induction as generalizing bins with
  | nil => rfl
  | cons a as ih =>
    simp only [List.cons_append, choices, ih]
    rfl

theorem given_cons (i : ℕ) (a : α) (as : List α) (bins : List β) :
    given fits take i (a :: as) bins =
      if bins.findIdx? (fits a) = some i then a :: given fits take i as (put fits take a bins)
      else given fits take i as (put fits take a bins) := by
  simp only [given, choices, List.zip_cons_cons, List.filter_cons, decide_eq_true_eq]
  split <;> rfl

/-- A chosen bin exists. -/
theorem lt_length_of_chosen {as : List α} {bins : List β} {i : ℕ}
    (h : some i ∈ choices fits take as bins) : i < bins.length := by
  induction as generalizing bins with
  | nil => cases h
  | cons a as ih =>
    have hlen : (put fits take a bins).length = bins.length := length_put a bins
    rcases List.mem_cons.mp h with h | h
    · obtain ⟨hlt, -⟩ := List.findIdx?_eq_some_iff_getElem.mp h.symm
      exact hlt
    · exact hlen ▸ ih h

@[simp] theorem length_left (as : List α) (bins : List β) :
    (left fits take as bins).length = bins.length := by
  induction as generalizing bins with
  | nil => rfl
  | cons a as ih => exact (ih _).trans (length_put a bins)

/-- **What was given and what is left add up**, for a measure that an item is
subtracted from exactly. -/
theorem left_add_given {M : Type} [AddCommMonoid M] {μ : β → M} {w : α → M}
    (hμ : ∀ a b, fits a b = true → μ (take a b) + w a = μ b) (as : List α) {bins : List β} {i : ℕ}
    {b b' : β} (hb : bins[i]? = some b) (hb' : (left fits take as bins)[i]? = some b') :
    μ b' + ((given fits take i as bins).map w).sum = μ b := by
  induction as generalizing bins b with
  | nil =>
    obtain rfl : b = b' := Option.some.inj (hb.symm.trans hb')
    simp [given, choices]
  | cons a as ih =>
    have hput : (put fits take a bins)[i]? = _ := getElem?_put a bins i
    rw [given_cons]
    split
    · rename_i hi
      rw [if_pos hi, hb] at hput
      have hsum := ih hput hb'
      calc μ b' + ((a :: given fits take i as (put fits take a bins)).map w).sum
          = μ b' + ((given fits take i as (put fits take a bins)).map w).sum + w a := by
            rw [List.map_cons, List.sum_cons, add_comm (w a), add_assoc]
        _ = μ (take a b) + w a := by rw [hsum]
        _ = μ b := hμ a b (fits_of_findIdx? hi hb)
    · rename_i hi
      rw [if_neg hi, hb] at hput
      exact ih hput hb'

/-! ### Bins that only get smaller -/

section Shrinking

variable (hshrink : ∀ a c b, fits c b = true → fits a (take c b) = true → fits a b = true)
include hshrink

/-- What fits into a bin after an item has fitted before it. -/
theorem exists_fits_of_put {a c : α} {bins : List β} {b' : β} (hb' : b' ∈ put fits take c bins)
    (h : fits a b' = true) : ∃ b ∈ bins, fits a b = true := by
  obtain ⟨i, hi⟩ := List.getElem?_of_mem hb'
  rw [getElem?_put] at hi
  split at hi
  · rename_i hc
    obtain ⟨b, hb, rfl⟩ := Option.map_eq_some_iff.mp hi
    exact ⟨b, List.mem_of_getElem? hb, hshrink a c b (fits_of_findIdx? hc hb) h⟩
  · exact ⟨b', List.mem_of_getElem? hi, h⟩

/-- What fits into a bin at the end has fitted at the start. -/
theorem exists_fits_of_left {a : α} (as : List α) {bins : List β} {b' : β}
    (hb' : b' ∈ left fits take as bins) (h : fits a b' = true) : ∃ b ∈ bins, fits a b = true := by
  induction as generalizing bins with
  | nil => exact ⟨b', hb', h⟩
  | cons c as ih =>
    obtain ⟨b, hb, hfits⟩ := ih hb'
    exact exists_fits_of_put hshrink hb hfits

/-- An item that is put somewhere has fitted at the start. -/
theorem exists_fits_of_chosen {a : α} (as : List α) {bins : List β} {k i : ℕ}
    (ha : as[k]? = some a) (hk : (choices fits take as bins)[k]? = some (some i)) :
    ∃ b ∈ bins, fits a b = true := by
  induction as generalizing bins k with
  | nil => cases ha
  | cons c as ih =>
    cases k with
    | zero =>
      obtain rfl : c = a := Option.some.inj ha
      have hi : bins.findIdx? (fits c) = some i := Option.some.inj hk
      obtain ⟨hlt, hfits, -⟩ := List.findIdx?_eq_some_iff_getElem.mp hi
      exact ⟨bins[i], List.getElem_mem hlt, hfits⟩
    | succ k =>
      obtain ⟨b, hb, hfits⟩ := ih ha hk
      exact exists_fits_of_put hshrink hb hfits

/-- **An item that was left out has no room at the end.** -/
theorem not_fits_of_left_out {a : α} (as : List α) {bins : List β} {k : ℕ}
    (ha : as[k]? = some a) (hk : (choices fits take as bins)[k]? = some none) :
    ∀ b ∈ left fits take as bins, fits a b = false := by
  induction as generalizing bins k with
  | nil => cases ha
  | cons c as ih =>
    cases k with
    | zero =>
      obtain rfl : c = a := Option.some.inj ha
      have hnone : bins.findIdx? (fits c) = none := Option.some.inj hk
      intro b' hb'
      by_contra hfits
      obtain ⟨b, hb, hfits⟩ := exists_fits_of_left hshrink (c :: as) hb' (by simpa using hfits)
      have hnot := List.findIdx?_eq_none_iff.mp hnone b hb
      rw [hfits] at hnot
      cases hnot
    | succ k => exact ih ha hk

/-- **An item that fits wherever a later one fits** is not left out if the later one
is not. -/
theorem chosen_of_le {a c : α} (hle : ∀ b, fits c b = true → fits a b = true) (as : List α)
    {bins : List β} {j k i : ℕ} (hjk : j < k) (ha : as[j]? = some a) (hc : as[k]? = some c)
    (hk : (choices fits take as bins)[k]? = some (some i)) :
    ∃ i', (choices fits take as bins)[j]? = some (some i') := by
  induction as generalizing bins j k with
  | nil => cases ha
  | cons x as ih =>
    obtain ⟨k, rfl⟩ : ∃ k', k = k' + 1 := ⟨k - 1, by omega⟩
    cases j with
    | zero =>
      obtain rfl : x = a := Option.some.inj ha
      cases hfind : bins.findIdx? (fits x) with
      | some i' => exact ⟨i', by simp [choices, hfind]⟩
      | none =>
        -- the later item would have had room where the first one had none
        exfalso
        obtain ⟨b', hb', hfits⟩ := exists_fits_of_chosen hshrink as hc hk
        obtain ⟨b, hb, hfits⟩ := exists_fits_of_put hshrink hb' (hle b' hfits)
        have hnot := List.findIdx?_eq_none_iff.mp hfind b hb
        rw [hfits] at hnot
        cases hnot
    | succ j => exact ih (by omega) ha hc hk

end Shrinking

/-! ### Bins made to measure -/

section Made

variable {full : β → Prop} (hfull : ∀ a b, full b → fits a b = true → full (take a b))
include hfull

/-- Full bins stay full. -/
theorem full_put (a : α) {bins : List β} (hbins : ∀ b ∈ bins, full b) :
    ∀ b ∈ put fits take a bins, full b := by
  intro b' hb'
  obtain ⟨i, hi⟩ := List.getElem?_of_mem hb'
  rw [getElem?_put] at hi
  split at hi
  · rename_i ha
    obtain ⟨b, hb, rfl⟩ := Option.map_eq_some_iff.mp hi
    exact hfull a b (hbins b (List.mem_of_getElem? hb)) (fits_of_findIdx? ha hb)
  · exact hbins b' (List.mem_of_getElem? hi)

/-- **An item that does not fit into a full bin** is left out when all bins are full. -/
theorem left_out_of_full {c : α} (hc : ∀ b, full b → fits c b = false) (as : List α)
    {bins : List β} (hbins : ∀ b ∈ bins, full b) {k : ℕ} (hk : as[k]? = some c) :
    (choices fits take as bins)[k]? = some none := by
  induction as generalizing bins k with
  | nil => cases hk
  | cons a as ih =>
    cases k with
    | zero =>
      obtain rfl : a = c := Option.some.inj hk
      have hnone : bins.findIdx? (fits a) = none :=
        List.findIdx?_eq_none_iff.mpr fun b hb => hc b (hbins b hb)
      rw [choices, hnone]
      rfl
    | succ k => exact ih (full_put hfull a hbins) hk

variable {made : α → β} (hfits : ∀ a, fits a (made a) = true)
  (hmade : ∀ a, full (take a (made a)))
  (hweightless : ∀ a b, full b → fits a b = true → full (made a))
include hfits hmade hweightless

/-- An item is put into its own bin, or into one before it that is full already; its own bin
is then full as well. -/
theorem put_made (a : α) {bins : List β} (hbins : ∀ b ∈ bins, full b) (rest : List β) :
    ∃ bins', put fits take a (bins ++ made a :: rest) = bins' ++ rest ∧ ∀ b ∈ bins', full b := by
  induction bins with
  | nil =>
    refine ⟨[take a (made a)], ?_, fun b hb => List.mem_singleton.mp hb ▸ hmade a⟩
    simp [put, List.findIdx?_cons, hfits a]
  | cons b bins ih =>
    obtain ⟨hb, hbins⟩ := List.forall_mem_cons.mp hbins
    cases h : fits a b with
    | true =>
      refine ⟨take a b :: bins ++ [made a], ?_, ?_⟩
      · simp [put, List.findIdx?_cons, h]
      · have hown := hweightless a b hb h
        have htaken := hfull a b hb h
        simpa [or_imp, forall_and, htaken, hown] using hbins
    | false =>
      obtain ⟨bins', hput, hbins'⟩ := ih hbins
      refine ⟨b :: bins', ?_, List.forall_mem_cons.mpr ⟨hb, hbins'⟩⟩
      have hcons : put fits take a (b :: (bins ++ made a :: rest)) =
          b :: put fits take a (bins ++ made a :: rest) := by
        simp only [put, List.findIdx?_cons, h]
        cases (bins ++ made a :: rest).findIdx? (fits a) <;> simp
      rw [List.cons_append, hcons, hput]
      rfl

/-- **Bins made to measure take their items**: every item is put somewhere, and all bins are
full at the end. -/
theorem chosen_of_made (as : List α) {bins : List β} (hbins : ∀ b ∈ bins, full b) :
    (∀ o ∈ choices fits take as (bins ++ as.map made), o ≠ none) ∧
      ∀ b ∈ left fits take as (bins ++ as.map made), full b := by
  induction as generalizing bins with
  | nil => simpa [choices, left] using hbins
  | cons a as ih =>
    obtain ⟨bins', hput, hbins'⟩ := put_made hfull hfits hmade hweightless a hbins (as.map made)
    obtain ⟨hchosen, hleft⟩ := ih hbins'
    rw [List.map_cons, choices, left, hput]
    refine ⟨List.forall_mem_cons.mpr ⟨fun hnone => ?_, hchosen⟩, hleft⟩
    have hnot := List.findIdx?_eq_none_iff.mp hnone (made a)
      (List.mem_append_right _ List.mem_cons_self)
    rw [hfits a] at hnot
    cases hnot

end Made

end FirstFit
