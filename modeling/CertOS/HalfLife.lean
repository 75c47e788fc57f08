import Mathlib.Algebra.Order.BigOperators.Group.List
import Mathlib.Analysis.SpecialFunctions.Pow.Real

/-!
# Exponential decay

What decays with a half-life `τ` is `2 ^ (-t / τ)` of what it was after a time `t`
(`HalfLife.factor`). The times of two decays in a row add up (`HalfLife.factor_add`).

A quantity may be made of parts that have been decaying since different times. What is left of
it, `HalfLife.left`, decays as a whole (`HalfLife.left_add`), so two such quantities that are
equal at one time are equal at any other (`HalfLife.left_eq_left_iff`). Parts that have been
decaying for longer leave less, and they leave as much only if nothing is the matter with any
of them (`HalfLife.left_eq_left_iff_of_le`).
-/

namespace HalfLife

/-- **What is left of a unit** after a time `t`, with the half-life `τ`. -/
noncomputable def factor (τ t : ℝ) : ℝ := ((2 : ℕ) : ℝ) ^ (-t / τ)

variable {τ s t : ℝ}

theorem factor_eq : factor τ t = 2 ^ (-t / τ) := by
  rw [factor, Nat.cast_ofNat]

@[simp] theorem factor_zero : factor τ 0 = 1 := by
  rw [factor_eq, neg_zero, zero_div, Real.rpow_zero]

theorem factor_add : factor τ (s + t) = factor τ s * factor τ t := by
  rw [factor_eq, neg_add, add_div, Real.rpow_add two_pos, factor_eq, factor_eq]

theorem factor_pos : 0 < factor τ t := by
  rw [factor_eq]
  exact Real.rpow_pos_of_pos two_pos _

theorem factor_lt_factor_iff (hτ : 0 < τ) : factor τ t < factor τ s ↔ s < t := by
  rw [factor_eq, factor_eq, Real.rpow_lt_rpow_left_iff one_lt_two, div_lt_div_iff_of_pos_right hτ,
    neg_lt_neg_iff]

theorem factor_le_factor_iff (hτ : 0 < τ) : factor τ t ≤ factor τ s ↔ s ≤ t := by
  rw [← not_lt, ← not_lt, factor_lt_factor_iff hτ]

theorem factor_le_one (hτ : 0 < τ) (ht : 0 ≤ t) : factor τ t ≤ 1 := by
  rw [← factor_zero (τ := τ)]
  exact (factor_le_factor_iff hτ).mpr ht

/-- The decay, as a power of one half. -/
theorem half_rpow (x : ℝ) : (1 / 2 : ℝ) ^ x = 2 ^ (-x) := by
  rw [one_div, Real.rpow_neg_eq_inv_rpow]

/-! ### Parts of different ages -/

variable {α : Type}

/-- **What is left** at a time of parts that have been decaying since times of their own. -/
noncomputable def left (τ : ℝ) (amount since : α → ℝ) (parts : List α) (now : ℝ) : ℝ :=
  (parts.map fun x => amount x * factor τ (now - since x)).sum

variable {amount since since' : α → ℝ} {parts : List α} {now : ℝ}

@[simp] theorem left_nil : left τ amount since [] now = 0 := rfl

@[simp] theorem left_cons {x : α} : left τ amount since (x :: parts) now =
    amount x * factor τ (now - since x) + left τ amount since parts now := by
  simp only [left, List.map_cons, List.sum_cons]

/-- All parts decay by the same factor. -/
theorem left_add : left τ amount since parts (now + t) = left τ amount since parts now *
    factor τ t := by
  induction parts with
  | nil => simp
  | cons x parts ih =>
    have hx : now + t - since x = now - since x + t := by ring
    rw [left_cons, left_cons, ih, hx, factor_add]
    ring

/-- What is equal at one time is equal at any other. -/
theorem left_eq_left_iff (now now' : ℝ) :
    left τ amount since parts now = left τ amount since' parts now ↔
      left τ amount since parts now' = left τ amount since' parts now' := by
  obtain ⟨t, rfl⟩ : ∃ t, now' = now + t := ⟨now' - now, by ring⟩
  rw [left_add, left_add, mul_left_inj' factor_pos.ne']

/-- What has been decaying for longer leaves less. -/
theorem left_le_left (hτ : 0 < τ) (hamount : ∀ x ∈ parts, 0 ≤ amount x)
    (hsince : ∀ x ∈ parts, since x ≤ since' x) :
    left τ amount since parts now ≤ left τ amount since' parts now := by
  refine List.sum_le_sum fun x hx => mul_le_mul_of_nonneg_left ?_ (hamount x hx)
  exact (factor_le_factor_iff hτ).mpr (sub_le_sub_left (hsince x hx) now)

/-- It leaves as much only if every part is nothing, or has been decaying for as long. -/
theorem left_eq_left_iff_of_le (hτ : 0 < τ) (hamount : ∀ x ∈ parts, 0 ≤ amount x)
    (hsince : ∀ x ∈ parts, since x ≤ since' x) :
    left τ amount since parts now = left τ amount since' parts now ↔
      ∀ x ∈ parts, amount x = 0 ∨ since x = since' x := by
  induction parts with
  | nil => simp
  | cons x parts ih =>
    obtain ⟨hx, hparts⟩ := List.forall_mem_cons.mp hamount
    obtain ⟨hsx, hsparts⟩ := List.forall_mem_cons.mp hsince
    have hfactor : factor τ (now - since x) ≤ factor τ (now - since' x) :=
      (factor_le_factor_iff hτ).mpr (sub_le_sub_left hsx now)
    have hage : factor τ (now - since x) = factor τ (now - since' x) ↔ since x = since' x := by
      refine ⟨fun h => le_antisymm hsx ?_, fun h => by rw [h]⟩
      have hback := (factor_le_factor_iff hτ).mp h.ge
      linarith
    rw [left_cons, left_cons, add_eq_add_iff_eq_and_eq (mul_le_mul_of_nonneg_left hfactor hx)
      (left_le_left hτ hparts hsparts), ih hparts hsparts, List.forall_mem_cons,
      mul_eq_mul_left_iff, hage, or_comm]

end HalfLife
