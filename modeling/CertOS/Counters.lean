import Mathlib.Algebra.Order.Field.Basic
import Mathlib.Data.Nat.Cast.Order.Ring
import Mathlib.Tactic.Linarith

/-!
# Differences of unsigned counters

A counter of some machine is read twice, and the difference of the readings is taken with the
subtraction of an unsigned type, modulo `M`. While the counter goes up, this is how much it has
gone up (`Counters.diff_of_le`); where it has gone down, it is `M` less how much it has gone
down (`Counters.diff_of_lt`), which is close to `M` if that is little.

Two bounds that such a difference is expected to keep are considered here. A part of a total
gains no more than the total does just if neither the part nor what is left of the total goes
down (`Counters.diff_part_le_iff`); here the total must not go down. And a gain is at most a
bound above the second reading just if the counter has not gone down, or the bound makes up for
`M` (`Counters.diff_le_iff`).
-/

namespace Counters

/-- The difference of two readings, modulo `M`. -/
def diff (M a b : ℕ) : ℕ := (M - a + b) % M

variable {M a b : ℕ}

theorem diff_of_le (ha : a < M) (hb : b < M) (h : a ≤ b) : diff M a b = b - a := by
  have hsum : M - a + b = b - a + M := by omega
  rw [diff, hsum, Nat.add_mod_right, Nat.mod_eq_of_lt (by omega)]

theorem diff_of_lt (ha : a < M) (h : b < a) : diff M a b = M - (a - b) := by
  have hsum : M - a + b = M - (a - b) := by omega
  rw [diff, hsum, Nat.mod_eq_of_lt (by omega)]

/-- **A part gains at most what the total gains** just if neither the part nor the rest of the
total goes down, where the total does not. -/
theorem diff_part_le_iff {p q p' q' : ℕ} (hfit : p + q < M) (hfit' : p' + q' < M)
    (hmono : p + q ≤ p' + q') :
    diff M p p' ≤ diff M (p + q) (p' + q') ↔ p ≤ p' ∧ q ≤ q' := by
  rw [diff_of_le hfit hfit' hmono]
  rcases Nat.lt_or_ge p' p with hdown | hup
  · -- a part that goes down by one has gained more than any total can
    rw [diff_of_lt (by omega) hdown]
    omega
  · rw [diff_of_le (by omega) (by omega) hup]
    omega

/-- **A gain is at most a bound** that is not below the second reading just if the counter has
not gone down, or the bound makes up for `M`. -/
theorem diff_le_iff {S : ℕ} (ha : a < M) (hb : b < M) (hS : b ≤ S) :
    diff M a b ≤ S ↔ a ≤ b ∨ M + b ≤ S + a := by
  rcases Nat.lt_or_ge b a with hdown | hup
  · rw [diff_of_lt ha hdown]
    omega
  · rw [diff_of_le ha hb hup]
    omega

theorem toNat_sub_eq_diff (a b : UInt64) : (b - a).toNat = diff (2 ^ 64) a.toNat b.toNat :=
  UInt64.toNat_sub b a

/-! ### Quotients -/

section Quotients

variable {K : Type} [Field K] [LinearOrder K] [IsStrictOrderedRing K]

/-- **What is left of a total is a percentage of it** just if the part is at most the total. -/
theorem percentage_iff {d t : ℕ} (ht : t ≠ 0) :
    (0 ≤ (1 - (d : K) / t) * 100 ∧ (1 - (d : K) / t) * 100 ≤ 100) ↔ d ≤ t := by
  have hpos : (0 : K) < t := Nat.cast_pos.mpr (Nat.pos_of_ne_zero ht)
  have hnonneg : 0 ≤ (d : K) / t := div_nonneg (Nat.cast_nonneg d) hpos.le
  have hone : (d : K) / t ≤ 1 ↔ d ≤ t := by rw [div_le_one hpos, Nat.cast_le]
  rw [← hone]
  constructor
  · rintro ⟨h, -⟩
    linarith
  · intro h
    exact ⟨by linarith, by linarith⟩

/-- A rate is at most a bound per the same time just if what is counted is at most the bound. -/
theorem rate_le_iff {d S : ℕ} {t : K} (ht : 0 < t) : (d : K) / t ≤ S / t ↔ d ≤ S := by
  rw [div_le_div_iff_of_pos_right ht, Nat.cast_le]

end Quotients

end Counters
