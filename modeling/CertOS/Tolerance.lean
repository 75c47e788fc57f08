import Mathlib.Algebra.Order.Group.Abs
import Mathlib.Algebra.Order.Ring.Defs
import Mathlib.Order.RelClasses
import Mathlib.Tactic.Linarith

/-!
# Comparing with a tolerance

A sort by a number `p` that is known only up to some tolerance is often written like this:
where the numbers differ by more than `ε`, the greater comes first, and otherwise a second
key `τ` decides. `Tolerance.Before` is this comparison.

A sort expects a strict weak order. The comparison is asymmetric (`Tolerance.asymm_before`),
but being close is not transitive: `x` and `z` may be further apart than `ε`, with `y` close
to both. `Tolerance.isStrictWeakOrder_iff` says which triples do harm: those in which the
second key puts `y` neither after `x` nor before `z`.
-/

namespace Tolerance

/-- A strict weak order separates any two elements that are in order from a third. -/
theorem isOrderConnected {α : Type} {r : α → α → Prop} [IsStrictWeakOrder α r] :
    IsOrderConnected α r := by
  constructor
  intro a b c hac
  by_contra hnot
  obtain ⟨hab, hbc⟩ := not_or.mp hnot
  have hba : ¬ r b a := fun hba => hbc (trans_of r hba hac)
  have hcb : ¬ r c b := fun hcb => hab (trans_of r hac hcb)
  exact (IsStrictWeakOrder.incomp_trans a b c ⟨hab, hba⟩ ⟨hbc, hcb⟩).1 hac

variable {α K T : Type} [CommRing K] [LinearOrder K] [LinearOrder T]

/-- **The comparison with a tolerance.** -/
def Before (ε : K) (p : α → K) (τ : α → T) (x y : α) : Prop :=
  if |p x - p y| > ε then p x > p y else τ x < τ y

instance {ε : K} {p : α → K} {τ : α → T} (x y : α) : Decidable (Before ε p τ x y) :=
  inferInstanceAs (Decidable (if |p x - p y| > ε then p x > p y else τ x < τ y))

/-- **No triple does harm**: where `x` is above `z` and `y` is close to both, the second key
puts `y` after `x` or before `z`. -/
def Harmless (ε : K) (p : α → K) (τ : α → T) : Prop :=
  ∀ x y z, ε < p x - p z → |p x - p y| ≤ ε → |p y - p z| ≤ ε → τ x < τ y ∨ τ y < τ z

variable [IsStrictOrderedRing K] {ε : K} {p : α → K} {τ : α → T}

/-- An element comes before another if it is above it, or if the two are close and the second
key says so. -/
theorem before_iff (hε : 0 ≤ ε) {x y : α} :
    Before ε p τ x y ↔ ε < p x - p y ∨ |p x - p y| ≤ ε ∧ τ x < τ y := by
  rw [Before]
  split
  · rename_i hfar
    have hnot : ¬ |p x - p y| ≤ ε := not_le.mpr hfar
    rcases lt_abs.mp hfar with h | h
    · exact iff_of_true (by linarith) (Or.inl h)
    · refine iff_of_false (by linarith) fun hor => ?_
      rcases hor with h' | h'
      · linarith
      · exact hnot h'.1
  · rename_i hclose
    have hle : |p x - p y| ≤ ε := not_lt.mp hclose
    have hnot : ¬ ε < p x - p y := not_lt.mpr ((le_abs_self _).trans hle)
    simp [hnot, hle]

/-- Of two elements one is above the other, or they are close. -/
theorem above_or_close (ε : K) (p : α → K) (x y : α) :
    ε < p x - p y ∨ ε < p y - p x ∨ |p x - p y| ≤ ε := by
  rcases lt_or_ge ε |p x - p y| with h | h
  · rcases lt_abs.mp h with h | h
    · exact Or.inl h
    · exact Or.inr (Or.inl (by linarith))
  · exact Or.inr (Or.inr h)

/-- **The comparison is asymmetric**, whatever the keys. -/
theorem asymm_before (hε : 0 ≤ ε) : Std.Asymm (Before ε p τ) := by
  constructor
  intro x y hxy hyx
  rw [before_iff hε] at hxy hyx
  rcases hxy with hxy | ⟨hclose, hxy⟩
  · rcases hyx with hyx | ⟨hclose, -⟩
    · linarith
    · linarith [neg_abs_le (p y - p x)]
  · rcases hyx with hyx | ⟨-, hyx⟩
    · linarith [neg_abs_le (p x - p y)]
    · exact lt_asymm hxy hyx

/-- Where no triple does harm, the comparison separates two elements that are in order from
any third. -/
theorem Harmless.connected (hε : 0 ≤ ε) (h : Harmless ε p τ) :
    IsOrderConnected α (Before ε p τ) := by
  constructor
  intro x y z hxz
  rw [before_iff hε] at hxz ⊢
  rw [before_iff hε]
  rcases above_or_close ε p x y with hxy | hyx | hxy
  · exact Or.inl (Or.inl hxy)
  · -- `y` is above `x`, so it is not below `z`
    rcases above_or_close ε p y z with hyz | hzy | hyz
    · exact Or.inr (Or.inl hyz)
    · rcases hxz with hxz | ⟨hxz, -⟩
      · linarith
      · linarith [neg_abs_le (p x - p z)]
    · rcases hxz with hxz | ⟨hxz, hτ⟩
      · linarith [le_abs_self (p y - p z)]
      · have hzx : |p z - p x| ≤ ε := abs_sub_comm (p x) (p z) ▸ hxz
        exact Or.inr (Or.inr ⟨hyz, (h y z x hyx hyz hzx).resolve_right hτ.not_gt⟩)
  · rcases above_or_close ε p y z with hyz | hzy | hyz
    · exact Or.inr (Or.inl hyz)
    · -- `z` is above `y`, so it is not below `x`
      rcases hxz with hxz | ⟨hxz, hτ⟩
      · linarith [le_abs_self (p x - p y)]
      · have hzx : |p z - p x| ≤ ε := abs_sub_comm (p x) (p z) ▸ hxz
        exact Or.inl (Or.inr ⟨hxy, (h z x y hzy hzx hxy).resolve_left hτ.not_gt⟩)
    · -- all three are close, or `y` is between the other two
      rcases hxz with hxz | ⟨-, hτ⟩
      · exact (h x y z hxz hxy hyz).imp (fun hτ => Or.inr ⟨hxy, hτ⟩) fun hτ => Or.inr ⟨hyz, hτ⟩
      · rcases lt_or_ge (τ x) (τ y) with hlt | hge
        · exact Or.inl (Or.inr ⟨hxy, hlt⟩)
        · exact Or.inr (Or.inr ⟨hyz, hge.trans_lt hτ⟩)

/-- **The comparison is a strict weak order** if and only if no triple does harm. -/
theorem isStrictWeakOrder_iff (hε : 0 ≤ ε) :
    IsStrictWeakOrder α (Before ε p τ) ↔ Harmless ε p τ := by
  constructor
  · intro h x y z hxz hxy hyz
    have hbefore : Before ε p τ x z := (before_iff hε).mpr (Or.inl hxz)
    rcases isOrderConnected.conn x y z hbefore with hb | hb
    · rcases (before_iff hε).mp hb with hfar | ⟨-, hτ⟩
      · exact absurd ((le_abs_self _).trans hxy) (not_le.mpr hfar)
      · exact Or.inl hτ
    · rcases (before_iff hε).mp hb with hfar | ⟨-, hτ⟩
      · exact absurd ((le_abs_self _).trans hyz) (not_le.mpr hfar)
      · exact Or.inr hτ
  · intro h
    have : Std.Asymm (Before ε p τ) := asymm_before hε
    have := h.connected hε
    exact isStrictWeakOrder_of_isOrderConnected

end Tolerance
