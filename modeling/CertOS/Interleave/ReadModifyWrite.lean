import Mathlib.Data.Nat.Notation

/-!
# Two writers of one cell

Two threads each read a cell, compute a new value from what they read, and write
it back; the read and the write are atomic, and nothing holds the two together.
`Interleave.Rmw` is the system of the two threads and the cell, with the order in
which they took their steps as its history, and `Interleave.Rmw.outcome` says
what the cell holds when both are done: if one was done before the other began,
both updates, one on top of the other; otherwise the update of the thread that
wrote last, made from the value there was at the start.

The first writer is `false` in the history, the second `true`. What a writer
may write after reading `x` is a relation, so that it may also depend on what
the writer does between its two steps.
-/

namespace Interleave

/-- Where a writer is: it has not read, it has read `x`, or it has written. -/
inductive Phase (V : Type) where
  | idle
  | holds (x : V)
  | wrote

/-- **Two writers of a cell** that starts with `v₀`: the order of their steps so
far, where each of them is, and what the cell holds. -/
inductive Rmw {V : Type} (F G : V → V → Prop) (v₀ : V) :
    List Bool → Phase V → Phase V → V → Prop
  | start : Rmw F G v₀ [] .idle .idle v₀
  | read₁ {l v b} (h : Rmw F G v₀ l .idle b v) : Rmw F G v₀ (l ++ [false]) (.holds v) b v
  | write₁ {l x y v b} (h : Rmw F G v₀ l (.holds x) b v) (hF : F x y) :
      Rmw F G v₀ (l ++ [false]) .wrote b y
  | read₂ {l v a} (h : Rmw F G v₀ l a .idle v) : Rmw F G v₀ (l ++ [true]) a (.holds v) v
  | write₂ {l x y v a} (h : Rmw F G v₀ l a (.holds x) v) (hG : G x y) :
      Rmw F G v₀ (l ++ [true]) a .wrote y

namespace Rmw

variable {V : Type} {F G G' : V → V → Prop} {v₀ v : V} {l : List Bool}

theorem mono {a b : Phase V} (h : Rmw F G v₀ l a b v) (hG : ∀ x y, G x y → G' x y) :
    Rmw F G' v₀ l a b v := by
  induction h with
  | start => exact .start
  | read₁ _ ih => exact ih.read₁
  | write₁ _ hF ih => exact ih.write₁ hF
  | read₂ _ ih => exact ih.read₂
  | write₂ _ hxy ih => exact ih.write₂ (hG _ _ hxy)

/-- What holds of the value there was at the start, and of what either writer
makes of such a value, holds of the cell and of what a writer has read. -/
theorem all {I : V → Prop} {a b : Phase V} (h : Rmw F G v₀ l a b v) (h₀ : I v₀)
    (hF : ∀ x y, I x → F x y → I y) (hG : ∀ x y, I x → G x y → I y) :
    I v ∧ (∀ x, a = .holds x → I x) ∧ ∀ x, b = .holds x → I x := by
  induction h with
  | start => exact ⟨h₀, fun _ h => (by cases h), fun _ h => (by cases h)⟩
  | read₁ _ ih =>
    refine ⟨ih.1, fun x h => ?_, ih.2.2⟩
    cases h
    exact ih.1
  | write₁ _ hxy ih => exact ⟨hF _ _ (ih.2.1 _ rfl) hxy, fun _ h => (by cases h), ih.2.2⟩
  | read₂ _ ih =>
    refine ⟨ih.1, ih.2.1, fun x h => ?_⟩
    cases h
    exact ih.1
  | write₂ _ hxy ih => exact ⟨hG _ _ (ih.2.2 _ rfl) hxy, ih.2.1, fun _ h => (by cases h)⟩

/-! ### The places before the end -/

theorem idle_idle (h : Rmw F G v₀ l .idle .idle v) : l = [] ∧ v = v₀ := by
  cases h
  exact ⟨rfl, rfl⟩

theorem holds_idle {x : V} (h : Rmw F G v₀ l (.holds x) .idle v) :
    l = [false] ∧ x = v₀ ∧ v = v₀ := by
  cases h with
  | read₁ h =>
    obtain ⟨rfl, rfl⟩ := h.idle_idle
    exact ⟨rfl, rfl, rfl⟩

theorem idle_holds {y : V} (h : Rmw F G v₀ l .idle (.holds y) v) :
    l = [true] ∧ y = v₀ ∧ v = v₀ := by
  cases h with
  | read₂ h =>
    obtain ⟨rfl, rfl⟩ := h.idle_idle
    exact ⟨rfl, rfl, rfl⟩

theorem wrote_idle (h : Rmw F G v₀ l .wrote .idle v) : l = [false, false] ∧ F v₀ v := by
  cases h with
  | write₁ h hF =>
    obtain ⟨rfl, rfl, -⟩ := h.holds_idle
    exact ⟨rfl, hF⟩

theorem idle_wrote (h : Rmw F G v₀ l .idle .wrote v) : l = [true, true] ∧ G v₀ v := by
  cases h with
  | write₂ h hG =>
    obtain ⟨rfl, rfl, -⟩ := h.idle_holds
    exact ⟨rfl, hG⟩

/-- Both have read and neither has written: they have read the same. -/
theorem holds_holds {x y : V} (h : Rmw F G v₀ l (.holds x) (.holds y) v) :
    (l = [false, true] ∨ l = [true, false]) ∧ x = v₀ ∧ y = v₀ := by
  cases h with
  | read₁ h =>
    obtain ⟨rfl, rfl, rfl⟩ := h.idle_holds
    exact ⟨Or.inr rfl, rfl, rfl⟩
  | read₂ h =>
    obtain ⟨rfl, rfl, rfl⟩ := h.holds_idle
    exact ⟨Or.inl rfl, rfl, rfl⟩

/-- The first has written and the second is about to: either the second has read
what the first wrote, or it has read what there was at the start. -/
theorem wrote_holds {y : V} (h : Rmw F G v₀ l .wrote (.holds y) v) :
    (l = [false, false, true] ∧ F v₀ y) ∨
      ((l = [false, true, false] ∨ l = [true, false, false]) ∧ y = v₀) := by
  cases h with
  | write₁ h hF =>
    obtain ⟨rfl | rfl, rfl, rfl⟩ := h.holds_holds
    · exact Or.inr ⟨Or.inl rfl, rfl⟩
    · exact Or.inr ⟨Or.inr rfl, rfl⟩
  | read₂ h =>
    obtain ⟨rfl, hF⟩ := h.wrote_idle
    exact Or.inl ⟨rfl, hF⟩

theorem holds_wrote {x : V} (h : Rmw F G v₀ l (.holds x) .wrote v) :
    (l = [true, true, false] ∧ G v₀ x) ∨
      ((l = [false, true, true] ∨ l = [true, false, true]) ∧ x = v₀) := by
  cases h with
  | write₂ h hG =>
    obtain ⟨rfl | rfl, rfl, rfl⟩ := h.holds_holds
    · exact Or.inr ⟨Or.inl rfl, rfl⟩
    · exact Or.inr ⟨Or.inr rfl, rfl⟩
  | read₁ h =>
    obtain ⟨rfl, hG⟩ := h.idle_wrote
    exact Or.inl ⟨rfl, hG⟩

/-! ### The end -/

/-- One writer was done before the other began. -/
def Apart (l : List Bool) : Prop := l = [false, false, true, true] ∨ l = [true, true, false, false]

instance : DecidablePred Apart := fun l =>
  inferInstanceAs (Decidable (l = [false, false, true, true] ∨ l = [true, true, false, false]))

/-- **What two writers leave behind**: both updates if they were apart, and
otherwise the update of the one that wrote last. -/
theorem outcome (h : Rmw F G v₀ l .wrote .wrote v) :
    (Apart l ∧ ∃ y, F v₀ y ∧ G y v ∨ G v₀ y ∧ F y v) ∨
      (¬Apart l ∧ l.getLast? = some true ∧ G v₀ v) ∨
      (¬Apart l ∧ l.getLast? = some false ∧ F v₀ v) := by
  cases h with
  | write₁ h hF =>
    rcases h.holds_wrote with ⟨rfl, hG⟩ | ⟨rfl | rfl, rfl⟩
    · exact Or.inl ⟨Or.inr rfl, _, Or.inr ⟨hG, hF⟩⟩
    · exact Or.inr (Or.inr ⟨by decide, rfl, hF⟩)
    · exact Or.inr (Or.inr ⟨by decide, rfl, hF⟩)
  | write₂ h hG =>
    rcases h.wrote_holds with ⟨rfl, hF⟩ | ⟨rfl | rfl, rfl⟩
    · exact Or.inl ⟨Or.inl rfl, _, Or.inl ⟨hF, hG⟩⟩
    · exact Or.inr (Or.inl ⟨by decide, rfl, hG⟩)
    · exact Or.inr (Or.inl ⟨by decide, rfl, hG⟩)

end Rmw

end Interleave
