import CertOS.Interleave.Run
import Mathlib.Data.List.Nodup
import Mathlib.Data.Set.Basic

/-!
# Fresh names

A system that names what it makes is usually verified for runs in which every name is
fresh, and that is a condition on its states: what is drawn is not in use. Where names are
never given back it is a condition on the draws alone: a run is fresh if and only if no
two draws in it agree (`Interleave.System.Naming.fresh_iff_nodup`). So the assumption is
one about the generator of the names and not about the system.
-/

namespace Interleave

namespace System

variable {Op : Type} {Res : Op → Type} {Env St τ α κ : Type} {S : System Res Env St τ α}

/-- A system that draws names and never gives one back: `used` are the names in use, `draws`
is the name an event draws, and `fresh` says that an event draws no name in use. -/
structure Naming (S : System Res Env St τ α) (used : St → Set κ)
    (draws : Event Res Env τ → Option κ) (fresh : Config Res St τ α → Event Res Env τ → Prop) :
    Prop where
  used_step : ∀ {c ev c'}, S.Step c ev c' →
    ∀ k, k ∈ used c'.state ↔ k ∈ used c.state ∨ draws ev = some k
  fresh_step : ∀ {c ev c'}, S.Step c ev c' →
    (fresh c ev ↔ ∀ k, draws ev = some k → k ∉ used c.state)

namespace Naming

variable {used : St → Set κ} {draws : Event Res Env τ → Option κ}
  {fresh ok : Config Res St τ α → Event Res Env τ → Prop} {c c₁ : Config Res St τ α}
  {es : List (Event Res Env τ)}

/-- The names in use are those that were drawn. -/
theorem mem_used (N : S.Naming used draws fresh) (h₀ : used c.state = ∅)
    (h : S.Run ok c es c₁) (k : κ) : k ∈ used c₁.state ↔ k ∈ es.filterMap draws := by
  induction h with
  | nil => simp [h₀]
  | snoc _ _ hs ih =>
    rw [N.used_step hs, ih]
    simp

/-- Fresh names are different. -/
theorem nodup_of_fresh (N : S.Naming used draws fresh) (h₀ : used c.state = ∅)
    (h : S.Run (fun c ev => ok c ev ∧ fresh c ev) c es c₁) : (es.filterMap draws).Nodup := by
  induction h with
  | nil => exact List.nodup_nil
  | @snoc es c₁ c₂ ev hrun hg hs ih =>
    rw [List.filterMap_append]
    cases hd : draws ev with
    | none => simpa [hd] using ih
    | some k =>
      have hk : k ∉ es.filterMap draws := fun hmem =>
        (N.fresh_step hs).mp hg.2 k hd ((N.mem_used h₀ hrun k).mpr hmem)
      rw [List.filterMap_cons_some hd, List.filterMap_nil, List.nodup_append]
      refine ⟨ih, List.nodup_singleton k, fun a ha b hb => ?_⟩
      obtain rfl := List.mem_singleton.mp hb
      rintro rfl
      exact hk ha

/-- **A run is fresh if and only if its draws are different.** -/
theorem fresh_iff_nodup (N : S.Naming used draws fresh) (h₀ : used c.state = ∅)
    (h : S.Run ok c es c₁) :
    S.Run (fun c ev => ok c ev ∧ fresh c ev) c es c₁ ↔ (es.filterMap draws).Nodup := by
  refine ⟨N.nodup_of_fresh h₀, fun hnodup => ?_⟩
  induction h with
  | nil => exact .nil
  | @snoc es c₁ c₂ ev hrun hg hs ih =>
    rw [List.filterMap_append, List.nodup_append] at hnodup
    obtain ⟨hbefore, -, hne⟩ := hnodup
    refine (ih hbefore).snoc ⟨hg, (N.fresh_step hs).mpr fun k hd hused => ?_⟩ hs
    -- a name in use was drawn before, and now once more
    exact hne k ((N.mem_used h₀ hrun k).mp hused) k (by simp [hd]) rfl

end Naming

end System

end Interleave
