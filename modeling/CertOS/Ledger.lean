import Mathlib.Algebra.BigOperators.Group.Multiset.Basic
import Mathlib.Data.Multiset.AddSub

/-!
# Counting what is outstanding

Something is handed out under a key and given back later, in any order. What is outstanding is
a multiset of keys with what was handed out under them; a program that only wants to know how
much is outstanding keeps a counter for each key instead.

`Ledger.share` is how much is outstanding under a key, in some measure, and a counter that
tells it for every key is one that `Ledger.Tracks` what is outstanding. The rules say when a
counter goes on doing so: if it is raised under the key by what is handed out there
(`Ledger.Tracks.grant`), or lowered by what is given back, provided that this was outstanding
(`Ledger.Tracks.release`).
-/

namespace Ledger

variable {κ α M : Type} [DecidableEq κ] [AddCommMonoid M]

/-- How much is outstanding under a key. -/
def share (μ : α → M) (k : κ) (out : Multiset (κ × α)) : M :=
  ((out.filter fun p => p.1 = k).map fun p => μ p.2).sum

/-- **The counter tells how much is outstanding**, under every key. -/
def Tracks (μ : α → M) (out : Multiset (κ × α)) (counter : κ → M) : Prop :=
  ∀ k, counter k = share μ k out

variable {μ : α → M} {k n : κ} {a : α} {out : Multiset (κ × α)}

@[simp] theorem share_zero : share μ k 0 = 0 := rfl

theorem share_cons :
    share μ n ((k, a) ::ₘ out) = (if n = k then μ a else 0) + share μ n out := by
  by_cases h : n = k
  · subst h
    have hin : ((n, a) ::ₘ out).filter (fun p => p.1 = n) =
        (n, a) ::ₘ out.filter fun p => p.1 = n := Multiset.filter_cons_of_pos _ rfl
    rw [if_pos rfl, share, hin, Multiset.map_cons, Multiset.sum_cons]
    rfl
  · have hout : ((k, a) ::ₘ out).filter (fun p => p.1 = n) = out.filter fun p => p.1 = n :=
      Multiset.filter_cons_of_neg _ (Ne.symm h)
    rw [if_neg h, zero_add, share, hout]
    rfl

/-- What is outstanding is what is given back and what is outstanding afterwards. -/
theorem share_erase [DecidableEq α] (h : (k, a) ∈ out) :
    (if n = k then μ a else 0) + share μ n (out.erase (k, a)) = share μ n out := by
  rw [← share_cons, Multiset.cons_erase h]

/-- The counter of a key is raised by what is handed out under the key. -/
theorem Tracks.grant {counter counter' : κ → M} (h : Tracks μ out counter)
    (hk : counter' k = μ a + counter k) (hn : ∀ n, n ≠ k → counter' n = counter n) :
    Tracks μ ((k, a) ::ₘ out) counter' := by
  intro n
  rw [share_cons, ← h n]
  split
  · rename_i heq
    rw [heq, hk]
  · rename_i hne
    rw [hn n hne, zero_add]

/-- The counter of a key is lowered by what is given back, if that was outstanding. -/
theorem Tracks.release [DecidableEq α] [IsLeftCancelAdd M] {counter counter' : κ → M}
    (h : Tracks μ out counter) (hmem : (k, a) ∈ out) (hk : μ a + counter' k = counter k)
    (hn : ∀ n, n ≠ k → counter' n = counter n) : Tracks μ (out.erase (k, a)) counter' := by
  intro n
  have hshare := share_erase (μ := μ) (n := n) hmem
  rw [← h n] at hshare
  by_cases heq : n = k
  · rw [if_pos heq, heq, ← hk] at hshare
    rw [heq]
    exact (add_left_cancel hshare).symm
  · rw [if_neg heq, zero_add] at hshare
    rw [hn n heq, hshare]

end Ledger
