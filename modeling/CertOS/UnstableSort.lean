import CertOS.Tolerance
import Mathlib.Data.List.Basic

/-!
# What a sort may make of a list

A sort that is not stable, and that expects its comparison to be a strict weak order, leaves
two things open: the order of elements that are equal for the comparison, and everything where
the comparison is none. `UnstableSort.Result` is what remains: a rearrangement of the list, in
which no element comes before a later one if the comparison keeps its promise.

So of two elements that are in order, the first comes before the second in all results
(`UnstableSort.Result.lt_of_rel`). For any other two there is a result in which they come the
other way around (`UnstableSort.exists_result_of_not`).
-/

namespace UnstableSort

variable {α : Type}

/-- **What a sort may make of a list**, with the comparison `r`. -/
def Result (r : α → α → Prop) (l sorted : List α) : Prop :=
  sorted.Perm l ∧ (IsStrictWeakOrder ({x | x ∈ l} : Set α) (fun x y => r x.1 y.1) →
    sorted.Pairwise fun x y => ¬ r y x)

variable {r : α → α → Prop} {l sorted : List α} {a b : α}

/-- The element that is before another is met first. -/
theorem Result.lt_of_rel (h : Result r l sorted)
    (hr : IsStrictWeakOrder ({x | x ∈ l} : Set α) (fun x y => r x.1 y.1)) {j k : ℕ}
    (hj : sorted[j]? = some a) (hk : sorted[k]? = some b) (hab : r a b) : j < k := by
  obtain ⟨hperm, hpairwise⟩ := h
  have hmem {x : α} {i : ℕ} (hi : sorted[i]? = some x) : x ∈ l :=
    hperm.mem_iff.mp (List.mem_of_getElem? hi)
  rcases lt_trichotomy j k with hlt | rfl | hgt
  · exact hlt
  · obtain rfl : a = b := Option.some.inj (hj.symm.trans hk)
    exact absurd hab (hr.irrefl ⟨a, hmem hj⟩)
  · obtain ⟨hjlt, rfl⟩ := List.getElem?_eq_some_iff.mp hj
    obtain ⟨hklt, rfl⟩ := List.getElem?_eq_some_iff.mp hk
    exact absurd hab (List.pairwise_iff_getElem.mp (hpairwise hr) k j hklt hjlt hgt)

open Classical in
/-- Two elements of which the first is not before the second can come out in the other order,
if the comparison is a strict weak order. -/
theorem exists_sorted_of_not (hr : IsStrictWeakOrder α r) (hab : ¬ r a b) (rest : List α) :
    ∃ sorted : List α, sorted.Perm (b :: a :: rest) ∧ sorted.Pairwise (fun x y => ¬ r y x) ∧
      [b, a].Sublist sorted := by
  -- a stable sort of a list in which they are in the other order
  have htrans (x y z : α) : decide (¬ r y x) = true → decide (¬ r z y) = true →
      decide (¬ r z x) = true := by
    simp only [decide_eq_true_eq]
    intro hyx hzy hzx
    rcases Tolerance.isOrderConnected.conn z y x hzx with h | h
    · exact hzy h
    · exact hyx h
  have htotal (x y : α) : (decide (¬ r y x) || decide (¬ r x y)) = true := by
    simp only [Bool.or_eq_true, decide_eq_true_eq]
    by_contra hboth
    push Not at hboth
    exact asymm_of r hboth.1 hboth.2
  refine ⟨(b :: a :: rest).mergeSort fun x y => decide (¬ r y x), List.mergeSort_perm _ _, ?_, ?_⟩
  · exact (List.pairwise_mergeSort htrans htotal _).imp fun h => of_decide_eq_true h
  · exact List.pair_sublist_mergeSort htrans htotal (decide_eq_true hab)
      (.cons_cons _ (.cons_cons _ (List.nil_sublist _)))

/-- **Elements that are not in order come out either way**: for two elements of a list of which
the first is not before the second, if that is for the comparison to say, there is a result in
which the second comes first. -/
theorem exists_result_of_not (ha : a ∈ l) (hb : b ∈ l) (hne : a ≠ b)
    (hab : IsStrictWeakOrder ({x | x ∈ l} : Set α) (fun x y => r x.1 y.1) → ¬ r a b) :
    ∃ l₁ l₂, Result r l (l₁ ++ l₂) ∧ b ∈ l₁ ∧ a ∈ l₂ := by
  classical
  have hperm : (b :: a :: (l.erase b).erase a).Perm l :=
    ((List.perm_cons_erase ((List.mem_erase_of_ne hne).mpr ha)).symm.cons b).trans
      (List.perm_cons_erase hb).symm
  by_cases hr : IsStrictWeakOrder ({x | x ∈ l} : Set α) (fun x y => r x.1 y.1)
  · -- the elements of the list are sorted as elements of the list
    obtain ⟨rest, hrest⟩ : ∃ rest : List ({x | x ∈ l} : Set α),
        rest.map Subtype.val = (l.erase b).erase a := by
      refine ⟨((l.erase b).erase a).attachWith (fun x => x ∈ l) fun x hx =>
        List.mem_of_mem_erase (List.mem_of_mem_erase hx), ?_⟩
      simp
    obtain ⟨sorted, hsorted, hpairwise, hsub⟩ :=
      exists_sorted_of_not (a := ⟨a, ha⟩) (b := ⟨b, hb⟩) hr (hab hr) rest
    obtain ⟨l₁, l₂, rfl, hb₁, ha₂⟩ := List.cons_sublist_iff.mp hsub
    refine ⟨l₁.map Subtype.val, l₂.map Subtype.val, ⟨?_, fun _ => ?_⟩,
      List.mem_map_of_mem hb₁, List.mem_map_of_mem (List.singleton_sublist.mp ha₂)⟩
    · rw [← List.map_append]
      refine (hsorted.map Subtype.val).trans ?_
      rw [List.map_cons, List.map_cons, hrest]
      exact hperm
    · rw [← List.map_append, List.pairwise_map]
      exact hpairwise
  · exact ⟨[b], a :: (l.erase b).erase a, ⟨hperm, fun h => absurd h hr⟩, List.mem_cons_self,
      List.mem_cons_self⟩

end UnstableSort
