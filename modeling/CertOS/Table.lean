import Mathlib.Data.List.AList
import Mathlib.Algebra.BigOperators.Group.List.Basic
import Mathlib.Algebra.Order.BigOperators.Group.List
import Mathlib.Algebra.Order.Ring.Nat

/-!
# Tables keyed by a finite set of keys

A hash map of a program is an `AList` with a constant family of values. This
file adds what a program does with one and Mathlib does not have: to update
the value of one key in place (`Table.modify`), to update every value in one
sweep (`Table.mapValues`), to walk the values (`Table.values`) and to add up a
quantity over them (`Table.total`).

A walk over a hash map meets the entries in an order the program cannot rely
on. `Reorder` is such an order: any rearrangement of a list. A function that
walks a table takes the order as an argument, and what is proved about it holds
for every order. The result of an unstable sort is a rearrangement as well.
-/

/-- An order in which the elements of a list may be met: some rearrangement of
it. -/
structure Reorder (α : Type) where
  /-- The list as it is met. -/
  toFun : List α → List α
  /-- Nothing is lost, invented or met twice. -/
  perm : ∀ l, (toFun l).Perm l

namespace Reorder

variable {α : Type}

instance : CoeFun (Reorder α) fun _ => List α → List α := ⟨Reorder.toFun⟩

/-- The order of the list itself. -/
protected def id : Reorder α := ⟨fun l => l, fun _ => .refl _⟩

instance : Inhabited (Reorder α) := ⟨.id⟩

@[simp] theorem id_apply (l : List α) : (Reorder.id : Reorder α) l = l := rfl

@[simp] theorem mem_iff (o : Reorder α) {l : List α} {a : α} : a ∈ o l ↔ a ∈ l :=
  (o.perm l).mem_iff

end Reorder

/-- A table: a finite map from `κ` to `α`. -/
abbrev Table (κ α : Type) := AList fun _ : κ => α

namespace Table

variable {κ α : Type}

/-! ### Sweeps and updates in place -/

/-- Update every value, without moving an entry. -/
def mapValues (f : κ → α → α) (m : Table κ α) : Table κ α where
  entries := m.entries.map fun e => ⟨e.1, f e.1 e.2⟩
  nodupKeys := by
    have h : (m.entries.map fun e => (⟨e.1, f e.1 e.2⟩ : Sigma fun _ : κ => α)).keys =
        m.entries.keys := by
      simp [List.keys, Function.comp_def]
    rw [List.NodupKeys, h]
    exact m.nodupKeys

/-- The values of a table, in the order of its entries. -/
def values (m : Table κ α) : List α := m.entries.map Sigma.snd

/-- The keys of a table with their values, in the order of its entries. -/
def pairs (m : Table κ α) : List (κ × α) := m.entries.map fun e => (e.1, e.2)

variable [DecidableEq κ]

/-- Update the value of one key, if it has one. -/
def modify (k : κ) (g : α → α) (m : Table κ α) : Table κ α :=
  m.mapValues fun k' v => if k' = k then g v else v

/-- An update in place keeps the keys. -/
@[simp] theorem keys_modify (k : κ) (g : α → α) (m : Table κ α) :
    (m.modify k g).keys = m.keys := by
  simp [modify, mapValues, AList.keys, List.keys, Function.comp_def]

@[simp] theorem lookup_mapValues (f : κ → α → α) (m : Table κ α) (k : κ) :
    (m.mapValues f).lookup k = (m.lookup k).map (f k) := by
  obtain ⟨l, hl⟩ := m
  simp only [mapValues, AList.lookup]
  clear hl
  induction l with
  | nil => simp
  | cons e l ih =>
    obtain ⟨k', v⟩ := e
    by_cases h : k' = k
    · subst h
      simp
    · have hne (w : α) (l : List (Sigma fun _ : κ => α)) :
          List.dlookup k (⟨k', w⟩ :: l) = List.dlookup k l :=
        List.dlookup_cons_ne l ⟨k', w⟩ (Ne.symm h)
      rw [List.map_cons, hne, hne, ih]

theorem lookup_modify (k k' : κ) (g : α → α) (m : Table κ α) :
    (m.modify k g).lookup k' = if k' = k then (m.lookup k).map g else m.lookup k' := by
  rw [modify, lookup_mapValues]
  by_cases h : k' = k
  · subst h
    simp
  · simp [h]

@[simp] theorem lookup_modify_self (k : κ) (g : α → α) (m : Table κ α) :
    (m.modify k g).lookup k = (m.lookup k).map g := by
  rw [lookup_modify, if_pos rfl]

theorem lookup_modify_of_ne {k k' : κ} (h : k' ≠ k) (g : α → α) (m : Table κ α) :
    (m.modify k g).lookup k' = m.lookup k' := by
  rw [lookup_modify, if_neg h]

theorem lookup_insert (k k' : κ) (v : α) (m : Table κ α) :
    AList.lookup k' (AList.insert k v m) = if k' = k then some v else AList.lookup k' m := by
  by_cases h : k' = k
  · subst h
    rw [if_pos rfl, AList.lookup_insert]
  · rw [if_neg h, AList.lookup_insert_ne h]

/-- An update in place leaves a table as it is just when it leaves the value as it is. -/
theorem lookup_modify_eq_iff {k : κ} {g : α → α} {m : Table κ α} :
    (∀ k', (m.modify k g).lookup k' = m.lookup k') ↔ ∀ v, m.lookup k = some v → g v = v := by
  constructor
  · intro h v hv
    have hk := h k
    rw [lookup_modify_self, hv] at hk
    exact Option.some.inj hk
  · intro h k'
    rw [lookup_modify]
    split_ifs with hk
    · subst hk
      cases hv : m.lookup k' with
      | none => rfl
      | some v => exact congrArg some (h v hv)
    · rfl

/-- An insertion leaves a table as it is just when it finds the value there. -/
theorem lookup_insert_eq_iff {k : κ} {v : α} {m : Table κ α} :
    (∀ k', (m.insert k v).lookup k' = m.lookup k') ↔ m.lookup k = some v := by
  constructor
  · intro h
    rw [← h k, lookup_insert, if_pos rfl]
  · intro h k'
    rw [lookup_insert]
    split_ifs with hk
    · rw [hk, h]
    · rfl

theorem lookup_erase (k k' : κ) (m : Table κ α) :
    AList.lookup k' (AList.erase k m) = if k' = k then none else AList.lookup k' m := by
  by_cases h : k' = k
  · rw [if_pos h, h, AList.lookup_erase]
  · rw [if_neg h, AList.lookup_erase_ne h]

/-! ### Walks -/

theorem mem_entries {m : Table κ α} {k : κ} {v : α} :
    (⟨k, v⟩ : Sigma fun _ : κ => α) ∈ m.entries ↔ m.lookup k = some v :=
  (List.mem_dlookup_iff m.nodupKeys).symm

theorem mem_values {m : Table κ α} {v : α} : v ∈ m.values ↔ ∃ k, m.lookup k = some v := by
  simp only [values, List.mem_map]
  constructor
  · rintro ⟨⟨k, _⟩, he, rfl⟩
    exact ⟨k, mem_entries.mp he⟩
  · rintro ⟨k, h⟩
    exact ⟨⟨k, v⟩, mem_entries.mpr h, rfl⟩

theorem mem_pairs {m : Table κ α} {k : κ} {v : α} : (k, v) ∈ m.pairs ↔ m.lookup k = some v := by
  simp only [pairs, List.mem_map, Prod.mk.injEq]
  constructor
  · rintro ⟨⟨k, v⟩, he, rfl, rfl⟩
    exact mem_entries.mp he
  · intro h
    exact ⟨⟨k, v⟩, mem_entries.mpr h, rfl, rfl⟩

/-- A sweep that changes no entry of the table is no sweep. -/
theorem mapValues_eq_self {f : κ → α → α} {m : Table κ α}
    (h : ∀ k v, m.lookup k = some v → f k v = v) : m.mapValues f = m := by
  refine AList.ext ((List.map_congr_left fun e he => ?_).trans (List.map_id _))
  obtain ⟨k, v⟩ := e
  rw [h k v (mem_entries.mp he)]
  rfl

/-- An update in place of a key that is absent, or to the value it has, changes
nothing. -/
theorem modify_eq_self {k : κ} {g : α → α} {m : Table κ α}
    (h : ∀ v, m.lookup k = some v → g v = v) : m.modify k g = m := by
  refine mapValues_eq_self fun k' v hv => ?_
  split
  · rename_i hk
    exact h v (hk ▸ hv)
  · rfl

/-! ### Totals -/

/-- A quantity added up over the values of a table. -/
def total (f : α → ℕ) (m : Table κ α) : ℕ := (m.values.map f).sum

omit [DecidableEq κ] in
@[simp] theorem total_empty (f : α → ℕ) : total f (∅ : Table κ α) = 0 := rfl

/-- A sweep that lowers every share lowers the total. -/
theorem total_mapValues_le {f : α → ℕ} {g : κ → α → α} {m : Table κ α}
    (h : ∀ k v, m.lookup k = some v → f (g k v) ≤ f v) : total f (m.mapValues g) ≤ total f m := by
  simp only [total, values, mapValues, List.map_map]
  exact List.sum_le_sum fun e he => h e.1 e.2 (mem_entries.mp he)

/-- A new entry adds its own share to a total. -/
theorem total_insert {k : κ} {m : Table κ α} (h : m.lookup k = none) (f : α → ℕ) (v : α) :
    total f (AList.insert k v m) = f v + total f m := by
  rw [AList.lookup_eq_none] at h
  simp only [total, values, AList.entries_insert_of_notMem h, List.map_cons, List.sum_cons]

/-- An update in place exchanges the share of one entry. -/
theorem total_modify {k : κ} {m : Table κ α} {v : α} (h : m.lookup k = some v) (f : α → ℕ)
    (g : α → α) : total f (m.modify k g) + f v = total f m + f (g v) := by
  obtain ⟨l, hl⟩ := m
  simp only [AList.lookup] at h
  simp only [total, values, modify, mapValues, List.map_map, Function.comp_def]
  induction l with
  | nil => simp at h
  | cons e l ih =>
    obtain ⟨k', v'⟩ := e
    obtain ⟨hk, hl'⟩ := List.nodupKeys_cons.mp hl
    by_cases hkk : k' = k
    · subst hkk
      obtain rfl : v' = v := by simpa using h
      have hrest : (l.map fun e => f (if e.1 = k' then g e.2 else e.2)) = l.map fun e => f e.2 := by
        refine List.map_congr_left fun e he => ?_
        have hne : e.1 ≠ k' := fun hc => hk (by simpa [hc] using List.mem_keys_of_mem he)
        simp [hne]
      simp only [List.map_cons, List.sum_cons, hrest, if_pos]
      omega
    · have hne : List.dlookup k (⟨k', v'⟩ :: l) = List.dlookup k l :=
        List.dlookup_cons_ne l ⟨k', v'⟩ (Ne.symm hkk)
      have := ih hl' (hne ▸ h)
      simp only [List.map_cons, List.sum_cons, if_neg hkk] at this ⊢
      omega

end Table
