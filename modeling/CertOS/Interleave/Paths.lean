import CertOS.Interleave.Inline

/-!
# The paths of a thread

What a thread has come to is determined by what it has done: `Interleave.Prog.Path` leads
from a program to what is left of it by some operations and the answers to them, and a
thread of a run is where the path of its own events leads from the program of its task
(`Interleave.System.Run.path`). So a statement about what a thread has returned needs no
invariant of its own; it is read off the path, and what is known of the answers in it comes
from the runs up to the events they belong to.
-/

namespace Interleave

namespace Prog

variable {Op Op' : Type} {Res : Op → Type} {Res' : Op' → Type} {α β : Type} {p q : Prog Res α}

/-! ### What a program may come to -/

/-- A program performs nothing but what it may come to. -/
theorem only_calls (p : Prog Res α) : p.Only p.Calls := by
  induction p with
  | ret a => trivial
  | call o k ih =>
    exact ⟨calls_call.mpr (Or.inl rfl), fun r =>
      (ih r).mono fun o' h => calls_call.mpr (Or.inr ⟨r, h⟩)⟩

@[simp] theorem calls_map {f : α → β} {o : Op} : (f <$> p).Calls o ↔ p.Calls o :=
  ⟨fun h => (only_map.mpr p.only_calls).of_calls h,
    fun h => (only_map.mp (f <$> p).only_calls).of_calls h⟩

/-- A choice comes to what one of its branches comes to. -/
theorem calls_ite {c : Prop} [Decidable c] {o : Op} :
    (if c then p else q).Calls o ↔ (c ∧ p.Calls o) ∨ (¬c ∧ q.Calls o) := by
  split_ifs with h
  · simp [h]
  · simp [h]

/-- What an embedded program may come to. -/
theorem Calls.of_embed {inj : Op → Op'} {h : ∀ o, Res' (inj o) → Res o} {o' : Op'}
    (hc : (p.embed inj h).Calls o') : ∃ o, o' = inj o ∧ p.Calls o :=
  (p.only_calls.embed (h := h)).of_calls hc

/-- What a program with its operations replaced may come to. -/
theorem Calls.of_handle {h : ∀ o, Prog Res' (Res o)} {o' : Op'} (hc : (p.handle h).Calls o') :
    ∃ o, p.Calls o ∧ (h o).Calls o' :=
  (Only.handle (q := fun o' => ∃ o, p.Calls o ∧ (h o).Calls o') fun o ho =>
    (h o).only_calls.mono fun _ ho' => ⟨o, ho, ho'⟩).of_calls hc

/-! ### Paths -/

/-- `Path p l q`: the operations and answers `l` lead from `p` to `q`. -/
inductive Path : Prog Res α → List ((op : Op) × Res op) → Prog Res α → Prop
  /-- Nothing was performed yet. -/
  | nil (p : Prog Res α) : Path p [] p
  /-- The first operation was performed, and then some more. -/
  | call {o : Op} {k : Res o → Prog Res α} {l : List ((op : Op) × Res op)} {q : Prog Res α}
      (r : Res o) (h : Path (k r) l q) : Path (.call o k) (⟨o, r⟩ :: l) q

/-- One more operation is performed. -/
theorem Path.snoc {l : List ((op : Op) × Res op)} {o : Op} {k : Res o → Prog Res α}
    (h : Path p l (.call o k)) (r : Res o) : Path p (l ++ [⟨o, r⟩]) (k r) := by
  generalize hq : Prog.call o k = q at h
  induction h with
  | nil =>
    subst hq
    exact .call r (.nil _)
  | call r' _ ih => exact .call r' (ih hq)

/-- A program that returns has a path of operations, of which the first is its own. -/
theorem Path.call_inv {o : Op} {k : Res o → Prog Res α} {l : List ((op : Op) × Res op)} {a : α}
    (h : Path (.call o k) l (.ret a)) : ∃ r l', l = ⟨o, r⟩ :: l' ∧ Path (k r) l' (.ret a) := by
  cases h with
  | call r h => exact ⟨r, _, rfl, h⟩

theorem path_ret_ret {l : List ((op : Op) × Res op)} {a b : α} :
    Path (.ret b : Prog Res α) l (.ret a) ↔ l = [] ∧ b = a := by
  constructor
  · intro h
    cases h
    exact ⟨rfl, rfl⟩
  · rintro ⟨rfl, rfl⟩
    exact .nil _

/-- An operation on a path is one that the program may come to. -/
theorem Path.calls {l : List ((op : Op) × Res op)} (h : Path p l q) :
    ∀ s ∈ l, p.Calls s.1 := by
  induction h with
  | nil => simp
  | call r h ih =>
    intro s hs
    rcases List.mem_cons.mp hs with rfl | hs
    · exact calls_call.mpr (Or.inl rfl)
    · exact calls_call.mpr (Or.inr ⟨r, ih s hs⟩)

end Prog

namespace System

variable {Op : Type} {Res : Op → Type} {Env St τ α : Type} {S : System Res Env St τ α}
  {ok : Config Res St τ α → Event Res Env τ → Prop} {c c₁ : Config Res St τ α}
  {es : List (Event Res Env τ)} {i : ℕ}

/-- What an event performs, if it is one of thread `i`. -/
def performedBy (i : ℕ) : Event Res Env τ → Option ((op : Op) × Res op)
  | .start _ => none
  | .did j _ _ op r => if j = i then some ⟨op, r⟩ else none

/-- What thread `i` has performed among some events. -/
def own (i : ℕ) (es : List (Event Res Env τ)) : List ((op : Op) × Res op) :=
  es.filterMap (performedBy i)

theorem own_start {t : τ} : own i (es ++ [.start t]) = own i es := by
  simp [own, performedBy]

theorem own_did_self {t : τ} {e : Env} {op : Op} {r : Res op} :
    own i (es ++ [.did i t e op r]) = own i es ++ [⟨op, r⟩] := by
  simp [own, performedBy]

theorem own_did_of_ne {j : ℕ} (hne : j ≠ i) {t : τ} {e : Env} {op : Op} {r : Res op} :
    own i (es ++ [.did j t e op r]) = own i es := by
  simp [own, performedBy, hne]

/-- **A thread is where its own events have led it.** -/
theorem Run.path (hc : c.threads = []) (h : S.Run ok c es c₁) {th : Thread Res τ α}
    (hi : c₁.threads[i]? = some th) :
    (S.body th.task).Path (own i es) th.prog := by
  have hinv := h.invariant (I := fun es c =>
    (∀ i, c.threads.length ≤ i → own i es = []) ∧
      ∀ (i : ℕ) th, c.threads[i]? = some th →
        (S.body th.task).Path (own i es) th.prog)
    ⟨fun _ _ => rfl, fun i th hi => by rw [hc] at hi; cases hi⟩ ?_
  · exact hinv.2 i th hi
  · intro es c₁ ev c₂ ⟨hfresh, hpath⟩ _ hs
    cases hs with
    | start t =>
      refine ⟨fun i hi => ?_, fun i th hi => ?_⟩
      · rw [own_start]
        refine hfresh i ?_
        rw [List.length_append] at hi
        exact Nat.le_of_add_right_le hi
      · rw [own_start]
        rcases getElem?_start hi with hi | ⟨rfl, rfl⟩
        · exact hpath i th hi
        · rw [hfresh _ (Nat.le_refl _)]
          exact .nil _
    | did j t e o k hj =>
      have hlt : j < c₁.threads.length := (List.getElem?_eq_some_iff.mp hj).1
      refine ⟨fun i hi => ?_, fun i th hi => ?_⟩
      · have hlen : c₁.threads.length ≤ i := by
          rw [after, List.length_append, List.length_set] at hi
          exact Nat.le_of_add_right_le hi
        have hne : j ≠ i := by omega
        rw [own_did_of_ne hne]
        exact hfresh i hlen
      · rcases getElem?_after hi with ⟨rfl, rfl⟩ | ⟨hne, hi⟩ | ⟨hle, u, hu, rfl⟩
        · rw [own_did_self]
          exact (hpath i _ hj).snoc _
        · rw [own_did_of_ne (Ne.symm hne)]
          exact hpath i th hi
        · have hne : j ≠ i := by omega
          rw [own_did_of_ne hne, hfresh i hle]
          exact .nil _

/-- An operation of a thread is one that its task may come to. -/
theorem Run.calls_of_mem (hc : c.threads = []) (h : S.Run ok c es c₁) {t : τ} {e : Env} {op : Op}
    {r : Res op} (hev : .did i t e op r ∈ es) : (S.body t).Calls op := by
  obtain ⟨es₁, es₂, rfl⟩ := List.append_of_mem hev
  obtain ⟨c', c'', hrun, -, hs, -⟩ := h.split
  obtain ⟨k, hi, -, -⟩ := hs.did_inv
  have hres := hrun.residual (fun th hth => by rw [hc] at hth; cases hth) _
    (List.mem_of_getElem? hi)
  exact ⟨k, hres⟩

/-- An operation of a thread is an event, and its answer that of the state it has found. -/
theorem Run.exists_of_own (h : S.Run ok c es c₁) {op : Op} {r : Res op}
    (hown : ⟨op, r⟩ ∈ own i es) :
    ∃ es₁ es₂ c' t e, es = es₁ ++ .did i t e op r :: es₂ ∧ S.Run ok c es₁ c' ∧
      r = (S.exec e op c'.state).1 := by
  obtain ⟨ev, hev, heq⟩ := List.mem_filterMap.mp hown
  obtain ⟨es₁, es₂, rfl⟩ := List.append_of_mem hev
  obtain ⟨c', c'', hrun, -, hs, -⟩ := h.split
  cases ev with
  | start t => cases heq
  | did j t e o r' =>
    rw [performedBy] at heq
    split at heq
    · rename_i hji
      subst hji
      cases heq
      obtain ⟨k, -, hr, -⟩ := hs.did_inv
      exact ⟨es₁, es₂, c', t, e, rfl, hrun, hr⟩
    · cases heq

end System

end Interleave
