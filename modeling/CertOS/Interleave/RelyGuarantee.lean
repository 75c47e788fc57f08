import CertOS.Interleave.Run

/-!
# Rely and guarantee

What a thread does between two of its steps cannot be known, but what all threads keep
can: an invariant of the shared state, and a relation between every state and the later
ones. `Interleave.Pact` is such a pair. A thread keeps to it
(`Interleave.Prog.Meets`) if each of its steps does, where it may rely on the pact for all
that has happened since its last step. The postcondition of a thread sees the thread's own
steps, each with the state before and after it (`Interleave.System.ownSteps`).

`Interleave.System.Run.meets` is the rule: if the program of every task that is started
keeps to the pact, the invariant holds in every state of every run, and every thread that
has returned has met its postcondition.
-/

namespace Interleave

/-- What all threads keep, and may rely on. -/
structure Pact (St : Type) where
  /-- It holds in every state. -/
  Inv : St → Prop
  /-- It holds between every state and the later ones. -/
  Rel : St → St → Prop
  refl : ∀ s, Rel s s
  trans : ∀ {s₁ s₂ s₃}, Rel s₁ s₂ → Rel s₂ s₃ → Rel s₁ s₃

namespace Prog

variable {Op : Type} {Res : Op → Type} {Env St α β : Type}

section Meets

variable (exec : Env → (o : Op) → St → Res o × St) (G : Pact St)

/-- **A thread keeps to the pact.** It has seen the state `s` last, `log` is the list of its
own steps, and `Q` is to hold of all its steps and of what it returns. -/
def Meets (Q : List (St × St) → α → Prop) : Prog Res α → St → List (St × St) → Prop
  | .ret a, _, log => Q log a
  | .call o k, s, log => ∀ e s', G.Rel s s' → G.Inv s' →
      G.Inv (exec e o s').2 ∧ G.Rel s' (exec e o s').2 ∧
        (k (exec e o s').1).Meets Q (exec e o s').2 (log ++ [(s', (exec e o s').2)])

end Meets

variable {exec : Env → (o : Op) → St → Res o × St} {G : Pact St}
  {Q : List (St × St) → α → Prop} {s s' : St} {log : List (St × St)}

/-- A thread does not mind the steps of the others. -/
theorem Meets.later {p : Prog Res α} (h : p.Meets exec G Q s log) (hs : G.Rel s s') :
    p.Meets exec G Q s' log := by
  cases p with
  | ret a => exact h
  | call o k => exact fun e s₁ hrel hinv => h e s₁ (G.trans hs hrel) hinv

theorem Meets.mono {Q' : List (St × St) → α → Prop} {p : Prog Res α} (h : p.Meets exec G Q s log)
    (hQ : ∀ log a, Q log a → Q' log a) : p.Meets exec G Q' s log := by
  induction p generalizing s log with
  | ret a => exact hQ log a h
  | call o k ih =>
    intro e s' hrel hinv
    obtain ⟨hinv', hrel', hk⟩ := h e s' hrel hinv
    exact ⟨hinv', hrel', ih _ hk⟩

theorem meets_map {p : Prog Res α} {f : α → β} {Q : List (St × St) → β → Prop} :
    (f <$> p).Meets exec G Q s log ↔ p.Meets exec G (fun log a => Q log (f a)) s log := by
  induction p generalizing s log with
  | ret a => exact Iff.rfl
  | call o k ih =>
    exact forall_congr' fun e => forall_congr' fun s' => imp_congr_right fun _ =>
      imp_congr_right fun _ => and_congr_right fun _ => and_congr_right fun _ => ih _

/-- **A step that keeps to the pact**, and what comes after it. -/
theorem Meets.call {o : Op} {k : Res o → Prog Res α}
    (hop : ∀ e s', G.Rel s s' → G.Inv s' → G.Inv (exec e o s').2 ∧ G.Rel s' (exec e o s').2)
    (hk : ∀ e s', G.Rel s s' → G.Inv s' → (k (exec e o s').1).Meets exec G Q (exec e o s').2
      (log ++ [(s', (exec e o s').2)])) :
    (Prog.call o k).Meets exec G Q s log := fun e s' hrel hinv =>
  ⟨(hop e s' hrel hinv).1, (hop e s' hrel hinv).2, hk e s' hrel hinv⟩

/-- A thread that performs nothing but operations that keep to the pact. -/
theorem Only.meets {q : Op → Prop} {p : Prog Res α} (hp : p.Only q)
    (hop : ∀ e o s, q o → G.Inv s → G.Inv (exec e o s).2 ∧ G.Rel s (exec e o s).2)
    (hQ : ∀ log a, Q log a) : p.Meets exec G Q s log := by
  induction p generalizing s log with
  | ret a => exact hQ log a
  | call o k ih =>
    exact .call (fun e s' _ hinv => hop e o s' hp.1 hinv) fun _ _ _ _ => ih _ (hp.2 _)

end Prog

namespace System

variable {Op : Type} {Res : Op → Type} {Env St τ α : Type} (S : System Res Env St τ α)

/-- The state after some events. -/
def replay : St → List (Event Res Env τ) → St
  | s, [] => s
  | s, .start _ :: es => replay s es
  | s, .did _ _ e o _ :: es => replay (S.exec e o s).2 es

/-- The steps of thread `i` among some events: the states before and after each of them. -/
def ownSteps (i : ℕ) : St → List (Event Res Env τ) → List (St × St)
  | _, [] => []
  | s, .start _ :: es => ownSteps i s es
  | s, .did j _ e o _ :: es =>
    if j = i then (s, (S.exec e o s).2) :: ownSteps i (S.exec e o s).2 es
    else ownSteps i (S.exec e o s).2 es

variable {S} {i : ℕ} {s : St} {es : List (Event Res Env τ)}

theorem replay_start {t : τ} : S.replay s (es ++ [.start t]) = S.replay s es := by
  induction es generalizing s with
  | nil => rfl
  | cons ev es ih =>
    cases ev with
    | start t' => exact ih
    | did j t' e o r => exact ih

theorem replay_did {j : ℕ} {t : τ} {e : Env} {o : Op} {r : Res o} :
    S.replay s (es ++ [.did j t e o r]) = (S.exec e o (S.replay s es)).2 := by
  induction es generalizing s with
  | nil => rfl
  | cons ev es ih =>
    cases ev with
    | start t' => exact ih
    | did j' t' e' o' r' => exact ih

theorem ownSteps_start {t : τ} : S.ownSteps i s (es ++ [.start t]) = S.ownSteps i s es := by
  induction es generalizing s with
  | nil => rfl
  | cons ev es ih =>
    cases ev with
    | start t' => exact ih
    | did j t' e o r =>
      rw [List.cons_append, ownSteps, ownSteps, ih]

theorem ownSteps_did_self {t : τ} {e : Env} {o : Op} {r : Res o} :
    S.ownSteps i s (es ++ [.did i t e o r]) =
      S.ownSteps i s es ++ [(S.replay s es, (S.exec e o (S.replay s es)).2)] := by
  induction es generalizing s with
  | nil => exact if_pos rfl
  | cons ev es ih =>
    cases ev with
    | start t' => exact ih
    | did j t' e' o' r' =>
      rw [List.cons_append, ownSteps, ownSteps, ih, replay]
      split <;> rfl

theorem ownSteps_did_of_ne {j : ℕ} (hne : j ≠ i) {t : τ} {e : Env} {o : Op} {r : Res o} :
    S.ownSteps i s (es ++ [.did j t e o r]) = S.ownSteps i s es := by
  induction es generalizing s with
  | nil => exact if_neg hne
  | cons ev es ih =>
    cases ev with
    | start t' => exact ih
    | did j' t' e' o' r' =>
      rw [List.cons_append, ownSteps, ownSteps, ih]

/-- What holds along a run whose threads all keep to the pact: `s₀` is the state it has started
from. -/
structure KeptTo (S : System Res Env St τ α) (G : Pact St) (Q : τ → List (St × St) → α → Prop)
    (s₀ : St) (es : List (Event Res Env τ)) (c : Config Res St τ α) : Prop where
  inv : G.Inv c.state
  replay : S.replay s₀ es = c.state
  /-- A thread that is not there has made no step. -/
  fresh : ∀ i, c.threads.length ≤ i → S.ownSteps i s₀ es = []
  thread : ∀ (i : ℕ) (th : Thread Res τ α), c.threads[i]? = some th →
    th.prog.Meets S.exec G (Q th.task) c.state (S.ownSteps i s₀ es)

/-- **The rule of rely and guarantee**: in a run whose tasks all keep to the pact, the invariant
holds, and so does the postcondition of every thread that has returned. -/
theorem Run.meets {ok : Config Res St τ α → Event Res Env τ → Prop} {c c₁ : Config Res St τ α}
    {G : Pact St} {Q : τ → List (St × St) → α → Prop} (h₀ : G.Inv c.state) (hc : c.threads = [])
    (hstart : ∀ c t, ok c (.start t) → ∀ s, (S.body t).Meets S.exec G (Q t) s [])
    (hfork : ∀ o r, ∀ t ∈ S.forks o r, ∀ s, (S.body t).Meets S.exec G (Q t) s [])
    (h : S.Run ok c es c₁) : S.KeptTo G Q c.state es c₁ := by
  refine h.invariant (I := S.KeptTo G Q c.state) ⟨h₀, rfl, fun _ _ => rfl, fun i th hi => ?_⟩ ?_
  · rw [hc] at hi
    cases hi
  · intro es c₁ ev c₂ hk hg hs
    cases hs with
    | start t =>
      refine ⟨hk.inv, replay_start.trans hk.replay, fun i hi => ?_, fun i th hi => ?_⟩
      · rw [ownSteps_start]
        refine hk.fresh i ?_
        rw [List.length_append] at hi
        exact Nat.le_of_add_right_le hi
      · rw [ownSteps_start]
        rcases getElem?_start hi with hi | ⟨rfl, rfl⟩
        · exact hk.thread i th hi
        · rw [hk.fresh _ (Nat.le_refl _)]
          exact hstart _ t hg _
    | did j t e o k hj =>
      obtain ⟨hinv, hrel, hmeets⟩ := hk.thread j _ hj e c₁.state (G.refl _) hk.inv
      have hlt : j < c₁.threads.length := (List.getElem?_eq_some_iff.mp hj).1
      have hlen : c₁.threads.length ≤ (S.after c₁ j t e o k).threads.length := by
        rw [after, List.length_append, List.length_set]
        exact Nat.le_add_right _ _
      refine ⟨hinv, ?_, fun i hi => ?_, fun i th hi => ?_⟩
      · rw [replay_did, hk.replay]
        rfl
      · rw [ownSteps_did_of_ne (by omega)]
        exact hk.fresh i (Nat.le_trans hlen hi)
      · rcases getElem?_after hi with ⟨rfl, rfl⟩ | ⟨hne, hi⟩ | ⟨hle, u, hu, rfl⟩
        · rw [ownSteps_did_self, hk.replay]
          exact hmeets
        · rw [ownSteps_did_of_ne (Ne.symm hne)]
          exact (hk.thread i th hi).later hrel
        · rw [ownSteps_did_of_ne (by omega), hk.fresh i hle]
          exact hfork _ _ u hu _

end System

end Interleave
