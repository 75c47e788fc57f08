import CertOS.Interleave.Run

/-!
# Tasks one at a time

Some laws hold when tasks are carried out one after the other: a thread is started only
when all others have returned (`Interleave.Config.idle`). In such a run the pool is, at any
time, a list of threads that have returned, and perhaps one more at its end that is under
way; so a task can be followed from its start to its end, as sequential code is.

`Interleave.System.Alone` is the condition under which the rest of a task keeps `A` in every
state on its way, and leaves `B` behind, and `Interleave.System.Run.alone` is the rule: if every
task that is started where `B` holds does so, `A` holds in every state of every run.
-/

namespace Interleave

/-- No thread is under way. -/
def Config.idle {Op : Type} {Res : Op → Type} {St τ α : Type} (c : Config Res St τ α) : Bool :=
  c.threads.all fun th => th.result.isSome

namespace System

variable {Op : Type} {Res : Op → Type} {Env St τ α : Type} (S : System Res Env St τ α)
  (ok : Config Res St τ α → Event Res Env τ → Prop) (A : List (Event Res Env τ) → St → Prop)
  (B : List (Event Res Env τ) → Config Res St τ α → Prop)

/-- **The rest of a task that runs alone**, after the threads of the pool `front`: `A` holds
after each of its steps, and `B` when it has returned. -/
def Alone (front : List (Thread Res τ α)) (t : τ) :
    Prog Res α → List (Event Res Env τ) → St → Prop
  | .ret a, es, s => B es ⟨s, front ++ [⟨t, .ret a⟩]⟩
  | .call o k, es, s => ∀ e,
      ok ⟨s, front ++ [⟨t, .call o k⟩]⟩ (.did front.length t e o (S.exec e o s).1) →
        A (es ++ [.did front.length t e o (S.exec e o s).1]) (S.exec e o s).2 ∧
          Alone front t (k (S.exec e o s).1) (es ++ [.did front.length t e o (S.exec e o s).1])
            (S.exec e o s).2

variable {S ok A B} {c c₁ : Config Res St τ α} {es : List (Event Res Env τ)}

/-- Where a run of tasks one at a time is: nothing is under way, or one task is. -/
def Serial (S : System Res Env St τ α) (ok : Config Res St τ α → Event Res Env τ → Prop)
    (A : List (Event Res Env τ) → St → Prop)
    (B : List (Event Res Env τ) → Config Res St τ α → Prop) (es : List (Event Res Env τ))
    (c : Config Res St τ α) : Prop :=
  (c.idle = true ∧ B es c) ∨ ∃ front t p, c.threads = front ++ [⟨t, p⟩] ∧
    (∀ th ∈ front, th.result.isSome = true) ∧ S.Alone ok A B front t p es c.state

/-- A task that runs alone is a run of tasks one at a time. -/
theorem Alone.serial {front : List (Thread Res τ α)} {t : τ} {p : Prog Res α} {s : St}
    (hfront : ∀ th ∈ front, th.result.isSome = true) (h : S.Alone ok A B front t p es s) :
    S.Serial ok A B es ⟨s, front ++ [⟨t, p⟩]⟩ :=
  Or.inr ⟨front, t, p, rfl, hfront, h⟩

/-- When nothing is under way, the last task has left `B` behind. -/
theorem Serial.of_idle (h : S.Serial ok A B es c) (hidle : c.idle = true) : B es c := by
  rcases h with ⟨-, h⟩ | ⟨front, t, p, hc, -, h⟩
  · exact h
  · cases p with
    | ret a =>
      obtain ⟨s, threads⟩ := c
      dsimp only at hc
      subst hc
      exact h
    | call o k =>
      rw [Config.idle, hc, List.all_append, Bool.and_eq_true] at hidle
      cases hidle.2

/-- **The rule for tasks one at a time.** -/
theorem Run.alone (hforks : ∀ o r, S.forks o r = []) (hidle : c.idle = true) (hA : A [] c.state)
    (hB : B [] c) (hone : ∀ c t, ok c (.start t) → c.idle = true)
    (hstart : ∀ es c t, B es c → ok c (.start t) → A (es ++ [.start t]) c.state ∧
      S.Alone ok A B c.threads t (S.body t) (es ++ [.start t]) c.state)
    (h : S.Run ok c es c₁) : A es c₁.state ∧ S.Serial ok A B es c₁ := by
  refine h.invariant (I := fun es c => A es c.state ∧ S.Serial ok A B es c)
    ⟨hA, Or.inl ⟨hidle, hB⟩⟩ ?_
  rintro es c₁ ev c₂ ⟨-, hser⟩ hg hs
  cases hs with
  | start t =>
    have hfree := hone c₁ t hg
    obtain ⟨hA, halone⟩ := hstart es c₁ t (hser.of_idle hfree) hg
    exact ⟨hA, halone.serial (List.all_eq_true.mp hfree)⟩
  | did i t e o k hi =>
    rcases hser with ⟨hfree, -⟩ | ⟨front, t', p, hc, hfront, halone⟩
    · -- the thread that moves is under way
      cases List.all_eq_true.mp hfree _ (List.mem_of_getElem? hi)
    · obtain ⟨s, threads⟩ := c₁
      dsimp only at hc hi halone
      subst hc
      rcases getElem?_concat_inv hi with hi | ⟨rfl, hth⟩
      · cases hfront _ (List.mem_of_getElem? hi)
      · cases hth
        obtain ⟨hA, hrest⟩ := halone e hg
        have hpool : (S.after ⟨s, front ++ [⟨t, .call o k⟩]⟩ front.length t e o k).threads =
            front ++ [⟨t, k (S.exec e o s).1⟩] := by
          rw [after, hforks]
          simp
        have hafter : S.after ⟨s, front ++ [⟨t, .call o k⟩]⟩ front.length t e o k =
            ⟨(S.exec e o s).2, front ++ [⟨t, k (S.exec e o s).1⟩]⟩ := by
          rw [← hpool]
          rfl
        rw [hafter]
        exact ⟨hA, hrest.serial hfront⟩

end System

end Interleave
