import CertOS.Interleave.Prog
import Mathlib.Data.List.Basic

/-!
# Runs of a pool of threads

`Interleave.System` interprets the operations of `Interleave.Prog` on a shared
state and gives every task its program; `Interleave.System.Step` lets any
thread of the pool perform its next operation, and lets new threads start at
any time. A run is a sequence of steps, with the events it consists of. Every
order of steps of every number of threads is a run, and so is every delay: a
thread that is not scheduled simply waits in front of its next operation.

A run carries a *guard* `ok`, a condition on the configuration before a step
and the event of the step, that all its steps meet. A law of a system then has
two shapes: it holds in every run (`ok` is a fact about the environment), or
it holds in the runs whose steps all meet a condition.

The rules of proof are at the end. `Interleave.System.Run.invariant` carries a
predicate on histories and configurations along a run,
`Interleave.System.Run.state_invariant` a predicate on the shared state alone,
and `Interleave.System.getElem?_start` and `Interleave.System.getElem?_after`
say which threads there are after a step, which is what an invariant about all
threads needs; `Interleave.System.Run.residual` is the invariant that no thread
does anything but what its task says.
-/

namespace Interleave

/-- A thread of the pool: the task it was started for, and what is left of its
program. -/
structure Thread {Op : Type} (Res : Op → Type) (τ α : Type) where
  /-- The task the thread was started for. -/
  task : τ
  /-- What is left of the program. -/
  prog : Prog Res α

/-- A configuration: the shared state and the pool of threads. Threads keep
their place in the pool when they have returned. -/
structure Config {Op : Type} (Res : Op → Type) (St τ α : Type) where
  /-- The shared state. -/
  state : St
  /-- The pool. -/
  threads : List (Thread Res τ α)

/-- What a thread has returned, if it has. -/
def Thread.result {Op : Type} {Res : Op → Type} {τ α : Type} (th : Thread Res τ α) : Option α :=
  match th.prog with
  | .ret a => some a
  | .call _ _ => none

/-- What thread `i` has returned, if there is one and it has. -/
def Config.result {Op : Type} {Res : Op → Type} {St τ α : Type} (c : Config Res St τ α) (i : ℕ) :
    Option α :=
  c.threads[i]?.bind Thread.result

theorem Config.result_eq_some {Op : Type} {Res : Op → Type} {St τ α : Type}
    {c : Config Res St τ α} {i : ℕ} {a : α} :
    c.result i = some a ↔ ∃ t, c.threads[i]? = some ⟨t, .ret a⟩ := by
  rw [result, Option.bind_eq_some_iff]
  constructor
  · rintro ⟨⟨t, p⟩, hi, hp⟩
    cases p with
    | ret b =>
      obtain rfl := Option.some.inj hp
      exact ⟨t, hi⟩
    | call op k => cases hp
  · rintro ⟨t, hi⟩
    exact ⟨_, hi, rfl⟩

/-- What a step of the pool did. -/
inductive Event {Op : Type} (Res : Op → Type) (Env τ : Type) where
  /-- A thread for the task `t` was started. -/
  | start (t : τ)
  /-- Thread `i`, working on `t`, performed `op` in the environment `e` and got
  the answer `r`. -/
  | did (i : ℕ) (t : τ) (e : Env) (op : Op) (r : Res op)

/-- What a scheduler may choose: to start a thread, or to let thread `i`
perform its next operation in the environment `e`. -/
inductive Choice (Env τ : Type) where
  /-- Start a thread for the task `t`. -/
  | start (t : τ)
  /-- Let thread `i` perform its next operation. -/
  | move (i : ℕ) (e : Env)

/-- A system: the meaning of the operations, the program of each task, and the
tasks an operation starts by itself (a `std::thread` created under a lock). -/
structure System {Op : Type} (Res : Op → Type) (Env St τ α : Type) where
  /-- The meaning of an operation. -/
  exec : Env → (op : Op) → St → Res op × St
  /-- The program of a task. -/
  body : τ → Prog Res α
  /-- The tasks an operation starts, given its answer. -/
  forks : (op : Op) → Res op → List τ := fun _ _ => []

namespace System

variable {Op : Type} {Res : Op → Type} {Env St τ α : Type} (S : System Res Env St τ α)

/-- A fresh thread for a task. -/
def spawn (t : τ) : Thread Res τ α := ⟨t, S.body t⟩

@[simp] theorem spawn_task (t : τ) : (S.spawn t).task = t := rfl

@[simp] theorem spawn_prog (t : τ) : (S.spawn t).prog = S.body t := rfl

/-- The configuration after thread `i`, working on `t` and in front of `op`,
performed it. -/
def after (c : Config Res St τ α) (i : ℕ) (t : τ) (e : Env) (op : Op)
    (k : Res op → Prog Res α) : Config Res St τ α where
  state := (S.exec e op c.state).2
  threads := c.threads.set i ⟨t, k (S.exec e op c.state).1⟩ ++
    (S.forks op (S.exec e op c.state).1).map S.spawn

/-- **One step of the pool**: a thread is started, or one thread performs its
next operation. -/
inductive Step : Config Res St τ α → Event Res Env τ → Config Res St τ α → Prop
  /-- A thread is started. -/
  | start (c : Config Res St τ α) (t : τ) :
      Step c (.start t) ⟨c.state, c.threads ++ [S.spawn t]⟩
  /-- A thread performs its next operation. -/
  | did (c : Config Res St τ α) (i : ℕ) (t : τ) (e : Env) (op : Op) (k : Res op → Prog Res α)
      (h : c.threads[i]? = some ⟨t, .call op k⟩) :
      Step c (.did i t e op (S.exec e op c.state).1) (S.after c i t e op k)

/-- **A run**: a sequence of steps that all meet the guard `ok`, with its
events in order. -/
inductive Run (ok : Config Res St τ α → Event Res Env τ → Prop) (c : Config Res St τ α) :
    List (Event Res Env τ) → Config Res St τ α → Prop
  /-- Nothing has happened. -/
  | nil : Run ok c [] c
  /-- One more step. -/
  | snoc {es : List (Event Res Env τ)} {c₁ c₂ : Config Res St τ α} {ev : Event Res Env τ} :
      Run ok c es c₁ → ok c₁ ev → S.Step c₁ ev c₂ → Run ok c (es ++ [ev]) c₂

variable {S} {ok ok' : Config Res St τ α → Event Res Env τ → Prop}
  {c c₁ c₂ : Config Res St τ α} {es es₁ es₂ : List (Event Res Env τ)} {ev : Event Res Env τ}

/-- A run of one step. -/
theorem Run.single (hok : ok c ev) (h : S.Step c ev c₁) : S.Run ok c [ev] c₁ :=
  show S.Run ok c ([] ++ [ev]) c₁ from .snoc .nil hok h

/-- Runs compose. -/
theorem Run.append (h₁ : S.Run ok c es₁ c₁) (h₂ : S.Run ok c₁ es₂ c₂) :
    S.Run ok c (es₁ ++ es₂) c₂ := by
  induction h₂ with
  | nil => simpa using h₁
  | snoc _ hok hstep ih =>
    rw [← List.append_assoc]
    exact ih.snoc hok hstep

/-- **A run taken apart at one of its events**: the run before it, the step, and the run
after it. -/
theorem Run.split (h : S.Run ok c (es₁ ++ ev :: es₂) c₂) :
    ∃ c₁ c', S.Run ok c es₁ c₁ ∧ ok c₁ ev ∧ S.Step c₁ ev c' ∧ S.Run ok c' es₂ c₂ := by
  generalize hes : es₁ ++ ev :: es₂ = es at h
  induction h generalizing es₂ with
  | nil => simp at hes
  | @snoc es c₁ c₂ ev' hrun hg hs ih =>
    rcases List.eq_nil_or_concat es₂ with rfl | ⟨es₃, ev₃, rfl⟩
    · obtain ⟨rfl, heq⟩ := List.append_inj' hes rfl
      obtain rfl := List.singleton_inj.mp heq
      exact ⟨c₁, c₂, hrun, hg, hs, .nil⟩
    · have hcat : (es₁ ++ ev :: es₃) ++ [ev₃] = es ++ [ev'] := by
        rw [← hes]
        simp
      obtain ⟨hes', heq⟩ := List.append_inj' hcat rfl
      obtain rfl := List.singleton_inj.mp heq
      obtain ⟨c₀, c', hrun₀, hg₀, hs₀, hrest⟩ := ih hes'
      rw [List.concat_eq_append]
      exact ⟨c₀, c', hrun₀, hg₀, hs₀, hrest.snoc hg hs⟩

/-- A run under a guard is a run under every guard that is weaker along it. -/
theorem Run.mono_of_run (h : S.Run ok c es c₁)
    (hok : ∀ es c₁ ev c₂, S.Run ok c es c₁ → ok c₁ ev → S.Step c₁ ev c₂ → ok' c₁ ev) :
    S.Run ok' c es c₁ := by
  induction h with
  | nil => exact .nil
  | snoc hrun hg hstep ih => exact ih.snoc (hok _ _ _ _ hrun hg hstep) hstep

/-- A run under a guard is a run under every weaker guard. -/
theorem Run.mono (h : S.Run ok c es c₁) (hok : ∀ c ev, ok c ev → ok' c ev) :
    S.Run ok' c es c₁ :=
  h.mono_of_run fun _ _ _ _ _ hg _ => hok _ _ hg

/-- **Two systems that agree on the steps of a run have the run in common.** -/
theorem Run.of_exec_eq {S' : System Res Env St τ α} (hbody : S'.body = S.body)
    (hforks : S'.forks = S.forks)
    (hexec : ∀ c i t e op r, ok c (.did i t e op r) → S'.exec e op c.state = S.exec e op c.state)
    (h : S.Run ok c es c₁) : S'.Run ok c es c₁ := by
  have hspawn : S'.spawn = S.spawn := by
    funext t
    rw [spawn, spawn, hbody]
  induction h with
  | nil => exact .nil
  | snoc _ hg hstep ih =>
    refine ih.snoc hg ?_
    cases hstep with
    | start t =>
      rw [← hspawn]
      exact .start _ t
    | did i t e op k hi =>
      have he := hexec _ i t e op _ hg
      rw [after, ← he, ← hforks, ← hspawn]
      exact .did _ i t e op k hi

/-- Every event of a run meets what the guard implies about events. -/
theorem Run.forall_mem {q : Event Res Env τ → Prop} (h : S.Run ok c es c₁)
    (hq : ∀ c ev, ok c ev → q ev) : ∀ ev ∈ es, q ev := by
  induction h with
  | nil =>
    intro ev hev
    cases hev
  | snoc _ hg _ ih =>
    intro ev hev
    rcases List.mem_append.mp hev with hev | hev
    · exact ih ev hev
    · obtain rfl := List.mem_singleton.mp hev
      exact hq _ _ hg

/-! ### Rules of proof -/

/-- **The invariant rule**: what holds at the start and is preserved by every
step that meets the guard holds at the end of every run. The predicate sees the
history as well as the configuration. -/
theorem Run.invariant {I : List (Event Res Env τ) → Config Res St τ α → Prop} (h₀ : I [] c)
    (hstep : ∀ es c₁ ev c₂, I es c₁ → ok c₁ ev → S.Step c₁ ev c₂ → I (es ++ [ev]) c₂)
    (h : S.Run ok c es c₁) : I es c₁ := by
  induction h with
  | nil => exact h₀
  | snoc _ hg hs ih => exact hstep _ _ _ _ ih hg hs

/-- The invariant rule for a predicate that does not look at the history. -/
theorem Run.config_invariant {I : Config Res St τ α → Prop} (h₀ : I c)
    (hstep : ∀ c₁ ev c₂, I c₁ → ok c₁ ev → S.Step c₁ ev c₂ → I c₂)
    (h : S.Run ok c es c₁) : I c₁ :=
  h.invariant (I := fun _ c => I c) h₀ fun _ => hstep

/-- **The rule for the shared state**: a predicate on the state alone has to
be preserved by the operations, whatever thread performs them. -/
theorem Run.state_invariant {J : St → Prop} (h₀ : J c.state)
    (hop : ∀ (c : Config Res St τ α) i t e op,
      ok c (.did i t e op (S.exec e op c.state).1) → J c.state → J (S.exec e op c.state).2)
    (h : S.Run ok c es c₁) : J c₁.state := by
  refine h.config_invariant (I := fun c => J c.state) h₀ fun c₁ ev c₂ hJ hg hs => ?_
  cases hs with
  | start t => exact hJ
  | did i t e op k _ => exact hop _ i t e op hg hJ

/-- What a step that performed an operation is. -/
theorem Step.did_inv {i : ℕ} {t : τ} {e : Env} {op : Op} {r : Res op}
    (h : S.Step c (.did i t e op r) c₁) :
    ∃ k, c.threads[i]? = some ⟨t, .call op k⟩ ∧ r = (S.exec e op c.state).1 ∧
      c₁ = S.after c i t e op k := by
  generalize hev : Event.did i t e op r = ev at h
  cases h with
  | start => cases hev
  | did i t e op k hi =>
    cases hev
    exact ⟨k, hi, rfl, rfl⟩

/-- The entries of a list with one more at the end. -/
theorem getElem?_concat_inv {β : Type} {l : List β} {k : ℕ} {a b : β}
    (h : (l ++ [a])[k]? = some b) : l[k]? = some b ∨ (k = l.length ∧ b = a) := by
  rcases Nat.lt_or_ge k l.length with hk | hk
  · rw [List.getElem?_append_left hk] at h
    exact Or.inl h
  · rw [List.getElem?_append_right hk] at h
    obtain ⟨hk', rfl⟩ := List.getElem?_eq_some_iff.mp h
    refine Or.inr ⟨?_, by simp⟩
    have : k - l.length < 1 := hk'
    omega

/-- The entries of a list after one was replaced. -/
theorem getElem?_set_inv {β : Type} {l : List β} {i k : ℕ} {a b : β}
    (h : (l.set i a)[k]? = some b) : (k = i ∧ b = a) ∨ (k ≠ i ∧ l[k]? = some b) := by
  by_cases hki : k = i
  · subst hki
    have hk : k < l.length := by simpa using (List.getElem?_eq_some_iff.mp h).1
    rw [List.getElem?_set_self hk] at h
    exact Or.inl ⟨rfl, (Option.some.inj h).symm⟩
  · rw [List.getElem?_set_ne (Ne.symm hki)] at h
    exact Or.inr ⟨hki, h⟩

/-- The threads after a start: those there were, and the new one at the end. -/
theorem getElem?_start {t : τ} {k : ℕ} {th : Thread Res τ α}
    (h : (c.threads ++ [S.spawn t])[k]? = some th) :
    c.threads[k]? = some th ∨ (k = c.threads.length ∧ th = S.spawn t) :=
  getElem?_concat_inv h

/-- A start leaves the threads that there were in place. -/
theorem getElem?_start_of_some {t : τ} {k : ℕ} {th : Thread Res τ α}
    (h : c.threads[k]? = some th) : (c.threads ++ [S.spawn t])[k]? = some th := by
  rw [List.getElem?_append_left (List.getElem?_eq_some_iff.mp h).1, h]

/-- The threads after thread `i` performed an operation: thread `i` with the
rest of its program, the others as they were, and at the end those the
operation started. -/
theorem getElem?_after {i : ℕ} {t : τ} {e : Env} {op : Op} {cont : Res op → Prog Res α} {k : ℕ}
    {th : Thread Res τ α} (h : (S.after c i t e op cont).threads[k]? = some th) :
    (k = i ∧ th = ⟨t, cont (S.exec e op c.state).1⟩) ∨ (k ≠ i ∧ c.threads[k]? = some th) ∨
      (c.threads.length ≤ k ∧ ∃ u ∈ S.forks op (S.exec e op c.state).1, th = S.spawn u) := by
  simp only [after] at h
  rcases Nat.lt_or_ge k c.threads.length with hk | hk
  · rw [List.getElem?_append_left (by rwa [List.length_set])] at h
    rcases getElem?_set_inv h with h | h
    · exact Or.inl h
    · exact Or.inr (Or.inl h)
  · rw [List.getElem?_append_right (by rwa [List.length_set])] at h
    obtain ⟨u, hu, rfl⟩ := List.mem_map.mp (List.mem_of_getElem? h)
    exact Or.inr (Or.inr ⟨hk, u, hu, rfl⟩)

/-- The thread that has moved. -/
theorem getElem?_after_self {i : ℕ} {t : τ} {e : Env} {op : Op} {cont : Res op → Prog Res α}
    {th : Thread Res τ α} (hi : c.threads[i]? = some th) :
    (S.after c i t e op cont).threads[i]? = some ⟨t, cont (S.exec e op c.state).1⟩ := by
  have hlt := (List.getElem?_eq_some_iff.mp hi).1
  rw [after, List.getElem?_append_left (by rwa [List.length_set]), List.getElem?_set_self hlt]

/-- The threads that have not. -/
theorem getElem?_after_of_ne {i k : ℕ} {t : τ} {e : Env} {op : Op} {cont : Res op → Prog Res α}
    {th : Thread Res τ α} (hk : c.threads[k]? = some th) (hne : k ≠ i) :
    (S.after c i t e op cont).threads[k]? = some th := by
  have hlt := (List.getElem?_eq_some_iff.mp hk).1
  rw [after, List.getElem?_append_left (by rwa [List.length_set]),
    List.getElem?_set_ne (Ne.symm hne), hk]

/-- **The rule for the threads**: what holds of the threads that are started, and
is kept by every operation of a thread, holds of all threads. -/
theorem Run.forall_threads {q : Thread Res τ α → Prop} (h₀ : ∀ th ∈ c.threads, q th)
    (hstart : ∀ c t, ok c (.start t) → q (S.spawn t))
    (hfork : ∀ op r, ∀ t ∈ S.forks op r, q (S.spawn t))
    (hop : ∀ t op (k : Res op → Prog Res α) r, q ⟨t, .call op k⟩ → q ⟨t, k r⟩)
    (h : S.Run ok c es c₁) : ∀ th ∈ c₁.threads, q th := by
  refine h.config_invariant (I := fun c => ∀ th ∈ c.threads, q th) h₀ ?_
  intro c₁ ev c₂ hI hg hs th hth
  obtain ⟨k, hk⟩ := List.getElem?_of_mem hth
  cases hs with
  | start t =>
    rcases getElem?_start hk with hk | ⟨-, rfl⟩
    · exact hI th (List.mem_of_getElem? hk)
    · exact hstart c₁ t hg
  | did i t e op cont hi =>
    rcases getElem?_after hk with ⟨-, rfl⟩ | ⟨-, hk⟩ | ⟨-, u, hu, rfl⟩
    · exact hop t op cont _ (hI _ (List.mem_of_getElem? hi))
    · exact hI th (List.mem_of_getElem? hk)
    · exact hfork op _ u hu

/-- What is left of a thread is left of the program of its task. -/
theorem Run.residual (h₀ : ∀ th ∈ c.threads, (S.body th.task).Residual th.prog)
    (h : S.Run ok c es c₁) : ∀ th ∈ c₁.threads, (S.body th.task).Residual th.prog :=
  h.forall_threads (q := fun th => (S.body th.task).Residual th.prog) h₀ (fun _ _ _ => .refl _)
    (fun _ _ _ _ => .refl _) fun _ _ _ r hres => hres.snoc r

/-- The guard of a run may be that the event is one of its own. -/
theorem Run.of_mem (h : S.Run ok c es c₁) : S.Run (fun _ ev => ev ∈ es) c es c₁ := by
  have hsub : ∀ {es'}, es ⊆ es' → S.Run (fun _ ev => ev ∈ es') c es c₁ := by
    induction h with
    | nil => exact fun _ => .nil
    | snoc _ _ hs ih =>
      intro es' hes
      exact .snoc (ih fun ev hev => hes (List.mem_append_left _ hev))
        (hes (List.mem_append_right _ List.mem_cons_self)) hs
  exact hsub (List.Subset.refl es)

/-- A task that was started has a thread. -/
theorem Run.exists_thread (h : S.Run ok c es c₁) {t : τ} (ht : .start t ∈ es) :
    ∃ th ∈ c₁.threads, th.task = t := by
  refine h.invariant (I := fun es c => ∀ t, .start t ∈ es → ∃ th ∈ c.threads, th.task = t)
    (fun t ht => by cases ht) ?_ t ht
  intro es c₁ ev c₂ hI _ hs t ht
  rcases List.mem_append.mp ht with ht | ht
  · obtain ⟨th, hth, rfl⟩ := hI t ht
    obtain ⟨k, hk⟩ := List.getElem?_of_mem hth
    cases hs with
    | start u => exact ⟨th, List.mem_append_left _ hth, rfl⟩
    | did i u e op cont hi =>
      by_cases hki : k = i
      · subst hki
        rw [hi] at hk
        cases hk
        exact ⟨_, List.mem_of_getElem? (getElem?_after_self hi), rfl⟩
      · exact ⟨th, List.mem_of_getElem? (getElem?_after_of_ne hk hki), rfl⟩
  · obtain rfl := List.mem_singleton.mp ht
    cases hs with
    | start => exact ⟨_, List.mem_append_right _ List.mem_cons_self, rfl⟩

/-- A thread is there because its task was started, or because an operation has started it. -/
theorem Run.started_or_forked (hc : c.threads = []) (h : S.Run ok c es c₁) :
    ∀ th ∈ c₁.threads, .start th.task ∈ es ∨ ∃ op r, th.task ∈ S.forks op r := by
  refine h.invariant (I := fun es c => ∀ th ∈ c.threads, .start th.task ∈ es ∨
    ∃ op r, th.task ∈ S.forks op r) (fun th hth => ?_) ?_
  · rw [hc] at hth
    cases hth
  · intro es c₁ ev c₂ hI _ hs th hth
    have hold (th : Thread Res τ α) (hth : th ∈ c₁.threads) :
        .start th.task ∈ es ++ [ev] ∨ ∃ op r, th.task ∈ S.forks op r :=
      (hI th hth).imp_left fun hev => List.mem_append_left _ hev
    obtain ⟨k, hk⟩ := List.getElem?_of_mem hth
    cases hs with
    | start t =>
      rcases getElem?_start hk with hk | ⟨-, rfl⟩
      · exact hold th (List.mem_of_getElem? hk)
      · exact Or.inl (List.mem_append_right _ List.mem_cons_self)
    | did i t e op cont hi =>
      rcases getElem?_after hk with ⟨-, rfl⟩ | ⟨-, hk⟩ | ⟨-, u, hu, rfl⟩
      · have hself := hold _ (List.mem_of_getElem? hi)
        exact hself
      · exact hold th (List.mem_of_getElem? hk)
      · exact Or.inr ⟨op, _, hu⟩

/-! ### Playing a concrete schedule -/

variable (S)

/-- What one choice of the scheduler does, if it can be made. -/
def move (c : Config Res St τ α) : Choice Env τ → Option (Event Res Env τ × Config Res St τ α)
  | .start t => some (.start t, ⟨c.state, c.threads ++ [S.spawn t]⟩)
  | .move i e =>
    match c.threads[i]? with
    | some ⟨t, .call op k⟩ =>
        some (.did i t e op (S.exec e op c.state).1, S.after c i t e op k)
    | _ => none

/-- Play a list of choices, as long as each of them can be made and meets the
guard. -/
def play (ok : Config Res St τ α → Event Res Env τ → Bool) :
    Config Res St τ α → List (Choice Env τ) → Option (Config Res St τ α)
  | c, [] => some c
  | c, a :: as =>
    match S.move c a with
    | none => none
    | some (ev, c₁) => if ok c ev then play ok c₁ as else none

/-- The events of a list of choices, as long as each of them can be made. -/
def trace : Config Res St τ α → List (Choice Env τ) → List (Event Res Env τ)
  | _, [] => []
  | c, a :: as =>
    match S.move c a with
    | none => []
    | some (ev, c₁) => ev :: trace c₁ as

variable {S}

/-- A choice that can be made is a step. -/
theorem step_of_move {a : Choice Env τ} (h : S.move c a = some (ev, c₁)) : S.Step c ev c₁ := by
  cases a with
  | start t =>
    obtain ⟨rfl, rfl⟩ : _ ∧ _ := by simpa [move] using h
    exact .start c t
  | move i e =>
    simp only [move] at h
    split at h
    · rename_i t op k hi
      obtain ⟨rfl, rfl⟩ : _ ∧ _ := by simpa using h
      exact .did c i t e op k hi
    · exact absurd h (by simp)

/-- A step with a decidable property, found by making a choice. -/
theorem exists_step {p : Event Res Env τ × Config Res St τ α → Bool} (a : Choice Env τ)
    (h : (S.move c a).any p = true) : ∃ ev c', S.Step c ev c' ∧ p (ev, c') = true := by
  cases hm : S.move c a with
  | none => simp [hm] at h
  | some r => exact ⟨r.1, r.2, step_of_move hm, by simpa [hm] using h⟩

/-- **A schedule that plays is a run**, with the events of its choices. -/
theorem run_of_play {g : Config Res St τ α → Event Res Env τ → Bool} :
    ∀ {c : Config Res St τ α} {as : List (Choice Env τ)} {c' : Config Res St τ α},
      S.play g c as = some c' → S.Run (fun c ev => g c ev = true) c (S.trace c as) c'
  | c, [], c', h => by
    obtain rfl : c = c' := by simpa [play] using h
    exact .nil
  | c, a :: as, c', h => by
    simp only [play] at h
    split at h
    · exact absurd h (by simp)
    · rename_i ev c₁ hm
      split at h
      · rename_i hg
        simp only [trace, hm]
        exact (Run.single hg (step_of_move hm)).append (run_of_play h)
      · exact absurd h (by simp)

/-- A run to a configuration with a decidable property, found by playing a
schedule. -/
theorem exists_run {g : Config Res St τ α → Event Res Env τ → Bool}
    {p : Config Res St τ α → Bool} (as : List (Choice Env τ))
    (h : (S.play g c as).any p = true) :
    ∃ es c', S.Run (fun c ev => g c ev = true) c es c' ∧ p c' = true := by
  cases hp : S.play g c as with
  | none => simp [hp] at h
  | some c' => exact ⟨_, c', run_of_play hp, by simpa [hp] using h⟩

/-- A run with a decidable property of its events and its end, found by playing
a schedule. -/
theorem exists_trace {g : Config Res St τ α → Event Res Env τ → Bool}
    {p : List (Event Res Env τ) → Config Res St τ α → Bool} (as : List (Choice Env τ))
    (h : (S.play g c as).any (p (S.trace c as)) = true) :
    ∃ es c', S.Run (fun c ev => g c ev = true) c es c' ∧ p es c' = true := by
  cases hp : S.play g c as with
  | none => simp [hp] at h
  | some c' => exact ⟨_, c', run_of_play hp, by simpa [hp] using h⟩

end System

end Interleave
