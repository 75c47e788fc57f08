import Mathlib.Data.Nat.Notation

/-!
# Programs over atomic operations

A concurrent server is a set of threads that share a state and touch it only
through operations that are atomic, because each of them holds a lock for its
whole duration. `Interleave.Prog` is the syntax of one such thread: it either
has returned, or it is about to call an operation and knows how to go on with
the result. Nothing is said here about what the operations do; an interpreter
`exec` gives them a meaning, and the same program can be run alone
(`Interleave.Prog.run`) or in a pool of threads
(`Interleave.System` in the next module).

Sequential code is written with `do`: a call is `Prog.op`, and everything
between two calls is local to the thread and takes no step.
-/

namespace Interleave

/-- A thread over the operations `Op`, where the operation `op` answers with a
value of `Res op`: it has returned `a`, or it is about to call `op` and will go
on as `k r` when the answer is `r`. -/
inductive Prog {Op : Type} (Res : Op → Type) (α : Type) : Type where
  /-- The thread has returned. -/
  | ret (a : α) : Prog Res α
  /-- The thread is about to call `op`. -/
  | call (op : Op) (k : Res op → Prog Res α) : Prog Res α

namespace Prog

variable {Op : Type} {Res : Op → Type} {α β : Type}

/-- Sequencing: the operations of `p`, and then those of the thread its result
selects. -/
def bind : Prog Res α → (α → Prog Res β) → Prog Res β
  | .ret a, f => f a
  | .call op k, f => .call op fun r => (k r).bind f

instance : Monad (Prog Res) where
  pure := .ret
  bind := .bind

/-- The thread that calls one operation and returns its answer. -/
def op (o : Op) : Prog Res (Res o) := .call o .ret

@[simp] theorem pure_eq (a : α) : (pure a : Prog Res α) = .ret a := rfl

@[simp] theorem ret_bind (a : α) (f : α → Prog Res β) : (Prog.ret a >>= f) = f a := rfl

@[simp] theorem call_bind (o : Op) (k : Res o → Prog Res α) (f : α → Prog Res β) :
    (Prog.call o k >>= f) = .call o fun r => k r >>= f := rfl

@[simp] theorem op_bind (o : Op) (f : Res o → Prog Res β) :
    ((Prog.op o : Prog Res (Res o)) >>= f) = .call o f := rfl

/-- A thread that returns its result as it is. -/
theorem bind_ret (p : Prog Res α) : (p >>= fun a => .ret a) = p := by
  induction p with
  | ret a => rfl
  | call o k ih =>
    rw [call_bind]
    exact congrArg (Prog.call o) (funext ih)

@[simp] theorem ret_map (a : α) (f : α → β) : f <$> (Prog.ret a : Prog Res α) = .ret (f a) := rfl

@[simp] theorem call_map (o : Op) (k : Res o → Prog Res α) (f : α → β) :
    f <$> (Prog.call o k) = .call o fun r => f <$> k r := rfl

@[simp] theorem op_map (o : Op) (f : Res o → β) :
    f <$> (Prog.op o : Prog Res (Res o)) = .call o fun r => .ret (f r) := rfl

/-- A thread that is mapped and in front of an operation was in front of it
before. -/
theorem map_eq_call {p : Prog Res α} {f : α → β} {o : Op} {k : Res o → Prog Res β}
    (h : f <$> p = .call o k) : ∃ k', p = .call o k' ∧ k = fun r => f <$> k' r := by
  cases p with
  | ret a => cases h
  | call o' k' =>
    cases h
    exact ⟨k', rfl, rfl⟩

/-! ### What can be left of a program -/

/-- `Residual p q`: `q` is what is left of `p` after some of its operations, for
some answers to them. -/
inductive Residual : Prog Res α → Prog Res α → Prop
  /-- Nothing was performed yet. -/
  | refl (p : Prog Res α) : Residual p p
  /-- The first operation was performed, and some of those after it. -/
  | call {o : Op} {k : Res o → Prog Res α} {q : Prog Res α} (r : Res o)
      (h : Residual (k r) q) : Residual (.call o k) q

/-- Nothing is left of a program that has returned. -/
@[simp] theorem residual_ret {a : α} {q : Prog Res α} : Residual (.ret a) q ↔ q = .ret a := by
  constructor
  · intro h
    cases h
    rfl
  · rintro rfl
    exact .refl _

theorem residual_call {o : Op} {k : Res o → Prog Res α} {q : Prog Res α} :
    Residual (.call o k) q ↔ q = .call o k ∨ ∃ r, Residual (k r) q := by
  constructor
  · intro h
    cases h with
    | refl => exact Or.inl rfl
    | call r h => exact Or.inr ⟨r, h⟩
  · rintro (rfl | ⟨r, h⟩)
    · exact .refl _
    · exact .call r h

/-- One more operation is performed. -/
theorem Residual.snoc {p : Prog Res α} {o : Op} {k : Res o → Prog Res α}
    (h : Residual p (.call o k)) (r : Res o) : Residual p (k r) := by
  generalize hq : Prog.call o k = q at h
  induction h with
  | refl =>
    subst hq
    exact .call r (.refl _)
  | call r' _ ih => exact .call r' (ih hq)

/-! ### What a program can do -/

/-- Every operation the thread may perform, whatever the answers, satisfies
`q`. -/
def Only (q : Op → Prop) : Prog Res α → Prop
  | .ret _ => True
  | .call o k => q o ∧ ∀ r, (k r).Only q

section Only

variable {q q' : Op → Prop}

@[simp] theorem only_ret (a : α) : (Prog.ret a : Prog Res α).Only q := trivial

@[simp] theorem only_call {o : Op} {k : Res o → Prog Res α} :
    (Prog.call o k).Only q ↔ q o ∧ ∀ r, (k r).Only q := Iff.rfl

theorem Only.bind {p : Prog Res α} {f : α → Prog Res β} (hp : p.Only q) (hf : ∀ a, (f a).Only q) :
    (p >>= f).Only q := by
  induction p with
  | ret a => exact hf a
  | call o k ih => exact ⟨hp.1, fun r => ih r (hp.2 r)⟩

theorem Only.op_bind {o : Op} {f : Res o → Prog Res β} (ho : q o) (hf : ∀ r, (f r).Only q) :
    ((Prog.op o : Prog Res (Res o)) >>= f).Only q :=
  ⟨ho, hf⟩

@[simp] theorem only_map {p : Prog Res α} {f : α → β} : (f <$> p).Only q ↔ p.Only q := by
  induction p with
  | ret a => exact Iff.rfl
  | call o k ih => exact and_congr_right fun _ => forall_congr' ih

theorem Only.mono {p : Prog Res α} (hp : p.Only q) (h : ∀ o, q o → q' o) : p.Only q' := by
  induction p with
  | ret a => trivial
  | call o k ih => exact ⟨h o hp.1, fun r => ih r (hp.2 r)⟩

theorem Only.and {p : Prog Res α} (hp : p.Only q) (hp' : p.Only q') :
    p.Only fun o => q o ∧ q' o := by
  induction p with
  | ret a => trivial
  | call o k ih => exact ⟨⟨hp.1, hp'.1⟩, fun r => ih r (hp.2 r) (hp'.2 r)⟩

/-- What is left of a program can do no more than the program. -/
theorem Only.residual {p p' : Prog Res α} (hp : p.Only q) (h : p.Residual p') : p'.Only q := by
  induction h with
  | refl => exact hp
  | call r _ ih => exact ih (hp.2 r)

/-- The program may come to the operation, for some answers to those before it. -/
def Calls (p : Prog Res α) (o : Op) : Prop := ∃ k, p.Residual (.call o k)

@[simp] theorem not_calls_ret {a : α} {o : Op} : ¬ (Prog.ret a : Prog Res α).Calls o := by
  rintro ⟨k, h⟩
  cases h

theorem Only.of_calls {p : Prog Res α} (hp : p.Only q) {o : Op} (h : p.Calls o) : q o := by
  obtain ⟨k, hk⟩ := h
  exact (hp.residual hk).1

theorem calls_call {o o' : Op} {k : Res o → Prog Res α} :
    (Prog.call o k).Calls o' ↔ o = o' ∨ ∃ r, (k r).Calls o' := by
  constructor
  · rintro ⟨k', h⟩
    cases h with
    | refl => exact Or.inl rfl
    | call r h => exact Or.inr ⟨r, k', h⟩
  · rintro (rfl | ⟨r, k', h⟩)
    · exact ⟨k, .refl _⟩
    · exact ⟨k', .call r h⟩

end Only

/-! ### What a program can return -/

/-- Every value the thread may return, whatever the answers, satisfies `q`. -/
def Returns (q : α → Prop) : Prog Res α → Prop
  | .ret a => q a
  | .call _ k => ∀ r, (k r).Returns q

section Returns

variable {q : α → Prop} {q' : β → Prop}

@[simp] theorem returns_ret {a : α} : (Prog.ret a : Prog Res α).Returns q ↔ q a := Iff.rfl

@[simp] theorem returns_call {o : Op} {k : Res o → Prog Res α} :
    (Prog.call o k).Returns q ↔ ∀ r, (k r).Returns q := Iff.rfl

theorem Returns.bind {p : Prog Res α} {f : α → Prog Res β} (hp : p.Returns q)
    (hf : ∀ a, q a → (f a).Returns q') : (p >>= f).Returns q' := by
  induction p with
  | ret a => exact hf a hp
  | call o k ih => exact fun r => ih r (hp r)

theorem Returns.op_bind {o : Op} {f : Res o → Prog Res α} (hf : ∀ r, (f r).Returns q) :
    ((Prog.op o : Prog Res (Res o)) >>= f).Returns q := hf

@[simp] theorem returns_map {p : Prog Res α} {f : α → β} :
    (f <$> p).Returns q' ↔ p.Returns fun a => q' (f a) := by
  induction p with
  | ret a => exact Iff.rfl
  | call o k ih => exact forall_congr' ih

/-- What is left of a program can return no more than the program. -/
theorem Returns.residual {p p' : Prog Res α} (hp : p.Returns q) (h : p.Residual p') :
    p'.Returns q := by
  induction h with
  | refl => exact hp
  | call r _ ih => exact ih (hp r)

/-- Every program returns something. -/
theorem returns_true (p : Prog Res α) : p.Returns fun _ => True := by
  induction p with
  | ret a => trivial
  | call o k ih => exact ih

end Returns

/-! ### Programs of a component inside a larger system -/

/-- A thread over the operations of a component, seen as a thread over the
operations of a system that contains it: `inj` says which operation of the
system an operation of the component is, and `h` that it answers alike. -/
def embed {Op' : Type} {Res' : Op' → Type} (inj : Op → Op') (h : ∀ o, Res' (inj o) → Res o) :
    Prog Res α → Prog Res' α
  | .ret a => .ret a
  | .call o k => .call (inj o) fun r => (k (h o r)).embed inj h

/-! ### Running a program alone -/

variable {Env St : Type} (exec : Env → (o : Op) → St → Res o × St)

/-- The sequential meaning of a program: its operations one after the other,
with nothing in between. The `n`-th of them sees what the environment `e n`
offers (the clock, a random number, whether the disk answers). -/
def run : (ℕ → Env) → Prog Res α → St → α × St
  | _, .ret a, s => (a, s)
  | e, .call o k, s =>
      (k (exec (e 0) o s).1).run (fun n => e (n + 1)) (exec (e 0) o s).2

@[simp] theorem run_ret (e : ℕ → Env) (a : α) (s : St) :
    (Prog.ret a : Prog Res α).run exec e s = (a, s) := rfl

@[simp] theorem run_call (e : ℕ → Env) (o : Op) (k : Res o → Prog Res α) (s : St) :
    (Prog.call o k).run exec e s =
      (k (exec (e 0) o s).1).run exec (fun n => e (n + 1)) (exec (e 0) o s).2 := rfl

@[simp] theorem run_map (e : ℕ → Env) (p : Prog Res α) (f : α → β) (s : St) :
    (f <$> p).run exec e s = (f (p.run exec e s).1, (p.run exec e s).2) := by
  induction p generalizing e s with
  | ret a => rfl
  | call o k ih => exact ih _ _ _

/-- The operations a program performs when it runs alone, in their order. -/
def performed : (ℕ → Env) → Prog Res α → St → List Op
  | _, .ret _, _ => []
  | e, .call o k, s =>
      o :: (k (exec (e 0) o s).1).performed (fun n => e (n + 1)) (exec (e 0) o s).2

@[simp] theorem performed_ret (e : ℕ → Env) (a : α) (s : St) :
    (Prog.ret a : Prog Res α).performed exec e s = [] := rfl

@[simp] theorem performed_call (e : ℕ → Env) (o : Op) (k : Res o → Prog Res α) (s : St) :
    (Prog.call o k).performed exec e s =
      o :: (k (exec (e 0) o s).1).performed exec (fun n => e (n + 1)) (exec (e 0) o s).2 := rfl

variable {exec}

/-- **The rule for a program that runs alone**: what every operation the program may
perform preserves holds when it has returned. -/
theorem Only.run {q : Op → Prop} {J : St → Prop} {p : Prog Res α} (hp : p.Only q)
    (hop : ∀ e o s, q o → J s → J (exec e o s).2) {e : ℕ → Env} {s : St} (h : J s) :
    J (p.run exec e s).2 := by
  induction p generalizing e s with
  | ret a => exact h
  | call o k ih => exact ih _ (hp.2 _) (hop _ _ _ hp.1 h)

/-- Two meanings that agree on the operations of a program agree on the program. -/
theorem Only.run_eq {exec' : Env → (o : Op) → St → Res o × St} {q : Op → Prop} {p : Prog Res α}
    (hp : p.Only q) (h : ∀ e o s, q o → exec' e o s = exec e o s) (e : ℕ → Env) (s : St) :
    p.run exec' e s = p.run exec e s := by
  induction p generalizing e s with
  | ret a => rfl
  | call o k ih => rw [run_call, run_call, h _ _ _ hp.1, ih _ (hp.2 _)]

/-- A program that runs alone returns what it may return. -/
theorem Returns.run {q : α → Prop} {p : Prog Res α} (hp : p.Returns q)
    (exec : Env → (o : Op) → St → Res o × St) (e : ℕ → Env) (s : St) :
    q (p.run exec e s).1 := by
  induction p generalizing e s with
  | ret a => exact hp
  | call o k ih => exact ih _ (hp _) _ _

end Prog

end Interleave
