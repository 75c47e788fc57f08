import CertOS.Interleave.Run
import Mathlib.Algebra.BigOperators.Group.Finset.Basic
import Mathlib.Algebra.Order.BigOperators.Group.Finset
import Mathlib.Data.List.Forall2

/-!
# A server inside a larger system

A call to a server may be modelled as the handler of the server, run step by step on
the thread of the client that waits for the reply. The larger system then has no
server of its own: its threads perform the operations of the server here and there,
between operations that the server knows nothing of. `Interleave.Contains` says what
it takes for a system to contain a server in this way, and
`Interleave.Contains.Client` which programs use it properly, that is, which run every
handler they begin to its end.

Seen from the server, such a run is a run of the server alone
(`Interleave.Contains.run`): there is one thread of the server for every call, and the
same operations are performed in the same order with the same answers. So whatever
holds of every run of the server holds of the larger system, whoever its clients are
and whatever else they do.

The correspondence (`Interleave.Contains.Shadow`) tells for each thread of the system
which thread of the server it runs at the moment, if any.
-/

namespace Interleave

/-- The operation an event performed, with the environment and the answer. -/
def Event.step {Op : Type} {Res : Op → Type} {Env τ : Type} :
    Event Res Env τ → Option (Env × (op : Op) × Res op)
  | .start _ => none
  | .did _ _ e op r => some (e, ⟨op, r⟩)

/-- The same, with the task it was performed for. -/
def Event.act {Op : Type} {Res : Op → Type} {Env τ : Type} :
    Event Res Env τ → Option (τ × Env × (op : Op) × Res op)
  | .start _ => none
  | .did _ t e op r => some (t, e, ⟨op, r⟩)

theorem Event.step_eq {Op : Type} {Res : Op → Type} {Env τ : Type} (ev : Event Res Env τ) :
    ev.step = ev.act.map Prod.snd := by
  cases ev <;> rfl

namespace Prog

variable {Op : Type} {Res : Op → Type} {α β γ : Type}

theorem bind_assoc (p : Prog Res α) (f : α → Prog Res β) (g : β → Prog Res γ) :
    (p >>= f) >>= g = p >>= fun a => f a >>= g := by
  induction p with
  | ret a => rfl
  | call op k ih =>
    simp only [call_bind]
    exact congrArg (Prog.call op) (funext ih)

/-- What a program of a component can do inside a larger system. -/
theorem Only.embed {Op' : Type} {Res' : Op' → Type} {q : Op → Prop} {p : Prog Res α}
    (hp : p.Only q) {inj : Op → Op'} {h : ∀ o, Res' (inj o) → Res o} :
    (p.embed inj h).Only fun o' => ∃ o, o' = inj o ∧ q o := by
  induction p with
  | ret a => trivial
  | call op k ih => exact ⟨⟨op, rfl, hp.1⟩, fun r => ih _ (hp.2 _)⟩

/-- Every program performs operations. -/
theorem only_true (p : Prog Res α) : p.Only fun _ => True := by
  induction p with
  | ret a => trivial
  | call op k ih => exact ⟨trivial, ih⟩

theorem map_eq_bind (p : Prog Res α) (f : α → β) : f <$> p = p >>= fun a => .ret (f a) := by
  induction p with
  | ret a => rfl
  | call op k ih => exact congrArg (Prog.call op) (funext ih)

theorem map_map (p : Prog Res α) (f : α → β) (g : β → γ) :
    g <$> f <$> p = (fun a => g (f a)) <$> p := by
  induction p with
  | ret a => rfl
  | call op k ih => exact congrArg (Prog.call op) (funext ih)

theorem embed_map {Op' : Type} {Res' : Op' → Type} (p : Prog Res α) (f : α → β)
    (inj : Op → Op') (h : ∀ o, Res' (inj o) → Res o) :
    (f <$> p).embed inj h = f <$> p.embed inj h := by
  induction p with
  | ret a => rfl
  | call op k ih => exact congrArg (Prog.call (inj op)) (funext fun r => ih _)

theorem embed_bind {Op' : Type} {Res' : Op' → Type} (p : Prog Res α) (f : α → Prog Res β)
    (inj : Op → Op') (h : ∀ o, Res' (inj o) → Res o) :
    (p >>= f).embed inj h = p.embed inj h >>= fun a => (f a).embed inj h := by
  induction p with
  | ret a => rfl
  | call op k ih => exact congrArg (Prog.call (inj op)) (funext fun r => ih _)

theorem embed_embed {Op' Op'' : Type} {Res' : Op' → Type} {Res'' : Op'' → Type} (p : Prog Res α)
    (inj : Op → Op') (h : ∀ o, Res' (inj o) → Res o) (inj' : Op' → Op'')
    (h' : ∀ o, Res'' (inj' o) → Res' o) :
    (p.embed inj h).embed inj' h' =
      p.embed (fun o => inj' (inj o)) fun o r => h o (h' (inj o) r) := by
  induction p with
  | ret a => rfl
  | call op k ih => exact congrArg (Prog.call _) (funext fun r => ih _)

/-! ### Operations that are programs -/

variable {Op' : Type} {Res' : Op' → Type}

/-- The program in which each operation is replaced by a program that answers it. -/
def handle (h : ∀ o, Prog Res' (Res o)) : Prog Res α → Prog Res' α
  | .ret a => .ret a
  | .call o k => h o >>= fun r => (k r).handle h

theorem Only.handle {q : Op' → Prop} {h : ∀ o, Prog Res' (Res o)} {p : Prog Res α}
    (hp : ∀ o, p.Calls o → (h o).Only q) : (p.handle h).Only q := by
  induction p with
  | ret a => trivial
  | call o k ih =>
    refine Only.bind (hp o (calls_call.mpr (Or.inl rfl))) fun r => ih r fun o' ho' => ?_
    exact hp o' (calls_call.mpr (Or.inr ⟨r, ho'⟩))

/-- What a program returns does not depend on how its operations are answered. -/
theorem Returns.handle {q : α → Prop} {p : Prog Res α} (hp : p.Returns q)
    (h : ∀ o, Prog Res' (Res o)) : (p.handle h).Returns q := by
  induction p with
  | ret a => exact hp
  | call o k ih => exact (returns_true (h o)).bind fun r _ => ih r (hp r)

/-- An embedded program returns what the program returns. -/
theorem Returns.embed {q : α → Prop} {p : Prog Res α} (hp : p.Returns q) {inj : Op → Op'}
    {h : ∀ o, Res' (inj o) → Res o} : (p.embed inj h).Returns q := by
  induction p with
  | ret a => exact hp
  | call o k ih => exact fun r => ih _ (hp _)

end Prog

variable {Op Op' : Type} {Res : Op → Type} {Res' : Op' → Type} {Env Env' St St' τ τ' α α' : Type}

/-- **The system `T` contains the server `S`**: which operations of the system are those
of the server, what part of the state is the server's, and which calls the threads may
make. A task may also be a call by itself, as one that arrives from outside; where an
operation of the server starts threads, that of the system starts such calls. -/
structure Contains (S : System Res Env St τ α) (T : System Res' Env' St' τ' α') where
  /-- The operations of the server in the system. -/
  inj : Op → Op'
  /-- The answer to such an operation. -/
  ans : ∀ op, Res' (inj op) → Res op
  /-- What the server sees of an operation of the system. -/
  seen : (op' : Op') → Res' op' → Option ((op : Op) × Res op)
  /-- The state of the server. -/
  state : St' → St
  /-- The environment of the server. -/
  env : Env' → Env
  /-- The call that a task is, if it is one. -/
  opens : τ' → Option τ
  /-- The calls that a thread for a task may make. -/
  calls : τ' → τ → Prop
  seen_inj : ∀ op r, seen (inj op) r = some ⟨op, ans op r⟩
  seen_own : ∀ op' r, (∀ op, op' ≠ inj op) → seen op' r = none
  exec_inj : ∀ e op s, S.exec (env e) op (state s) =
    (ans op (T.exec e (inj op) s).1, state (T.exec e (inj op) s).2)
  exec_own : ∀ e op' s, (∀ op, op' ≠ inj op) → state (T.exec e op' s).2 = state s
  forks_inj : ∀ op r, List.Forall₂ (fun u' u => opens u' = some u) (T.forks (inj op) r)
    (S.forks op (ans op r))
  opens_forks : ∀ op' r, (∀ op, op' ≠ inj op) → ∀ u ∈ T.forks op' r, opens u = none

namespace Contains

variable {S : System Res Env St τ α} {T : System Res' Env' St' τ' α'} (C : Contains S T)

/-- The handler of a call, as it runs on the thread of the client. -/
def inline (p : Prog Res α) : Prog Res' α := p.embed C.inj C.ans

@[simp] theorem inline_ret (a : α) : C.inline (.ret a) = .ret a := rfl

@[simp] theorem inline_call (op : Op) (k : Res op → Prog Res α) :
    C.inline (.call op k) = .call (C.inj op) fun r => C.inline (k (C.ans op r)) := rfl

/-- **Proper use of the server**: operations of one's own, and handlers of calls that the
task may make, each run to its end. -/
inductive Client (t' : τ') : {β : Type} → Prog Res' β → Prop
  | ret {β : Type} (b : β) : Client t' (Prog.ret b)
  | own {β : Type} {op' : Op'} {k : Res' op' → Prog Res' β} (h : ∀ op, op' ≠ C.inj op)
      (hk : ∀ r, Client t' (k r)) : Client t' (.call op' k)
  | serve {β : Type} {t : τ} (ht : C.calls t' t) {k : α → Prog Res' β}
      (hk : ∀ a, Client t' (k a)) : Client t' (C.inline (S.body t) >>= k)

namespace Client

variable {C} {t' : τ'} {β γ : Type}

/-- A call with nothing after it. -/
theorem of_serve {t : τ} (ht : C.calls t' t) : C.Client t' (C.inline (S.body t)) := by
  rw [← Prog.bind_ret (C.inline (S.body t))]
  exact .serve ht fun a => .ret a

/-- Proper use in sequence. -/
theorem bind {p : Prog Res' β} {f : β → Prog Res' γ} (hp : C.Client t' p)
    (hf : ∀ b, C.Client t' (f b)) : C.Client t' (p >>= f) := by
  induction hp with
  | ret b => exact hf b
  | own h _ ih => exact .own h fun r => ih r
  | serve ht _ ih =>
    rw [Prog.bind_assoc]
    exact .serve ht fun a => ih a

theorem map {p : Prog Res' β} {f : β → γ} (hp : C.Client t' p) : C.Client t' (f <$> p) := by
  rw [Prog.map_eq_bind]
  exact hp.bind fun b => .ret _

/-- An operation of one's own. -/
theorem op_bind {op' : Op'} {f : Res' op' → Prog Res' β} (h : ∀ op, op' ≠ C.inj op)
    (hf : ∀ r, C.Client t' (f r)) : C.Client t' ((Prog.op op' : Prog Res' (Res' op')) >>= f) :=
  .own h hf

/-- A program that knows nothing of the server. -/
theorem of_only {p : Prog Res' β} (hp : p.Only fun op' => ∀ op, op' ≠ C.inj op) :
    C.Client t' p := by
  induction p with
  | ret b => exact .ret b
  | call op' k ih => exact .own hp.1 fun r => ih r (hp.2 r)

/-- A program whose operations are proper uses. -/
theorem handle {Op₀ : Type} {Res₀ : Op₀ → Type} {h : ∀ o, Prog Res' (Res₀ o)} {p : Prog Res₀ β}
    (hp : ∀ o, p.Calls o → C.Client t' (h o)) : C.Client t' (p.handle h) := by
  induction p with
  | ret b => exact .ret b
  | call o k ih =>
    refine bind (hp o (Prog.calls_call.mpr (Or.inl rfl))) fun r => ih r fun o' ho' => ?_
    exact hp o' (Prog.calls_call.mpr (Or.inr ⟨r, ho'⟩))

/-- **The next operation** of a proper use is one of its own, or the first of a call. -/
theorem call_inv {op' : Op'} {k : Res' op' → Prog Res' β} (h : C.Client t' (.call op' k)) :
    ((∀ op, op' ≠ C.inj op) ∧ ∀ r, C.Client t' (k r)) ∨
      ∃ t op q f, C.calls t' t ∧ S.body t = .call op q ∧ (∀ a, C.Client t' (f a)) ∧
        Prog.call op' k = C.inline (.call op q) >>= f := by
  generalize hp : Prog.call op' k = p at h
  induction h with
  | ret b => cases hp
  | own h hk =>
    cases hp
    exact Or.inl ⟨h, hk⟩
  | @serve t ht f hf ih =>
    -- a handler that returns at once leaves the rest to what follows it
    cases hbody : S.body t with
    | ret a =>
      rw [hbody] at hp
      exact ih a hp
    | call op q =>
      rw [hbody] at hp
      exact Or.inr ⟨t, op, q, f, ht, hbody, hf, rfl⟩

/-- **Proper use inside a system that is larger still**: a program that uses a server properly
also does so as a part of another system, which contains another server, if the calls come
to the same. -/
theorem embed {Op₂ Op'' : Type} {Res₂ : Op₂ → Type} {Res'' : Op'' → Type}
    {Env₂ Env'' St₂ St'' τ₂ τ'' α'' : Type} {S₂ : System Res₂ Env₂ St₂ τ₂ α}
    {U : System Res'' Env'' St'' τ'' α''} (D : Contains S₂ U) {inj : Op' → Op''}
    {ans : ∀ op, Res'' (inj op) → Res' op} {t'' : τ''} {p : Prog Res' β}
    (hp : C.Client t' p)
    (hown : ∀ op', (∀ op, op' ≠ C.inj op) → ∀ op, inj op' ≠ D.inj op)
    (hserve : ∀ t, C.calls t' t → ∃ u, D.calls t'' u ∧
      (C.inline (S.body t)).embed inj ans = D.inline (S₂.body u)) :
    D.Client t'' (p.embed inj ans) := by
  induction hp with
  | ret b => exact .ret b
  | own h _ ih => exact .own (hown _ h) fun r => ih _
  | serve ht _ ih =>
    obtain ⟨u, hu, heq⟩ := hserve _ ht
    rw [Prog.embed_bind, heq]
    exact .serve hu ih

end Client

/-! ### The correspondence -/

/-- The calls a thread may run: that which its task is, and those it may make. -/
def Serves (t' : τ') (t : τ) : Prop := C.opens t' = some t ∨ C.calls t' t

/-- The thread runs the rest `q` of a handler, and uses the server properly after it. -/
def Inside (t' : τ') (p : Prog Res' α') (q : Prog Res α) : Prop :=
  ∃ f : α → Prog Res' α', p = C.inline q >>= f ∧ ∀ a, C.Client t' (f a)

/-- **The configuration of the server that goes with one of the system**: thread `i` of
the system runs thread `m i` of the server, or none at the moment; every thread of the
server that has not returned is run by some thread, and every one at all was started for
a call of some thread. -/
structure Shadow (c : Config Res' St' τ' α') (d : Config Res St τ α) (m : ℕ → Option ℕ) :
    Prop where
  state : d.state = C.state c.state
  idle : ∀ i t' p, c.threads[i]? = some ⟨t', p⟩ → m i = none → C.Client t' p
  inside : ∀ i j, m i = some j → ∃ t' p t q, c.threads[i]? = some ⟨t', p⟩ ∧
    d.threads[j]? = some ⟨t, q⟩ ∧ C.Serves t' t ∧ C.Inside t' p q
  distinct : ∀ i k j, m i = some j → m k = some j → i = k
  covered : ∀ j t op q, d.threads[j]? = some ⟨t, .call op q⟩ → ∃ i, m i = some j
  served : ∀ th ∈ d.threads, ∃ th' ∈ c.threads, C.Serves th'.task th.task

/-- Every thread of the server under way belongs to a thread of the system under way, which
stands in front of the same operation. -/
def Covered (c : Config Res' St' τ' α') (d : Config Res St τ α) : Prop :=
  ∀ t op q, ⟨t, .call op q⟩ ∈ d.threads →
    ∃ t' k, ⟨t', .call (C.inj op) k⟩ ∈ c.threads ∧ C.Serves t' t

/-- The conditions on the programs: a task that is a call runs its handler first, and
apart from that the threads use the server properly. -/
structure Proper : Prop where
  opened : ∀ t' t, C.opens t' = some t → C.Inside t' (T.body t') (S.body t)
  other : ∀ t', C.opens t' = none → C.Client t' (T.body t')

/-- The conditions on the runs: the guard of the system implies that of the server. -/
structure Guards (ok' : Config Res' St' τ' α' → Event Res' Env' τ' → Prop)
    (ok : Config Res St τ α → Event Res Env τ → Prop) : Prop where
  opened : ∀ c d t' t, C.Covered c d → C.opens t' = some t → ok' c (.start t') → ok d (.start t)
  called : ∀ d t' t, C.calls t' t → ok d (.start t)
  did : ∀ c d i j t' t e op r, d.state = C.state c.state → C.Covered c d →
    ok' c (.did i t' e (C.inj op) r) → ok d (.did j t (C.env e) op (C.ans op r))

variable {C} in
/-- Two conditions on the runs at once. -/
theorem Guards.and {ok₁' ok₂' : Config Res' St' τ' α' → Event Res' Env' τ' → Prop}
    {ok₁ ok₂ : Config Res St τ α → Event Res Env τ → Prop} (h₁ : C.Guards ok₁' ok₁)
    (h₂ : C.Guards ok₂' ok₂) :
    C.Guards (fun c ev => ok₁' c ev ∧ ok₂' c ev) (fun d ev => ok₁ d ev ∧ ok₂ d ev) where
  opened c d t' t hcov ho hok :=
    ⟨h₁.opened c d t' t hcov ho hok.1, h₂.opened c d t' t hcov ho hok.2⟩
  called d t' t hc := ⟨h₁.called d t' t hc, h₂.called d t' t hc⟩
  did c d i j t' t e op r hs hcov hok :=
    ⟨h₁.did c d i j t' t e op r hs hcov hok.1, h₂.did c d i j t' t e op r hs hcov hok.2⟩

/-- What the server sees of an event. -/
def seenEvent : Event Res' Env' τ' → Option (Env × (op : Op) × Res op)
  | .start _ => none
  | .did _ _ e op' r => (C.seen op' r).map fun a => (C.env e, a)

/-- The same, with the task of the system. -/
def seenAct : Event Res' Env' τ' → Option (τ' × Env × (op : Op) × Res op)
  | .start _ => none
  | .did _ t' e op' r => (C.seen op' r).map fun a => (t', C.env e, a)

/-- The two are the same step, and the one was performed for a call of the other. -/
def Same (x : τ × Env × (op : Op) × Res op) (y : τ' × Env × (op : Op) × Res op) : Prop :=
  C.Serves y.1 x.1 ∧ x.2 = y.2

theorem seenEvent_eq (ev : Event Res' Env' τ') : C.seenEvent ev = (C.seenAct ev).map Prod.snd := by
  cases ev with
  | start t => rfl
  | did i t e op r =>
    rw [seenAct, Option.map_map]
    rfl

variable {C} in
/-- The server performs what it sees of the system. -/
theorem steps_of_same {es : List (Event Res Env τ)} {es' : List (Event Res' Env' τ')}
    (h : List.Forall₂ C.Same (es.filterMap Event.act) (es'.filterMap C.seenAct)) :
    es.filterMap Event.step = es'.filterMap C.seenEvent := by
  have hleft : es.filterMap Event.step = (es.filterMap Event.act).map Prod.snd := by
    rw [List.map_filterMap]
    exact List.filterMap_congr fun ev _ => ev.step_eq
  have hright : es'.filterMap C.seenEvent = (es'.filterMap C.seenAct).map Prod.snd := by
    rw [List.map_filterMap]
    exact List.filterMap_congr fun ev _ => C.seenEvent_eq ev
  rw [hleft, hright]
  generalize es.filterMap Event.act = xs at h
  generalize es'.filterMap C.seenAct = ys at h
  induction h with
  | nil => rfl
  | cons hxy _ ih => rw [List.map_cons, List.map_cons, hxy.2, ih]

variable {C} in
/-- **What the server did, the system did**, and what the server did before that, the system
did before it. -/
theorem split_of_same {before after : List (Event Res Env τ)} {ev : Event Res Env τ}
    {es : List (Event Res' Env' τ')} {x : τ × Env × (op : Op) × Res op}
    (h : List.Forall₂ C.Same ((before ++ ev :: after).filterMap Event.act)
      (es.filterMap C.seenAct)) (hx : ev.act = some x) :
    ∃ before' ev' after' y, es = before' ++ ev' :: after' ∧ C.seenAct ev' = some y ∧
      C.Same x y ∧
      List.Forall₂ C.Same (before.filterMap Event.act) (before'.filterMap C.seenAct) := by
  rw [List.filterMap_append, List.filterMap_cons_some hx] at h
  have hright := List.forall₂_drop_append _ _ _ h.flip
  have hleft := List.forall₂_take_append _ _ _ h.flip
  generalize hn : (before.filterMap Event.act).length = n at hright hleft
  obtain ⟨y, ys, hxy, -, hdrop⟩ := List.forall₂_cons_right_iff.mp hright
  have hes := List.take_append_drop n (es.filterMap C.seenAct)
  rw [hdrop] at hes
  obtain ⟨es₁, es₂, rfl, htake, hrest⟩ := List.filterMap_eq_append_iff.mp hes.symm
  obtain ⟨skipped, ev', after', rfl, hskipped, hy, -⟩ := List.filterMap_eq_cons_iff.mp hrest
  refine ⟨es₁ ++ skipped, ev', after', y, (List.append_assoc _ _ _).symm, hy, hxy, ?_⟩
  rw [List.filterMap_append, List.filterMap_eq_nil_iff.mpr hskipped, List.append_nil, htake]
  exact hleft.flip

namespace Shadow

variable {C} {c : Config Res' St' τ' α'} {d : Config Res St τ α} {m : ℕ → Option ℕ}

theorem isCovered (h : C.Shadow c d m) : C.Covered c d := by
  intro t op q hth
  obtain ⟨j, hj⟩ := List.getElem?_of_mem hth
  obtain ⟨i, hi⟩ := h.covered j t op q hj
  obtain ⟨t', p, t₁, q₁, hi', hj', hserves, f, rfl, -⟩ := h.inside i j hi
  rw [hj] at hj'
  cases hj'
  exact ⟨t', _, List.mem_of_getElem? hi', hserves⟩

/-- A thread that is somewhere is a thread. -/
theorem lt_length (h : C.Shadow c d m) {i j : ℕ} (hi : m i = some j) :
    i < c.threads.length ∧ j < d.threads.length := by
  obtain ⟨t', p, t, q, hi', hj', -⟩ := h.inside i j hi
  exact ⟨(List.getElem?_eq_some_iff.mp hi').1, (List.getElem?_eq_some_iff.mp hj').1⟩

/-- A thread that moves keeps its task. -/
theorem exists_task_set {Op : Type} {Res : Op → Type} {τ α : Type} {l : List (Thread Res τ α)}
    {i : ℕ} {t : τ} {p : Prog Res α} (hi : l[i]? = some ⟨t, p⟩) (p' : Prog Res α)
    {th : Thread Res τ α} (hth : th ∈ l) : ∃ th' ∈ l.set i ⟨t, p'⟩, th'.task = th.task := by
  obtain ⟨k, hk⟩ := List.getElem?_of_mem hth
  have hlt : i < l.length := (List.getElem?_eq_some_iff.mp hi).1
  by_cases hki : k = i
  · subst hki
    rw [hi] at hk
    cases hk
    exact ⟨_, List.mem_of_getElem? (List.getElem?_set_self hlt), rfl⟩
  · refine ⟨th, List.mem_of_getElem? (i := k) ?_, rfl⟩
    rw [List.getElem?_set_ne (Ne.symm hki), hk]

/-- A thread of the system is started that is no call. -/
theorem start (h : C.Shadow c d m) {t' : τ'} (hc : C.Client t' (T.body t')) :
    C.Shadow ⟨c.state, c.threads ++ [T.spawn t']⟩ d m where
  state := h.state
  idle i u p hi hm := by
    rcases System.getElem?_start hi with hi | ⟨-, hth⟩
    · exact h.idle i u p hi hm
    · cases hth
      exact hc
  inside i j hm := by
    obtain ⟨u, p, t, q, hi, hj, hrest⟩ := h.inside i j hm
    exact ⟨u, p, t, q, System.getElem?_start_of_some hi, hj, hrest⟩
  distinct := h.distinct
  covered := h.covered
  served th hth := by
    obtain ⟨th', hth', hs⟩ := h.served th hth
    exact ⟨th', List.mem_append_left _ hth', hs⟩

/-- Threads of the system are started that are no calls. -/
theorem starts (hC : C.Proper) {us : List τ'} (hus : ∀ u ∈ us, C.opens u = none) :
    ∀ {c : Config Res' St' τ' α'}, C.Shadow c d m →
      C.Shadow ⟨c.state, c.threads ++ us.map T.spawn⟩ d m := by
  induction us with
  | nil =>
    intro c h
    simpa using h
  | cons u us ih =>
    intro c h
    have hrest := ih (fun v hv => hus v (List.mem_cons_of_mem _ hv))
      (h.start (hC.other u (hus u List.mem_cons_self)))
    simpa using hrest

/-- A thread of the server is started for thread `i` of the system, which runs no other that
is under way. The configuration `c₀` is the one before, in which thread `i` may not have
been there. -/
theorem enter {c₀ : Config Res' St' τ' α'} (h : C.Shadow c₀ d m) {i : ℕ} {t' : τ'} {t : τ}
    {p : Prog Res' α'} (hstate : c.state = c₀.state)
    (hother : ∀ k, k ≠ i → c.threads[k]? = c₀.threads[k]?)
    (htask : ∀ th, c₀.threads[i]? = some th → th.task = t')
    (hi : c.threads[i]? = some ⟨t', p⟩) (ht : C.Serves t' t) (hin : C.Inside t' p (S.body t))
    (hm : ∀ j t₁ op q, m i = some j → d.threads[j]? ≠ some ⟨t₁, .call op q⟩) :
    C.Shadow c ⟨d.state, d.threads ++ [S.spawn t]⟩
      (Function.update m i (some d.threads.length)) where
  state := by rw [hstate, ← h.state]
  idle k u p' hk hmk := by
    have hki : k ≠ i := by
      rintro rfl
      simp at hmk
    rw [Function.update_of_ne hki] at hmk
    exact h.idle k u p' (hother k hki ▸ hk) hmk
  inside k j hmk := by
    by_cases hki : k = i
    · subst hki
      obtain rfl : d.threads.length = j := by simpa using hmk
      exact ⟨t', p, t, S.body t, hi, by simp [System.spawn], ht, hin⟩
    · rw [Function.update_of_ne hki] at hmk
      obtain ⟨u, p', t₁, q, hk, hj, hrest⟩ := h.inside k j hmk
      exact ⟨u, p', t₁, q, (hother k hki).symm ▸ hk, System.getElem?_start_of_some hj, hrest⟩
  distinct k l j hk hl := by
    -- the new thread of the server is run by no other thread
    have hold (x : ℕ) (hx : x ≠ i)
        (hmx : Function.update m i (some d.threads.length) x = some j) :
        m x = some j ∧ j < d.threads.length := by
      rw [Function.update_of_ne hx] at hmx
      exact ⟨hmx, (h.lt_length hmx).2⟩
    by_cases hki : k = i
    · subst hki
      obtain rfl : d.threads.length = j := by simpa using hk
      by_contra hne
      have hlt := (hold l (Ne.symm hne) hl).2
      omega
    · obtain ⟨hk', hlt⟩ := hold k hki hk
      by_cases hli : l = i
      · subst hli
        obtain rfl : d.threads.length = j := by simpa using hl
        omega
      · exact h.distinct k l j hk' (hold l hli hl).1
  covered j t₁ op q hj := by
    rcases System.getElem?_start hj with hj | ⟨rfl, -⟩
    · obtain ⟨k, hk⟩ := h.covered j t₁ op q hj
      have hki : k ≠ i := by
        rintro rfl
        exact hm j t₁ op q hk hj
      exact ⟨k, by rwa [Function.update_of_ne hki]⟩
    · exact ⟨i, by simp⟩
  served th hth := by
    have hmem : (⟨t', p⟩ : Thread Res' τ' α') ∈ c.threads := List.mem_of_getElem? hi
    rcases List.mem_append.mp hth with hth | hth
    · obtain ⟨th', hth', hs⟩ := h.served th hth
      obtain ⟨k, hk⟩ := List.getElem?_of_mem hth'
      by_cases hki : k = i
      · subst hki
        exact ⟨_, hmem, htask th' hk ▸ hs⟩
      · exact ⟨th', List.mem_of_getElem? ((hother k hki).trans hk), hs⟩
    · obtain rfl := List.mem_singleton.mp hth
      exact ⟨_, hmem, ht⟩

/-- A task of the server is started in the system, and so it is in the server. -/
theorem opened (hC : C.Proper) (h : C.Shadow c d m) {t' : τ'} {t : τ} (ho : C.opens t' = some t) :
    C.Shadow ⟨c.state, c.threads ++ [T.spawn t']⟩ ⟨d.state, d.threads ++ [S.spawn t]⟩
      (Function.update m c.threads.length (some d.threads.length)) := by
  refine h.enter (i := c.threads.length) rfl (fun k hk => ?_) (fun th hth => ?_)
    (by simp [System.spawn]) (Or.inl ho) (hC.opened t' t ho) fun j _ _ _ hj => ?_
  · rcases Nat.lt_or_ge k c.threads.length with hlt | hge
    · exact List.getElem?_append_left hlt
    · rw [List.getElem?_eq_none hge, List.getElem?_eq_none]
      simp only [List.length_append, List.length_singleton]
      omega
  · exact absurd (List.getElem?_eq_some_iff.mp hth).1 (Nat.lt_irrefl _)
  · exact absurd (h.lt_length hj).1 (Nat.lt_irrefl _)

/-- Tasks of the server are started in the system. -/
theorem openedAll (hC : C.Proper) {us' : List τ'} {us : List τ}
    (hus : List.Forall₂ (fun u' u => C.opens u' = some u) us' us) :
    ∀ {c : Config Res' St' τ' α'} {d : Config Res St τ α} {m : ℕ → Option ℕ}, C.Shadow c d m →
      ∃ m', C.Shadow ⟨c.state, c.threads ++ us'.map T.spawn⟩
        ⟨d.state, d.threads ++ us.map S.spawn⟩ m' := by
  induction hus with
  | nil =>
    intro c d m h
    exact ⟨m, by simpa using h⟩
  | cons ho _ ih =>
    intro c d m h
    obtain ⟨m', h'⟩ := ih (h.opened hC ho)
    exact ⟨m', by simpa using h'⟩

/-- A thread of the system performs an operation of its own, and runs no thread of the
server that is under way. -/
theorem own (h : C.Shadow c d m) {i : ℕ} {t' : τ'} {op' : Op'} {k : Res' op' → Prog Res' α'}
    (hi : c.threads[i]? = some ⟨t', .call op' k⟩) (hown : ∀ op, op' ≠ C.inj op) (e : Env')
    (hk : C.Client t' (k (T.exec e op' c.state).1))
    (hm : ∀ j t₁ op q, m i = some j → d.threads[j]? ≠ some ⟨t₁, .call op q⟩) :
    C.Shadow ⟨(T.exec e op' c.state).2, c.threads.set i ⟨t', k (T.exec e op' c.state).1⟩⟩ d
      (Function.update m i none) where
  state := h.state.trans (C.exec_own e op' c.state hown).symm
  idle l u p hl hml := by
    rcases System.getElem?_set_inv hl with ⟨-, hth⟩ | ⟨hne, hl⟩
    · cases hth
      exact hk
    · rw [Function.update_of_ne hne] at hml
      exact h.idle l u p hl hml
  inside l j hml := by
    have hne : l ≠ i := by
      rintro rfl
      simp at hml
    rw [Function.update_of_ne hne] at hml
    obtain ⟨u, p, t, q, hl, hrest⟩ := h.inside l j hml
    exact ⟨u, p, t, q, by rw [List.getElem?_set_ne (Ne.symm hne), hl], hrest⟩
  distinct l l' j hl hl' := by
    have hne {x : ℕ} (hx : Function.update m i none x = some j) : x ≠ i := by
      rintro rfl
      simp at hx
    have hl₁ := hl
    have hl₁' := hl'
    rw [Function.update_of_ne (hne hl)] at hl₁
    rw [Function.update_of_ne (hne hl')] at hl₁'
    exact h.distinct l l' j hl₁ hl₁'
  covered j t₁ op q hj := by
    obtain ⟨l, hl⟩ := h.covered j t₁ op q hj
    have hne : l ≠ i := by
      rintro rfl
      exact hm j t₁ op q hl hj
    exact ⟨l, by rwa [Function.update_of_ne hne]⟩
  served th hth := by
    obtain ⟨u, hu, hs⟩ := h.served th hth
    obtain ⟨u', hu', heq⟩ := exists_task_set hi (k (T.exec e op' c.state).1) hu
    exact ⟨u', hu', heq ▸ hs⟩

/-- A thread of the system performs the next operation of the thread of the server that it
runs; the threads that this starts are not there yet. -/
theorem advance (h : C.Shadow c d m) {i j : ℕ} {t' : τ'} {t : τ} {op : Op}
    {k : Res' (C.inj op) → Prog Res' α'} {q : Res op → Prog Res α} {f : α → Prog Res' α'}
    (hi : c.threads[i]? = some ⟨t', .call (C.inj op) k⟩) (hm : m i = some j)
    (hj : d.threads[j]? = some ⟨t, .call op q⟩)
    (hk : ∀ r, k r = C.inline (q (C.ans op r)) >>= f) (hf : ∀ a, C.Client t' (f a)) (e : Env') :
    C.Shadow
      ⟨(T.exec e (C.inj op) c.state).2,
        c.threads.set i ⟨t', k (T.exec e (C.inj op) c.state).1⟩⟩
      ⟨(S.exec (C.env e) op d.state).2,
        d.threads.set j ⟨t, q (S.exec (C.env e) op d.state).1⟩⟩ m := by
  have hexec := C.exec_inj e op c.state
  rw [← h.state] at hexec
  have hans : (S.exec (C.env e) op d.state).1 = C.ans op (T.exec e (C.inj op) c.state).1 := by
    rw [hexec]
  refine ⟨?_, fun l u p hl hml => ?_, fun l j' hml => ?_, h.distinct, fun j' t₁ op₁ q₁ hj' => ?_,
    fun th hth => ?_⟩
  · rw [hexec]
  · rcases System.getElem?_set_inv hl with ⟨rfl, -⟩ | ⟨-, hl⟩
    · rw [hm] at hml
      cases hml
    · exact h.idle l u p hl hml
  · obtain ⟨u, p, t₁, q₁, hl, hj', hserves, hin⟩ := h.inside l j' hml
    by_cases hli : l = i
    · subst hli
      obtain rfl : j = j' := Option.some.inj (hm.symm.trans hml)
      rw [hi] at hl
      rw [hj] at hj'
      cases hl
      cases hj'
      have hlt := h.lt_length hm
      refine ⟨t', _, t, _, List.getElem?_set_self hlt.1, List.getElem?_set_self hlt.2, hserves, f,
        ?_, hf⟩
      rw [hk, hans]
    · have hjj : j ≠ j' := by
        rintro rfl
        exact hli (h.distinct l i j hml hm)
      exact ⟨u, p, t₁, q₁, by rw [List.getElem?_set_ne (Ne.symm hli), hl],
        by rw [List.getElem?_set_ne hjj, hj'], hserves, hin⟩
  · rcases System.getElem?_set_inv hj' with ⟨rfl, -⟩ | ⟨-, hj'⟩
    · exact ⟨i, hm⟩
    · exact h.covered j' t₁ op₁ q₁ hj'
  · -- the task of the thread of the server is that of one there was before
    obtain ⟨th₀, hth₀, heq₀⟩ : ∃ th₀ ∈ d.threads, th₀.task = th.task := by
      rcases List.mem_or_eq_of_mem_set hth with hth | rfl
      · exact ⟨th, hth, rfl⟩
      · exact ⟨_, List.mem_of_getElem? hj, rfl⟩
    obtain ⟨u, hu, hs⟩ := h.served th₀ hth₀
    obtain ⟨u', hu', heq⟩ := exists_task_set hi (k (T.exec e (C.inj op) c.state).1) hu
    exact ⟨u', hu', heq ▸ heq₀ ▸ hs⟩

end Shadow

/-! ### The simulation -/

variable {C} {ok' : Config Res' St' τ' α' → Event Res' Env' τ' → Prop}
  {ok : Config Res St τ α → Event Res Env τ → Prop} {c c' : Config Res' St' τ' α'}
  {d : Config Res St τ α} {m : ℕ → Option ℕ} {ev : Event Res' Env' τ'}

/-- What a step of the system is for the server: some steps of its own, in which the
operation that it sees, if any, is performed. -/
def Matched (C : Contains S T) (ok : Config Res St τ α → Event Res Env τ → Prop)
    (d : Config Res St τ α) (ev : Event Res' Env' τ') (c' : Config Res' St' τ' α') : Prop :=
  ∃ es d' m', S.Run ok d es d' ∧ C.Shadow c' d' m' ∧
    List.Forall₂ C.Same (es.filterMap Event.act) (C.seenAct ev).toList

/-- A task is started. -/
theorem Shadow.matched_start (hC : C.Proper) (g : C.Guards ok' ok) (h : C.Shadow c d m) {t' : τ'}
    (hok : ok' c (.start t')) :
    C.Matched ok d (.start t') ⟨c.state, c.threads ++ [T.spawn t']⟩ := by
  cases ho : C.opens t' with
  | none => exact ⟨[], d, m, .nil, h.start (hC.other t' ho), .nil⟩
  | some t =>
    exact ⟨[.start t], _, _, .single (g.opened c d t' t h.isCovered ho hok) (.start d t),
      h.opened hC ho, .nil⟩

/-- A thread that runs a handler performs the next operation of it. -/
theorem Shadow.matched_inside (hC : C.Proper) (g : C.Guards ok' ok) (h : C.Shadow c d m)
    {i j : ℕ} {t' : τ'} {t : τ} {e : Env'} {op : Op} {k : Res' (C.inj op) → Prog Res' α'}
    {q : Res op → Prog Res α} {f : α → Prog Res' α'}
    (hi : c.threads[i]? = some ⟨t', .call (C.inj op) k⟩)
    (hm : m i = some j) (hj : d.threads[j]? = some ⟨t, .call op q⟩) (hserves : C.Serves t' t)
    (hk : ∀ r, k r = C.inline (q (C.ans op r)) >>= f) (hf : ∀ a, C.Client t' (f a))
    (hok : ok' c (.did i t' e (C.inj op) (T.exec e (C.inj op) c.state).1)) :
    C.Matched ok d (.did i t' e (C.inj op) (T.exec e (C.inj op) c.state).1)
      (T.after c i t' e (C.inj op) k) := by
  have hans : (S.exec (C.env e) op d.state).1 = C.ans op (T.exec e (C.inj op) c.state).1 := by
    rw [h.state, C.exec_inj]
  have hguard := g.did c d i j t' t e op _ h.state h.isCovered hok
  rw [← hans] at hguard
  have hforks := C.forks_inj op (T.exec e (C.inj op) c.state).1
  rw [← hans] at hforks
  obtain ⟨m', hshadow⟩ := (h.advance hi hm hj hk hf e).openedAll hC hforks
  refine ⟨_, _, m', .single hguard (.did d j t (C.env e) op q hj), hshadow, ?_⟩
  simp [Event.act, seenAct, C.seen_inj, hans, Same, hserves]

/-- A thread that runs no handler under way performs its next operation. -/
theorem Shadow.matched_client (hC : C.Proper) (g : C.Guards ok' ok) (h : C.Shadow c d m) {i : ℕ}
    {t' : τ'} {e : Env'} {op' : Op'} {k : Res' op' → Prog Res' α'}
    (hi : c.threads[i]? = some ⟨t', .call op' k⟩) (hc : C.Client t' (.call op' k))
    (hm : ∀ j t₁ op q, m i = some j → d.threads[j]? ≠ some ⟨t₁, .call op q⟩)
    (hok : ok' c (.did i t' e op' (T.exec e op' c.state).1)) :
    C.Matched ok d (.did i t' e op' (T.exec e op' c.state).1) (T.after c i t' e op' k) := by
  rcases hc.call_inv with ⟨hown, hk⟩ | ⟨t, op, q, f, ht, hbody, hf, hp⟩
  · refine ⟨[], d, _, .nil, (h.own hi hown e (hk _) hm).starts hC (C.opens_forks op' _ hown), ?_⟩
    simp [seenAct, C.seen_own op' _ hown]
  · -- the first operation of a call: the server starts a thread for it
    cases hp
    have hin : C.Inside t' (.call (C.inj op) fun r => C.inline (q (C.ans op r)) >>= f)
        (S.body t) := ⟨f, by rw [hbody]; rfl, hf⟩
    have htask (th : Thread Res' τ' α') (hth : c.threads[i]? = some th) : th.task = t' := by
      rw [hi] at hth
      cases hth
      rfl
    have henter := h.enter rfl (fun _ _ => rfl) htask hi (Or.inr ht) hin hm
    have hlast : (d.threads ++ [S.spawn t])[d.threads.length]? = some ⟨t, .call op q⟩ := by
      simp [System.spawn, hbody]
    obtain ⟨es, d', m', hrun, hshadow, hes⟩ := henter.matched_inside hC g hi (by simp) hlast
      (Or.inr ht) (fun r => rfl) hf hok
    refine ⟨[.start t] ++ es, d', m', ?_, hshadow, hes⟩
    exact (System.Run.single (g.called d t' t ht) (.start d t)).append hrun

/-- **A step of the system is matched by the server.** -/
theorem Shadow.step (hC : C.Proper) (g : C.Guards ok' ok) (h : C.Shadow c d m) (hok : ok' c ev)
    (hs : T.Step c ev c') : C.Matched ok d ev c' := by
  cases hs with
  | start t' => exact h.matched_start hC g hok
  | did i t' e op' k hi =>
    cases hm : m i with
    | none => exact h.matched_client hC g hi (h.idle i t' _ hi hm) (by simp [hm]) hok
    | some j =>
      obtain ⟨u, p, t, q, hi', hj, hserves, f, hp, hf⟩ := h.inside i j hm
      rw [hi] at hi'
      cases hi'
      cases q with
      | ret a =>
        -- the handler is over, and the thread goes on with what follows it
        have hc : C.Client t' (.call op' k) := by
          rw [hp]
          exact hf a
        refine h.matched_client hC g hi hc (fun j' t₁ op q hj' hcall => ?_) hok
        obtain rfl : j = j' := Option.some.inj (hm.symm.trans hj')
        rw [hj] at hcall
        cases hcall
      | call op q =>
        cases hp
        exact h.matched_inside hC g hi hm hj hserves (fun r => rfl) hf hok

/-- **The server inside the system**: what a run of the system is for the server is a run
of the server alone, to the same state, with the same operations, environments and
answers in the same order; and the threads of the server are for calls of the threads of
the system. -/
theorem run (hC : C.Proper) (g : C.Guards ok' ok) {s₀ : St'} {es : List (Event Res' Env' τ')}
    (h : T.Run ok' ⟨s₀, []⟩ es c) :
    ∃ es' d, S.Run ok ⟨C.state s₀, []⟩ es' d ∧ d.state = C.state c.state ∧
      List.Forall₂ C.Same (es'.filterMap Event.act) (es.filterMap C.seenAct) ∧
      ∀ th ∈ d.threads, ∃ th' ∈ c.threads, C.Serves th'.task th.task := by
  have hshadow : ∃ es' d m, S.Run ok ⟨C.state s₀, []⟩ es' d ∧ C.Shadow c d m ∧
      List.Forall₂ C.Same (es'.filterMap Event.act) (es.filterMap C.seenAct) := by
    induction h with
    | nil =>
      refine ⟨[], _, fun _ => none, .nil, ⟨rfl, ?_, ?_, ?_, ?_, ?_⟩, .nil⟩
      · intro i t' p hi
        cases hi
      · intro i j hm
        cases hm
      · intro i k j hm
        cases hm
      · intro j t op q hj
        cases hj
      · intro th hth
        cases hth
    | @snoc es c₁ c₂ ev _ hok hs ih =>
      obtain ⟨es₁, d₁, m₁, hrun₁, hsh₁, hes₁⟩ := ih
      obtain ⟨es₂, d₂, m₂, hrun₂, hsh₂, hes₂⟩ := hsh₁.step hC g hok hs
      refine ⟨es₁ ++ es₂, d₂, m₂, hrun₁.append hrun₂, hsh₂, ?_⟩
      rw [List.filterMap_append, List.filterMap_append]
      refine List.rel_append hes₁ ?_
      cases hev : C.seenAct ev <;> simpa [hev] using hes₂
  obtain ⟨es', d, m, hrun, hsh, hes⟩ := hshadow
  exact ⟨es', d, hrun, hsh.state, hes, hsh.served⟩

end Contains

end Interleave
