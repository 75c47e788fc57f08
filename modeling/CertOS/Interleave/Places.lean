import CertOS.Interleave.Run

/-!
# Runs by the places of the threads

What a thread can still do is known by the place it has come to. `Interleave.Placing` says
which places there are, what it is for a thread to be at one, and what one step between two
places does; a configuration is then known by its state and by a list of places, one for each
thread (`Interleave.Placing.Placed`). A place may determine the program that is left, or say as
little of it as one needs.

What a step of the pool does, said in places, is `Interleave.Placing.Moves`, and
`Interleave.Placing.Placed.exists_moves` is the simulation.
`Interleave.Placing.run_invariant` is the rule of proof: an invariant of a run may speak of the
history, the configuration and the places, and has to be kept by every move. The invariant of a
map with an entry for each thread at certain places is `Interleave.Placing.Held`.
-/

namespace Interleave

variable {Op : Type} {Res : Op → Type} {Env St τ α π : Type}

/-- The places of the threads of a system. -/
structure Placing (S : System Res Env St τ α) (π : Type) where
  /-- Where a thread starts. -/
  start : τ → π
  /-- The thread is at the place. -/
  At : π → Thread Res τ α → Prop
  /-- What a step of a thread does: its operation, the answer, and the place after it. -/
  Step : τ → π → (op : Op) → Res op → π → Prop
  /-- A thread starts where its task starts. -/
  at_start : ∀ t, At (start t) (S.spawn t)
  /-- A thread goes on from place to place. -/
  step_of_call : ∀ {t p op k}, At p ⟨t, .call op k⟩ → ∀ r, ∃ p', At p' ⟨t, k r⟩ ∧ Step t p op r p'

namespace Placing

variable {S : System Res Env St τ α} (L : Placing S π)

/-- The threads of a configuration are at the places. -/
structure Placed (c : Config Res St τ α) (ps : List π) : Prop where
  length_eq : ps.length = c.threads.length
  isAt : ∀ (i : ℕ) th p, c.threads[i]? = some th → ps[i]? = some p → L.At p th

/-- The places of the threads that are started for some tasks. -/
def starts (ts : List τ) : List π := ts.map L.start

/-- **What one step of the pool does**, by the places of the threads and the state before and
after it. -/
inductive Moves : List π → St → Event Res Env τ → List π → St → Prop
  /-- A thread is started. -/
  | start (ps : List π) (s : St) (t : τ) : Moves ps s (.start t) (ps ++ L.starts [t]) s
  /-- A thread performs its next operation, which may start others. -/
  | did {ps : List π} {s : St} {i : ℕ} {t : τ} {p p' : π} (e : Env) {op : Op}
      (h : ps[i]? = some p) (hs : L.Step t p op (S.exec e op s).1 p') :
      Moves ps s (.did i t e op (S.exec e op s).1)
        (ps.set i p' ++ L.starts (S.forks op (S.exec e op s).1)) (S.exec e op s).2

variable {L} {ok : Config Res St τ α → Event Res Env τ → Prop} {c c₁ : Config Res St τ α}
  {es : List (Event Res Env τ)} {ev : Event Res Env τ} {ps : List π} {q q' : π} {i k : ℕ}

/-- There is a place for every thread. -/
theorem Placed.exists_place (h : L.Placed c ps) {th : Thread Res τ α}
    (hi : c.threads[i]? = some th) : ∃ p, ps[i]? = some p ∧ L.At p th := by
  have hlt : i < ps.length := by
    rw [h.length_eq]
    exact (List.getElem?_eq_some_iff.mp hi).1
  exact ⟨ps[i], List.getElem?_eq_getElem hlt, h.isAt i th _ hi (List.getElem?_eq_getElem hlt)⟩

/-- There is a thread for every place. -/
theorem Placed.exists_thread (h : L.Placed c ps) {p : π} (hi : ps[i]? = some p) :
    ∃ th, c.threads[i]? = some th ∧ L.At p th := by
  have hlt : i < c.threads.length := by
    rw [← h.length_eq]
    exact (List.getElem?_eq_some_iff.mp hi).1
  exact ⟨c.threads[i], List.getElem?_eq_getElem hlt,
    h.isAt i _ p (List.getElem?_eq_getElem hlt) hi⟩

/-- Where a place determines the thread, the places determine the threads. -/
theorem Placed.threads_eq (h : L.Placed c ps) {f : π → Thread Res τ α}
    (hf : ∀ p th, L.At p th → th = f p) : c.threads = ps.map f := by
  refine List.ext_getElem? fun i => ?_
  rw [List.getElem?_map]
  cases hi : ps[i]? with
  | none =>
    rw [List.getElem?_eq_none_iff] at hi
    rw [List.getElem?_eq_none (by rwa [← h.length_eq])]
    rfl
  | some p =>
    obtain ⟨th, hth, hat⟩ := h.exists_thread hi
    rw [hth, hf p th hat]
    rfl

/-- A configuration without threads. -/
theorem Placed.nil (hc : c.threads = []) : L.Placed c [] where
  length_eq := (congrArg List.length hc).symm
  isAt i th p _ hp := by cases hp

/-- Threads that are started are at their first places. -/
theorem Placed.append (h : L.Placed c ps) (s : St) (ts : List τ) :
    L.Placed ⟨s, c.threads ++ ts.map S.spawn⟩ (ps ++ L.starts ts) := by
  have hlen := h.length_eq
  refine ⟨by simp [starts, hlen], fun k th p hth hp => ?_⟩
  rcases Nat.lt_or_ge k c.threads.length with hk | hk
  · rw [List.getElem?_append_left hk] at hth
    rw [List.getElem?_append_left (by rwa [hlen])] at hp
    exact h.isAt k th p hth hp
  · -- the threads that were started stand in the order of their places
    rw [List.getElem?_append_right hk, List.getElem?_map] at hth
    rw [List.getElem?_append_right (by rwa [hlen]), hlen, starts, List.getElem?_map] at hp
    obtain ⟨u, hu, rfl⟩ := Option.map_eq_some_iff.mp hth
    obtain ⟨u', hu', rfl⟩ := Option.map_eq_some_iff.mp hp
    obtain rfl : u = u' := Option.some.inj (hu.symm.trans hu')
    exact L.at_start u

/-- A thread has come to another place. -/
theorem Placed.set (h : L.Placed c ps) (s : St) {th' : Thread Res τ α} {p' : π}
    (hp' : L.At p' th') : L.Placed ⟨s, c.threads.set i th'⟩ (ps.set i p') := by
  refine ⟨by simp [h.length_eq], fun k th p hth hp => ?_⟩
  rcases System.getElem?_set_inv hth with ⟨rfl, rfl⟩ | ⟨hne, hth⟩
  · rcases System.getElem?_set_inv hp with ⟨-, rfl⟩ | ⟨hne, -⟩
    · exact hp'
    · exact absurd rfl hne
  · rw [List.getElem?_set_ne (Ne.symm hne)] at hp
    exact h.isAt k th p hth hp

/-- **The simulation**: a step of the pool is a move of the places. -/
theorem Placed.exists_moves (h : L.Placed c ps) (hs : S.Step c ev c₁) :
    ∃ ps', L.Placed c₁ ps' ∧ L.Moves ps c.state ev ps' c₁.state := by
  cases hs with
  | start t => exact ⟨_, h.append c.state [t], .start ps c.state t⟩
  | did i t e op cont hi =>
    obtain ⟨p, hp, hat⟩ := h.exists_place hi
    obtain ⟨p', hat', hstep⟩ := L.step_of_call hat (S.exec e op c.state).1
    exact ⟨_, (h.set (i := i) c.state hat').append _ _, .did e hp hstep⟩

/-- **The rule for the places**: what holds at the start and is kept by every move of a step
that meets the guard holds at the end of every run. A step may use the run so far. -/
theorem run_invariant {I : List (Event Res Env τ) → Config Res St τ α → List π → Prop}
    (hc : c.threads = []) (h₀ : I [] c [])
    (hstep : ∀ es c₁ ev c₂ ps ps', S.Run ok c es c₁ → L.Placed c₁ ps → I es c₁ ps → ok c₁ ev →
      S.Step c₁ ev c₂ → L.Moves ps c₁.state ev ps' c₂.state → I (es ++ [ev]) c₂ ps')
    (h : S.Run ok c es c₁) : ∃ ps, L.Placed c₁ ps ∧ I es c₁ ps := by
  induction h with
  | nil => exact ⟨[], .nil hc, h₀⟩
  | snoc hrun hok hs ih =>
    obtain ⟨ps, hplaced, hI⟩ := ih
    obtain ⟨ps', hplaced', hmoves⟩ := hplaced.exists_moves hs
    exact ⟨ps', hplaced', hstep _ _ _ _ ps ps' hrun hplaced hI hok hs hmoves⟩

/-! ### A map of what the threads hold -/

section Held

variable {κ β : Type}

/-- **The map has what the threads hold**: `own` is the key and the value a thread holds at a
place, if it holds any there; no two threads hold one key, and the map has just these keys, with
these values. -/
structure Held (own : π → Option (κ × β)) (ps : List π) (m : κ → Option β) : Prop where
  lookup_iff : ∀ {k b}, m k = some b ↔ ∃ i : ℕ, ∃ q, ps[i]? = some q ∧ own q = some (k, b)
  unique : ∀ {i i' : ℕ} {q q' k b b'}, ps[i]? = some q → ps[i']? = some q' →
    own q = some (k, b) → own q' = some (k, b') → i = i'

variable {own : π → Option (κ × β)} {m m' : κ → Option β} {b : β}

theorem Held.nil : Held own ([] : List π) fun _ => none where
  lookup_iff := by
    intro k b
    constructor
    · rintro ⟨⟩
    · rintro ⟨i, q, hi, -⟩
      cases hi
  unique := by
    rintro i i' q q' k b b' ⟨⟩

/-- What a thread holds is in the map. -/
theorem Held.lookup_eq_some (h : Held own ps m) (hi : ps[i]? = some q) {k : κ}
    (hq : own q = some (k, b)) : m k = some b :=
  h.lookup_iff.mpr ⟨i, q, hi, hq⟩

/-- A thread has come to a place where it holds as much as before. -/
theorem Held.set_of_eq (h : Held own ps m) (hi : ps[i]? = some q) (hq : own q' = own q) :
    Held own (ps.set i q') m := by
  -- every place holds what the place of its thread held before
  have hback {j : ℕ} {p : π} (hj : (ps.set i q')[j]? = some p) :
      ∃ p₀, ps[j]? = some p₀ ∧ own p = own p₀ := by
    rcases System.getElem?_set_inv hj with ⟨rfl, rfl⟩ | ⟨-, hj⟩
    · exact ⟨q, hi, hq⟩
    · exact ⟨p, hj, rfl⟩
  constructor
  · intro k b
    rw [h.lookup_iff]
    constructor
    · rintro ⟨j, p, hj, hp⟩
      by_cases hji : j = i
      · subst hji
        obtain rfl := Option.some.inj (hi.symm.trans hj)
        exact ⟨j, q', List.getElem?_set_self (List.getElem?_eq_some_iff.mp hi).1, hq.trans hp⟩
      · exact ⟨j, p, by rwa [List.getElem?_set_ne (Ne.symm hji)], hp⟩
    · rintro ⟨j, p, hj, hp⟩
      obtain ⟨p₀, hj₀, heq⟩ := hback hj
      exact ⟨j, p₀, hj₀, heq ▸ hp⟩
  · intro j j' p p' k b b' hj hj' hp hp'
    obtain ⟨p₀, hj₀, heq⟩ := hback hj
    obtain ⟨p₁, hj₁, heq'⟩ := hback hj'
    exact h.unique hj₀ hj₁ (heq ▸ hp) (heq' ▸ hp')

/-- **A thread moves on**, and holds another value under its key then, or the key no more, or a
key that nobody held. -/
theorem Held.set [DecidableEq κ] (h : Held own ps m) (hi : ps[i]? = some q) {k : κ}
    (hk : ∀ b, m k = some b → own q = some (k, b)) (hq : ∀ k' b, own q = some (k', b) → k' = k)
    {o : Option β} (hq' : own q' = o.map (k, ·)) (hm : ∀ k', m' k' = if k' = k then o else m k') :
    Held own (ps.set i q') m' := by
  have hlt := (List.getElem?_eq_some_iff.mp hi).1
  -- the thread that has moved holds no other key, and the others do not hold this one
  have hself {k' : κ} {b' : β} (hp : own q' = some (k', b')) : k' = k ∧ o = some b' := by
    obtain ⟨b₀, ho, heq⟩ := Option.map_eq_some_iff.mp (hq'.symm.trans hp)
    obtain ⟨rfl, rfl⟩ := Prod.mk.inj heq
    exact ⟨rfl, ho⟩
  have hother {j : ℕ} {p : π} {b' : β} (hne : j ≠ i) (hj : ps[j]? = some p) :
      own p ≠ some (k, b') := by
    intro hp
    exact hne (h.unique hj hi hp (hk b' (h.lookup_eq_some hj hp)))
  constructor
  · intro k' b'
    rw [hm]
    by_cases hkk : k' = k
    · subst hkk
      rw [if_pos rfl]
      constructor
      · rintro rfl
        exact ⟨i, q', List.getElem?_set_self hlt, hq'⟩
      · rintro ⟨j, p, hj, hp⟩
        rcases System.getElem?_set_inv hj with ⟨-, rfl⟩ | ⟨hne, hj⟩
        · exact (hself hp).2
        · exact absurd hp (hother hne hj)
    · rw [if_neg hkk, h.lookup_iff]
      constructor
      · rintro ⟨j, p, hj, hp⟩
        have hji : j ≠ i := by
          rintro rfl
          obtain rfl := Option.some.inj (hi.symm.trans hj)
          exact hkk (hq k' b' hp)
        exact ⟨j, p, by rwa [List.getElem?_set_ne (Ne.symm hji)], hp⟩
      · rintro ⟨j, p, hj, hp⟩
        rcases System.getElem?_set_inv hj with ⟨-, rfl⟩ | ⟨-, hj⟩
        · exact absurd (hself hp).1 hkk
        · exact ⟨j, p, hj, hp⟩
  · intro j j' p p' k' b₁ b₂ hj hj' hp hp'
    rcases System.getElem?_set_inv hj with ⟨rfl, rfl⟩ | ⟨hne, hold⟩
    · obtain ⟨rfl, -⟩ := hself hp
      rcases System.getElem?_set_inv hj' with ⟨rfl, -⟩ | ⟨hne', hold'⟩
      · rfl
      · exact absurd hp' (hother hne' hold')
    · rcases System.getElem?_set_inv hj' with ⟨rfl, rfl⟩ | ⟨-, hold'⟩
      · obtain ⟨rfl, -⟩ := hself hp'
        exact absurd hp (hother hne hold)
      · exact h.unique hold hold' hp hp'

/-- A thread that held a key holds another value under it, or the key no more. -/
theorem Held.set_of_some [DecidableEq κ] (h : Held own ps m) (hi : ps[i]? = some q) {k : κ}
    (hq : own q = some (k, b)) {o : Option β} (hq' : own q' = o.map (k, ·))
    (hm : ∀ k', m' k' = if k' = k then o else m k') : Held own (ps.set i q') m' := by
  refine h.set hi (fun b' hb' => ?_) (fun k' b' hp => ?_) hq' hm
  · obtain rfl := Option.some.inj ((h.lookup_eq_some hi hq).symm.trans hb')
    exact hq
  · exact (Prod.mk.inj (Option.some.inj (hp.symm.trans hq))).1

/-- A thread that held nothing holds a key that nobody held. -/
theorem Held.set_of_none [DecidableEq κ] (h : Held own ps m) (hi : ps[i]? = some q) {k : κ}
    (hk : m k = none) (hq : own q = none) (hq' : own q' = some (k, b))
    (hm : ∀ k', m' k' = if k' = k then some b else m k') : Held own (ps.set i q') m' := by
  refine h.set (o := some b) hi (fun b' hb' => ?_) (fun k' b' hp => ?_) hq' hm
  · rw [hk] at hb'
    cases hb'
  · rw [hq] at hp
    cases hp

/-- A thread is started that holds nothing. -/
theorem Held.concat_of_none (h : Held own ps m) (hq : own q = none) : Held own (ps ++ [q]) m := by
  have hback {j : ℕ} {p : π} {k : κ} {b : β} (hj : (ps ++ [q])[j]? = some p)
      (hp : own p = some (k, b)) : ps[j]? = some p := by
    rcases System.getElem?_concat_inv hj with hj | ⟨-, rfl⟩
    · exact hj
    · rw [hq] at hp
      cases hp
  constructor
  · intro k b
    rw [h.lookup_iff]
    constructor
    · rintro ⟨j, p, hj, hp⟩
      refine ⟨j, p, ?_, hp⟩
      rw [List.getElem?_append_left (List.getElem?_eq_some_iff.mp hj).1, hj]
    · rintro ⟨j, p, hj, hp⟩
      exact ⟨j, p, hback hj hp, hp⟩
  · intro j j' p p' k b b' hj hj' hp hp'
    exact h.unique (hback hj hp) (hback hj' hp') hp hp'

/-- A thread is started that holds a key nobody holds. -/
theorem Held.concat_of_some [DecidableEq κ] (h : Held own ps m) {k : κ} (hk : m k = none)
    (hq : own q = some (k, b)) (hm : ∀ k', m' k' = if k' = k then some b else m k') :
    Held own (ps ++ [q]) m' := by
  have hfree {j : ℕ} {p : π} {b' : β} (hj : ps[j]? = some p) : own p ≠ some (k, b') := by
    intro hp
    rw [h.lookup_eq_some hj hp] at hk
    cases hk
  constructor
  · intro k' b'
    rw [hm]
    by_cases hkk : k' = k
    · subst hkk
      rw [if_pos rfl, Option.some.injEq]
      constructor
      · rintro rfl
        exact ⟨ps.length, q, List.getElem?_concat_length, hq⟩
      · rintro ⟨j, p, hj, hp⟩
        rcases System.getElem?_concat_inv hj with hj | ⟨-, rfl⟩
        · exact absurd hp (hfree hj)
        · exact (Prod.mk.inj (Option.some.inj (hq.symm.trans hp))).2
    · rw [if_neg hkk, h.lookup_iff]
      constructor
      · rintro ⟨j, p, hj, hp⟩
        refine ⟨j, p, ?_, hp⟩
        rw [List.getElem?_append_left (List.getElem?_eq_some_iff.mp hj).1, hj]
      · rintro ⟨j, p, hj, hp⟩
        rcases System.getElem?_concat_inv hj with hj | ⟨-, rfl⟩
        · exact ⟨j, p, hj, hp⟩
        · exact absurd (Prod.mk.inj (Option.some.inj (hq.symm.trans hp))).1.symm hkk
  · intro j j' p p' k' b₁ b₂ hj hj' hp hp'
    rcases System.getElem?_concat_inv hj with hold | ⟨rfl, rfl⟩
    · rcases System.getElem?_concat_inv hj' with hold' | ⟨-, rfl⟩
      · exact h.unique hold hold' hp hp'
      · obtain rfl := (Prod.mk.inj (Option.some.inj (hq.symm.trans hp'))).1
        exact absurd hp (hfree hold)
    · rcases System.getElem?_concat_inv hj' with hold' | ⟨rfl, -⟩
      · obtain rfl := (Prod.mk.inj (Option.some.inj (hq.symm.trans hp))).1
        exact absurd hp' (hfree hold')
      · rfl

end Held

end Placing

end Interleave
