import CertOS.Master.Requests

/-!
# Reviews of one request

A request ought to be decided once: `submit_job` is called for it at most once,
a decision is final, and a rejected request has no job.
`AdminReviewRequest` does not look at the status the request has. It reads the
record, submits the job when it approves, and then writes its decision, whatever
other reviews have done before, after or in between.

So all of it rests on which reviews there are. The law holds as long as the
reviews that reach the request all reject it, or there is only one
(`CertOS.decidedOnce`); that is `CertOS.decided_once`, in every interleaving and
with everything else the master does running beside the reviews.
`CertOS.decided_again` is what further reviews do.
-/

namespace CertOS

open Interleave

variable {Fs : Type} {P : Platform Tables Fs}

/-! ### The reviews in the pool -/

/-- The review of request `k` that a task is, if it is one. -/
def reviewOf (k : String) : Task → Option ReviewRequest
  | .rpc _ (.adminReviewRequest r) => if r.requestId = k then some r else none
  | _ => none

/-- The task is an update of request `k`. -/
def updatesRequest (k : String) : Task → Bool
  | .rpc _ (.updateJobRequest u) => u.requestId = k
  | _ => false

/-- The review was turned away before it did anything: it did not find the
request, or could not read it. -/
def turnedAway (th : Thread MasterOp.Res Task Reply) : Bool :=
  th.result = some (.error ⟨.notFound, "Request not found"⟩) ∨
    th.result = some (.error ⟨.internal, "Failed to parse stored request"⟩)

/-- The thread is a review of request `k` with the property `p` that was not
turned away. -/
def reviewing (k : String) (p : ReviewRequest → Bool) (th : Thread MasterOp.Res Task Reply) :
    Bool :=
  (reviewOf k th.task).any p && !turnedAway th

/-- **The reviews can be decided once**: a review of request `k` starts only if
there is no other, or if it rejects and so do all the others. No update of the
request starts. -/
def decidedOnce (k : String) (c : MasterConfig Tables Fs) : MasterEvent → Bool
  | .start t =>
    match reviewOf k t with
    | some r =>
      c.threads.all (fun th => !reviewing k (fun _ => true) th) ||
        (!r.approve && c.threads.all fun th => !reviewing k (·.approve) th)
    | none => !updatesRequest k t
  | .did .. => true

/-- How often `submit_job` was called on behalf of request `k`. -/
def submissions (k : String) (es : List MasterEvent) : ℕ :=
  es.countP fun
    | .did _ t _ op _ => submits op && (reviewOf k t).isSome
    | .start _ => false

theorem submissions_snoc (k : String) (es : List MasterEvent) (ev : MasterEvent) :
    submissions k (es ++ [ev]) = submissions k es + submissions k [ev] :=
  List.countP_append

theorem reviewOf_eq_some {k : String} {t : Task} {r : ReviewRequest} (h : reviewOf k t = some r) :
    r.requestId = k ∧ ∃ metadata, t = .rpc metadata (.adminReviewRequest r) := by
  cases t with
  | rpc metadata rpc =>
    cases rpc with
    | adminReviewRequest r' =>
      rw [reviewOf] at h
      split at h
      · rename_i hk
        obtain rfl := Option.some.inj h
        exact ⟨hk, metadata, rfl⟩
      · cases h
    | _ => cases h
  | _ => cases h

/-! ### The other threads keep off the row -/

/-- What is left of a thread that is no review of request `k`: it will not write
the row, or it works on another request and has yet to read. -/
def KeepsOff (J : JsonCodec) (k : String) (p : MasterProg Reply) : Prop :=
  p.Only (fun op => ¬Touches k op) ∨
    (∃ r, r.requestId ≠ k ∧ p = reviewAt J r .reading) ∨
      ∃ u, u.requestId ≠ k ∧ p = updateAt J u .reading

theorem KeepsOff.body {k : String} {t : Task} (hr : reviewOf k t = none)
    (hu : updatesRequest k t = false) : KeepsOff P.json k ((master P).body t) := by
  cases h : t.onRequests with
  | false =>
    exact Or.inl ((only_of_not_onRequests P h).mono fun _ => not_touches_of_not_writesRequests)
  | true =>
    cases t with
    | rpc metadata rpc =>
      rw [master_body_rpc]
      cases rpc with
      | submitPublicRequest request =>
        exact Or.inl (Prog.only_map.mpr
          (MasterService.only_submitPublicRequest _ id id fun _ _ _ _ => id))
      | updateJobRequest u => exact Or.inr (Or.inr ⟨u, of_decide_eq_false hu, rfl⟩)
      | adminReviewRequest r =>
        refine Or.inr (Or.inl ⟨r, fun hk => ?_, rfl⟩)
        rw [reviewOf, if_pos hk] at hr
        cases hr
      | _ => cases h
    | _ => cases h

/-- **A step of another thread**: it does not write the row, and will not. -/
theorem KeepsOff.step {k : String} {op : MasterOp} {cont : op.Res → MasterProg Reply} {e : Env}
    {s : MasterState Tables Fs} (hP : P.store = idealStore) (hc : Coherent P.json s.adminDb)
    (h : KeepsOff P.json k (.call op cont)) :
    ¬Touches k op ∧ KeepsOff P.json k (cont (s.exec P e op).1) := by
  rcases h with h | ⟨r, hr, h⟩ | ⟨u, hu, h⟩
  · exact ⟨h.1, Or.inl (h.2 _)⟩
  · rw [reviewAt_reading] at h
    cases h
    refine ⟨id, Or.inl ?_⟩
    simp only [MasterState.exec_store, hP, idealStore]
    rw [reviewRead]
    split
    · trivial
    · rename_i hne
      cases hp : P.json.parse (MasterService.findRequest r.requestId
          (StateStore.listRequests e.sqliteOk s.adminDb)) with
      | none => trivial
      | some req =>
        -- what it has read names its own row
        have hname := hc.of_stored (stored_of_findRequest hne hp)
        refine Prog.only_map.mpr (MasterService.only_decideReview _ _ id (fun _ _ _ => id)
          fun now data _ ht => hr ?_)
        exact hname.symm.trans ht
  · rw [updateAt_reading] at h
    cases h
    refine ⟨id, Or.inl ?_⟩
    simp only [MasterState.exec_store, hP, idealStore]
    rw [updateRead]
    split
    · trivial
    · rename_i hne
      cases hp : P.json.parse (MasterService.findRequest u.requestId
          (StateStore.listRequests e.sqliteOk s.adminDb)) with
      | none => trivial
      | some req =>
        have hname := hc.of_stored (stored_of_findRequest hne hp)
        refine Prog.only_map.mpr (MasterService.only_storeUpdate _ fun data _ ht => hu ?_)
        exact hname.symm.trans ((congrArg cStr (withArchive_requestId req _)).symm.trans ht)

/-! ### How far the decision is -/

section Reviewing

variable {k : String} {p q : ReviewRequest → Bool} {th : Thread MasterOp.Res Task Reply} {t : Task}
  {r : ReviewRequest}

theorem reviewing_of_none (h : reviewOf k th.task = none) : reviewing k p th = false := by
  rw [reviewing, h]
  rfl

theorem reviewing_mono (hpq : ∀ r, p r = true → q r = true) (h : reviewing k q th = false) :
    reviewing k p th = false := by
  rw [reviewing] at h ⊢
  cases hr : reviewOf k th.task with
  | none => rfl
  | some r =>
    rw [hr] at h
    cases hp : p r with
    | false => simp [hp]
    | true =>
      have hq := hpq r hp
      simpa [hp, hq] using h

/-- A thread in front of an operation has not been turned away. -/
theorem reviewing_call {op : MasterOp} {cont : op.Res → MasterProg Reply}
    (h : reviewOf k t = some r) : reviewing k p ⟨t, .call op cont⟩ = p r := by
  rw [reviewing, h]
  simp [turnedAway, Thread.result]

theorem reviewing_of_turnedAway (h : turnedAway th = true) : reviewing k p th = false := by
  rw [reviewing, h, Bool.not_true, Bool.and_false]

end Reviewing

/-- What holds while the one approving review of request `k` is at a place: `n`
submissions were made, and the row holds `st`. -/
def ApprovingAt (n : ℕ) (st : Option JobRequest) : ReviewPlace → Prop
  | .reading | .deciding _ | .submitting _ _ => n = 0 ∧ ∀ req, st = some req → req.status = .pending
  | .storing _ _ => n = 1 ∧ ∀ req, st = some req → req.status = .pending
  | .ended _ => n ≤ 1 ∧ ∀ req, st = some req → req.status ≠ .rejected

/-- **How far the decision on request `k` is**: either every review that was not
turned away rejects, or there is just one and it approves. -/
inductive Decided (J : JsonCodec) (k : String) (es : List MasterEvent)
    (c : MasterConfig Tables Fs) : Prop
  | rejecting
      (happ : ∀ (j : ℕ) th, c.threads[j]? = some th → reviewing k (·.approve) th = false)
      (hsub : submissions k es = 0)
      (hst : ∀ req, stored J k c.state.adminDb = some req → req.status = .pending ∨
        (req.status = .rejected ∧ ∃ (j : ℕ) (th : Thread MasterOp.Res Task Reply),
          c.threads[j]? = some th ∧ reviewing k (fun _ => true) th = true ∧ th.result ≠ none))
  | approving {i : ℕ} {t : Task} {r : ReviewRequest} {pl : ReviewPlace}
      (hi : c.threads[i]? = some ⟨t, reviewAt J r pl⟩) (hr : reviewOf k t = some r)
      (ha : r.approve = true) (hin : turnedAway ⟨t, reviewAt J r pl⟩ = false)
      (honly : ∀ (j : ℕ) th, c.threads[j]? = some th → j ≠ i →
        reviewing k (fun _ => true) th = false)
      (hok : ApprovingAt (submissions k es) (stored J k c.state.adminDb) pl)

theorem submissions_did {k : String} {i : ℕ} {t : Task} {e : Env} {op : MasterOp} {a : op.Res} :
    submissions k [.did i t e op a] = if submits op && (reviewOf k t).isSome then 1 else 0 := by
  simp only [submissions, List.countP_singleton]

/-- A row that does not change, or appears with a pending request, keeps what is
known about the approving review. -/
theorem ApprovingAt.of_row {n : ℕ} {st st' : Option JobRequest} {pl : ReviewPlace}
    (h : ApprovingAt n st pl)
    (hrow : st' = st ∨ (st = none ∧ ∃ req, st' = some req ∧ req.status = .pending)) :
    ApprovingAt n st' pl := by
  rcases hrow with rfl | ⟨-, req, rfl, hpend⟩
  · exact h
  · have hall : ∀ req', some req = some req' → req'.status = .pending := by
      intro req' hreq
      obtain rfl := Option.some.inj hreq
      exact hpend
    cases pl with
    | reading => exact ⟨h.1, hall⟩
    | deciding x => exact ⟨h.1, hall⟩
    | submitting x now => exact ⟨h.1, hall⟩
    | storing x now => exact ⟨h.1, hall⟩
    | ended a =>
      refine ⟨h.1, fun req' hreq hrej => ?_⟩
      rw [hall req' hreq] at hrej
      cases hrej

section Step

variable {k : String} {es : List MasterEvent} {c : MasterConfig Tables Fs} {i : ℕ} {t : Task}
  {e : Env} {op : MasterOp} {cont : op.Res → MasterProg Reply}

/-- **A step of a thread that is no review of the request.** -/
theorem Decided.step_other (h : Decided P.json k es c)
    (hi : c.threads[i]? = some ⟨t, .call op cont⟩) (ht : reviewOf k t = none)
    (hrow : stored P.json k (c.state.exec P e op).2.adminDb = stored P.json k c.state.adminDb ∨
      (stored P.json k c.state.adminDb = none ∧ ∃ req,
        stored P.json k (c.state.exec P e op).2.adminDb = some req ∧ req.status = .pending)) :
    Decided P.json k (es ++ [.did i t e op (c.state.exec P e op).1])
      ((master P).after c i t e op cont) := by
  have hsame :
      submissions k (es ++ [.did i t e op (c.state.exec P e op).1]) = submissions k es := by
    rw [submissions_snoc, submissions_did, ht]
    simp
  -- the thread that moves is no review of the request, so it matters to nobody
  have hold {p : ReviewRequest → Bool} {j : ℕ} {th : Thread MasterOp.Res Task Reply}
      (hj : ((master P).after c i t e op cont).threads[j]? = some th) :
      reviewing k p th = false ∨ (j ≠ i ∧ c.threads[j]? = some th) := by
    rcases getElem?_after_master hj with ⟨-, rfl⟩ | hj
    · exact Or.inl (reviewing_of_none ht)
    · exact Or.inr hj
  cases h with
  | rejecting happ hsub hst =>
    refine .rejecting (fun j th hj => ?_) (hsame.trans hsub) fun req hreq => ?_
    · rcases hold hj with h | ⟨-, hj⟩
      · exact h
      · exact happ j th hj
    · rcases hrow with hsame | ⟨-, req', hreq', hpend⟩
      · rcases hst req (hsame.symm.trans hreq) with h | ⟨hrej, j, th, hj, hrev, hres⟩
        · exact Or.inl h
        · refine Or.inr ⟨hrej, j, th, System.getElem?_after_of_ne hj ?_, hrev, hres⟩
          rintro rfl
          obtain rfl := Option.some.inj (hi.symm.trans hj)
          exact hres rfl
      · obtain rfl := Option.some.inj (hreq'.symm.trans hreq)
        exact Or.inl hpend
  | approving hi₀ hr ha hin honly hok =>
    rename_i i₀ t₀ r pl
    have hne : i₀ ≠ i := by
      rintro rfl
      have heq := Option.some.inj (hi.symm.trans hi₀)
      rw [(Thread.mk.inj heq).1, hr] at ht
      cases ht
    refine .approving (System.getElem?_after_of_ne hi₀ hne) hr ha hin (fun j th hj hji => ?_) ?_
    · rcases hold hj with h | ⟨-, hj⟩
      · exact h
      · exact honly j th hj hji
    · rw [hsame]
      exact hok.of_row hrow

/-- **A step of a rejecting review**, when every review rejects. -/
theorem Decided.step_rejecting {r : ReviewRequest} {pl pl' : ReviewPlace}
    (hi : c.threads[i]? = some ⟨t, .call op cont⟩) (ht : reviewOf k t = some r)
    (hcont : cont (c.state.exec P e op).1 = reviewAt P.json r pl') (hnext : pl.Next r pl')
    (hrej : r.approve = false) (hsubmits : submits op = true → ∃ req now, pl = .submitting req now)
    (hpl : ∀ req now, pl = .submitting req now → r.approve = true)
    (hrow : stored P.json k (c.state.exec P e op).2.adminDb = stored P.json k c.state.adminDb ∨
      ∃ req now, pl = .storing req now ∧ stored P.json k (c.state.exec P e op).2.adminDb =
        some (MasterService.reviewed now r req))
    (happ : ∀ (j : ℕ) th, c.threads[j]? = some th → reviewing k (·.approve) th = false)
    (hsub : submissions k es = 0)
    (hst : ∀ req, stored P.json k c.state.adminDb = some req → req.status = .pending ∨
      (req.status = .rejected ∧ ∃ (j : ℕ) (th : Thread MasterOp.Res Task Reply),
        c.threads[j]? = some th ∧ reviewing k (fun _ => true) th = true ∧ th.result ≠ none)) :
    Decided P.json k (es ++ [.did i t e op (c.state.exec P e op).1])
      ((master P).after c i t e op cont) := by
  have hnosubmit : submits op = false := by
    refine Bool.eq_false_iff.mpr fun hs => ?_
    obtain ⟨req, now, h⟩ := hsubmits hs
    rw [hpl req now h] at hrej
    cases hrej
  refine .rejecting (fun j th hj => ?_) ?_ fun req hreq => ?_
  · rcases getElem?_after_master hj with ⟨-, rfl⟩ | ⟨-, hj⟩
    · rw [reviewing, ht]
      simp [hrej]
    · exact happ j th hj
  · rw [submissions_snoc, submissions_did, hnosubmit, hsub]
    rfl
  · rcases hrow with hsame | ⟨x, now, rfl, hwrote⟩
    · rcases hst req (hsame.symm.trans hreq) with h | ⟨hst, j, th, hj, hrev, hres⟩
      · exact Or.inl h
      · -- the review that has rejected is over, so it is not the one that moves
        refine Or.inr ⟨hst, j, th, System.getElem?_after_of_ne hj ?_, hrev, hres⟩
        rintro rfl
        obtain rfl := Option.some.inj (hi.symm.trans hj)
        exact hres rfl
    · obtain rfl := Option.some.inj (hwrote.symm.trans hreq)
      cases hnext with
      | stored =>
        refine Or.inr ⟨by simp [MasterService.reviewed, hrej], i, _,
          System.getElem?_after_self hi, ?_, ?_⟩
        · rw [master_exec, hcont, reviewing, ht]
          simp [turnedAway, Thread.result, reviewAt, reviewDone]
        · rw [master_exec, hcont]
          simp [Thread.result, reviewAt]

/-- **The only review is turned away**: nothing has happened, and nobody decides. -/
theorem Decided.turned_away {prog : MasterProg Reply} (hi : c.threads[i]? = some ⟨t, prog⟩)
    (haway : turnedAway ⟨t, prog⟩ = true)
    (honly : ∀ (j : ℕ) th, c.threads[j]? = some th → j ≠ i →
      reviewing k (fun _ => true) th = false)
    (hsub : submissions k es = 0)
    (hst : ∀ req, stored P.json k c.state.adminDb = some req → req.status = .pending) :
    Decided P.json k es c := by
  refine .rejecting (fun j th hj => ?_) hsub fun req hreq => Or.inl (hst req hreq)
  by_cases hne : j = i
  · subst hne
    obtain rfl := Option.some.inj (hi.symm.trans hj)
    exact reviewing_of_turnedAway haway
  · exact reviewing_mono (fun _ _ => rfl) (honly j th hj hne)

/-- **A step of the approving review**, when it is the only one. -/
theorem Decided.step_approving {r : ReviewRequest} {pl pl' : ReviewPlace}
    (hi : c.threads[i]? = some ⟨t, .call op cont⟩) (ht : reviewOf k t = some r)
    (hcont : cont (c.state.exec P e op).1 = reviewAt P.json r pl') (hnext : pl.Next r pl')
    (ha : r.approve = true) (hcall : reviewAt P.json r pl = .call op cont)
    (hsubmits : submits op = true → ∃ req now, pl = .submitting req now)
    (hrow : stored P.json k (c.state.exec P e op).2.adminDb = stored P.json k c.state.adminDb ∨
      ∃ req now, pl = .storing req now ∧ stored P.json k (c.state.exec P e op).2.adminDb =
        some (MasterService.reviewed now r req))
    (honly : ∀ (j : ℕ) th, c.threads[j]? = some th → j ≠ i →
      reviewing k (fun _ => true) th = false)
    (hok : ApprovingAt (submissions k es) (stored P.json k c.state.adminDb) pl) :
    Decided P.json k (es ++ [.did i t e op (c.state.exec P e op).1])
      ((master P).after c i t e op cont) := by
  have hself : ((master P).after c i t e op cont).threads[i]? =
      some ⟨t, reviewAt P.json r pl'⟩ := by
    rw [← hcont]
    exact System.getElem?_after_self hi
  have hothers {j : ℕ} {th : Thread MasterOp.Res Task Reply}
      (hj : ((master P).after c i t e op cont).threads[j]? = some th) (hne : j ≠ i) :
      reviewing k (fun _ => true) th = false := by
    rcases getElem?_after_master hj with ⟨h, -⟩ | ⟨-, hj⟩
    · exact absurd h hne
    · exact honly j th hj hne
  have hcount : submissions k (es ++ [.did i t e op (c.state.exec P e op).1]) =
      submissions k es + if submits op then 1 else 0 := by
    rw [submissions_snoc, submissions_did, ht]
    simp
  -- only the last of its operations writes the row
  have hkeep (hpl : ∀ req now, pl ≠ .storing req now) :
      stored P.json k (c.state.exec P e op).2.adminDb = stored P.json k c.state.adminDb := by
    rcases hrow with h | ⟨req, now, h, -⟩
    · exact h
    · exact absurd h (hpl req now)
  -- as long as it is not turned away it is the one that approves
  have hgoes (hin : turnedAway ⟨t, reviewAt P.json r pl'⟩ = false)
      (hok' : ApprovingAt (submissions k es + if submits op then 1 else 0)
        (stored P.json k (c.state.exec P e op).2.adminDb) pl') :
      Decided P.json k (es ++ [.did i t e op (c.state.exec P e op).1])
        ((master P).after c i t e op cont) := by
    rw [← hcount] at hok'
    exact .approving hself ht ha hin (fun j th hj hne => hothers hj hne) hok'
  cases hnext with
  | away haway =>
    -- the review is turned away, and nothing has happened
    rw [reviewAt_reading] at hcall
    cases hcall
    have hsame := hkeep fun _ _ h => by cases h
    refine .turned_away hself ?_ (fun j th hj hne => hothers hj hne)
      (hcount.trans (by rw [hok.1]; rfl)) fun req hreq => hok.2 req (hsame.symm.trans hreq)
    rcases haway with rfl | rfl <;> simp [turnedAway, Thread.result, reviewAt]
  | found x =>
    rw [reviewAt_reading] at hcall
    cases hcall
    have hsame := hkeep fun _ _ h => by cases h
    refine hgoes ?_ ⟨hok.1, fun req hreq => hok.2 req (hsame.symm.trans hreq)⟩
    rw [reviewAt_deciding]
    rfl
  | approve x now _ =>
    rw [reviewAt_deciding] at hcall
    cases hcall
    refine hgoes ?_ hok
    rw [reviewAt_submitting]
    rfl
  | reject x now hrej =>
    rw [ha] at hrej
    cases hrej
  | submitted x now =>
    rw [reviewAt_submitting] at hcall
    cases hcall
    refine hgoes ?_ ⟨by rw [hok.1]; rfl, hok.2⟩
    rw [reviewAt_storing]
    cases P.json.print (MasterService.reviewed now r x) <;> simp [turnedAway, Thread.result]
  | stored x now =>
    refine hgoes ?_ ?_
    · simp [turnedAway, Thread.result, reviewAt, reviewDone]
    · have hnosubmit : submits op = false := by
        refine Bool.eq_false_iff.mpr fun hs => ?_
        obtain ⟨req, now', h⟩ := hsubmits hs
        cases h
      rw [hnosubmit]
      refine ⟨le_of_eq hok.1, fun req hreq => ?_⟩
      rcases hrow with hsame | ⟨x', now', hx, hwrote⟩
      · have hpend := hok.2 req (hsame.symm.trans hreq)
        rw [hpend]
        exact fun h => by cases h
      · obtain rfl := Option.some.inj (hwrote.symm.trans hreq)
        simp [MasterService.reviewed, ha]

theorem submissions_start : submissions k (es ++ [.start t]) = submissions k es := by
  rw [submissions_snoc]
  rfl

/-- A review starts in front of its read. -/
theorem spawn_review (metadata : Metadata) (r : ReviewRequest) :
    (master P).spawn (.rpc metadata (.adminReviewRequest r)) =
      ⟨.rpc metadata (.adminReviewRequest r), reviewAt P.json r .reading⟩ := by
  rw [System.spawn, master_body_rpc]
  rfl

/-- **The start of a thread that does not approve**, when every review
rejects. -/
theorem Decided.start_rejecting
    (happ : ∀ (j : ℕ) th, c.threads[j]? = some th → reviewing k (·.approve) th = false)
    (hsub : submissions k es = 0)
    (hst : ∀ req, stored P.json k c.state.adminDb = some req → req.status = .pending ∨
      (req.status = .rejected ∧ ∃ (j : ℕ) (th : Thread MasterOp.Res Task Reply),
        c.threads[j]? = some th ∧ reviewing k (fun _ => true) th = true ∧ th.result ≠ none))
    (hnew : reviewing k (·.approve) ((master P).spawn t) = false) :
    Decided P.json k (es ++ [.start t]) ⟨c.state, c.threads ++ [(master P).spawn t]⟩ := by
  refine .rejecting (fun j th hj => ?_) (submissions_start.trans hsub) fun req hreq => ?_
  · rcases System.getElem?_start hj with hj | ⟨-, rfl⟩
    · exact happ j th hj
    · exact hnew
  · rcases hst req hreq with h | ⟨hrej, j, th, hj, hrev⟩
    · exact Or.inl h
    · exact Or.inr ⟨hrej, j, th, System.getElem?_start_of_some hj, hrev⟩

/-- **The start of an approving review**, when there is no other review. -/
theorem Decided.start_approving {r : ReviewRequest} (ht : reviewOf k t = some r)
    (ha : r.approve = true)
    (hnobody : ∀ (j : ℕ) th, c.threads[j]? = some th → reviewing k (fun _ => true) th = false)
    (hsub : submissions k es = 0)
    (hpend : ∀ req, stored P.json k c.state.adminDb = some req → req.status = .pending) :
    Decided P.json k (es ++ [.start t]) ⟨c.state, c.threads ++ [(master P).spawn t]⟩ := by
  obtain ⟨-, metadata, rfl⟩ := reviewOf_eq_some ht
  rw [spawn_review]
  have hnew := List.getElem?_concat_length (l := c.threads)
    (a := ⟨.rpc metadata (.adminReviewRequest r), reviewAt P.json r .reading⟩)
  refine .approving hnew ht ha ?_ (fun j th hj hne => ?_) ⟨submissions_start.trans hsub, hpend⟩
  · rw [reviewAt_reading]
    rfl
  · rcases System.getElem?_start (S := master P) (spawn_review metadata r ▸ hj) with hj | ⟨rfl, -⟩
    · exact hnobody j th hj
    · exact absurd rfl hne

/-- The review that moves was not turned away, so where there is only one it is
that one. -/
theorem eq_of_reviewing {i₀ : ℕ} {r : ReviewRequest}
    (honly : ∀ (j : ℕ) th, c.threads[j]? = some th → j ≠ i₀ →
      reviewing k (fun _ => true) th = false)
    (hi : c.threads[i]? = some ⟨t, .call op cont⟩) (ht : reviewOf k t = some r) : i = i₀ := by
  by_contra hne
  have hrev := honly i _ hi hne
  rw [reviewing_call ht] at hrev
  cases hrev

theorem Decided.submissions_le_one (h : Decided P.json k es c) : submissions k es ≤ 1 := by
  cases h with
  | rejecting happ hsub hst => rw [hsub]; exact Nat.zero_le 1
  | approving hi hr ha hin honly hok =>
    rename_i i t r pl
    cases pl with
    | storing x now => exact le_of_eq hok.1
    | ended a => exact hok.1
    | _ => rw [hok.1]; exact Nat.zero_le 1

/-- Nothing was submitted for a request that is rejected. -/
theorem Decided.submissions_of_rejected (h : Decided P.json k es c) {req : JobRequest}
    (hreq : stored P.json k c.state.adminDb = some req) (hrej : req.status = .rejected) :
    submissions k es = 0 := by
  cases h with
  | rejecting happ hsub hst => exact hsub
  | approving hi hr ha hin honly hok =>
    rename_i i t r pl
    cases pl with
    | ended a => exact absurd hrej (hok.2 req hreq)
    | _ =>
      rw [hok.2 req hreq] at hrej
      cases hrej

end Step

/-! ### Every run -/

/-- The invariant: the table is coherent and every write well formed, the reviews
of request `k` are at places of their handler, all other threads keep off its
row, and the decision is as far as it can be. -/
structure Once (P : Platform Tables Fs) (k : String) (es : List MasterEvent)
    (c : MasterConfig Tables Fs) : Prop where
  coherent : Coherent P.json c.state.adminDb
  wellFormed : ∀ th ∈ c.threads, th.prog.Only (WellFormed P.json)
  others : ∀ (i : ℕ) th, c.threads[i]? = some th → reviewOf k th.task = none →
    KeepsOff P.json k th.prog
  places : ∀ (i : ℕ) th r, c.threads[i]? = some th → reviewOf k th.task = some r →
    ∃ pl, th.prog = reviewAt P.json r pl ∧ ∀ req now, pl = .submitting req now → r.approve = true
  decided : Decided P.json k es c

section Once

variable {k : String} {es : List MasterEvent} {c c' : MasterConfig Tables Fs} {ev : MasterEvent}

/-- **The start of a thread** under the condition. -/
theorem Once.step_start (h : Once P k es c) {t : Task} (hg : decidedOnce k c (.start t) = true) :
    Decided P.json k (es ++ [.start t]) ⟨c.state, c.threads ++ [(master P).spawn t]⟩ := by
  cases ht : reviewOf k t with
  | none =>
    cases h.decided with
    | rejecting happ hsub hst =>
      exact Decided.start_rejecting happ hsub hst (reviewing_of_none ht)
    | approving hi hr ha hin honly hok =>
      refine .approving (System.getElem?_start_of_some hi) hr ha hin (fun j th hj hne => ?_) ?_
      · rcases System.getElem?_start hj with hj | ⟨-, rfl⟩
        · exact honly j th hj hne
        · exact reviewing_of_none ht
      · rw [submissions_start]
        exact hok
  | some r =>
    have hself : reviewing k (·.approve) ((master P).spawn t) = r.approve := by
      obtain ⟨-, metadata, rfl⟩ := reviewOf_eq_some ht
      rw [spawn_review, reviewAt_reading]
      exact reviewing_call ht
    simp only [decidedOnce, ht] at hg
    rcases (Bool.or_eq_true _ _).mp hg with hnone | hrej
    · -- there is no other review, so nothing has been decided
      have hnobody {j : ℕ} {th : Thread MasterOp.Res Task Reply} (hj : c.threads[j]? = some th) :
          reviewing k (fun _ => true) th = false := by
        simpa using List.all_eq_true.mp hnone th (List.mem_of_getElem? hj)
      cases h.decided with
      | approving hi hr ha hin honly hok =>
        have hrev := hnobody hi
        rw [reviewing, hr, hin] at hrev
        cases hrev
      | rejecting happ hsub hst =>
        cases ha : r.approve with
        | false => exact Decided.start_rejecting happ hsub hst (hself.trans ha)
        | true =>
          refine Decided.start_approving ht ha (fun _ _ => hnobody) hsub fun req hreq => ?_
          rcases hst req hreq with h | ⟨-, j, th, hj, hrev, -⟩
          · exact h
          · rw [hnobody hj] at hrev
            cases hrev
    · -- the review rejects, and so do the others
      obtain ⟨hrej, hall⟩ := (Bool.and_eq_true _ _).mp hrej
      have hnoapp {j : ℕ} {th : Thread MasterOp.Res Task Reply} (hj : c.threads[j]? = some th) :
          reviewing k (·.approve) th = false := by
        simpa using List.all_eq_true.mp hall th (List.mem_of_getElem? hj)
      cases h.decided with
      | approving hi hr ha hin honly hok =>
        have hrev := hnoapp hi
        rw [reviewing, hr, hin] at hrev
        simp [ha] at hrev
      | rejecting happ hsub hst =>
        have hno : r.approve = false := by simpa using hrej
        exact Decided.start_rejecting happ hsub hst (hself.trans hno)

theorem ReviewPlace.Next.approve_of_submitting {r : ReviewRequest} {pl pl' : ReviewPlace}
    (h : pl.Next r pl') (req : JobRequest) (now : ℤ) (hpl : pl' = .submitting req now) :
    r.approve = true := by
  cases h with
  | approve _ _ ha => exact ha
  | _ => cases hpl

/-- **A step of a review** of the request. -/
theorem Once.step_review (hP : P.store = idealStore) (hJ : P.json.Lawful) (h : Once P k es c)
    {i : ℕ} {t : Task} {e : Env} {op : MasterOp} {cont : op.Res → MasterProg Reply}
    {r : ReviewRequest}
    (hi : c.threads[i]? = some ⟨t, .call op cont⟩) (ht : reviewOf k t = some r) :
    (∃ pl', cont (c.state.exec P e op).1 = reviewAt P.json r pl' ∧
      ∀ req now, pl' = .submitting req now → r.approve = true) ∧
    Decided P.json k (es ++ [.did i t e op (c.state.exec P e op).1])
      ((master P).after c i t e op cont) := by
  cases h.decided with
  | rejecting happ hsub hst =>
    obtain ⟨pl, hcall, hpl⟩ := h.places i _ r hi ht
    obtain ⟨pl', hcont, hnext, hsubmits, hrow⟩ :=
      reviewAt_step hP hJ hcall.symm e c.state k
    have hrej : r.approve = false := (reviewing_call ht).symm.trans (happ i _ hi)
    exact ⟨⟨pl', hcont, hnext.approve_of_submitting⟩,
      Decided.step_rejecting hi ht hcont hnext hrej hsubmits hpl hrow happ hsub hst⟩
  | approving hi₀ hr ha hin honly hok =>
    rename_i i₀ t₀ r₀ pl
    obtain rfl := eq_of_reviewing honly hi ht
    obtain ⟨rfl, hcall⟩ := Thread.mk.inj (Option.some.inj (hi.symm.trans hi₀))
    obtain rfl := Option.some.inj (ht.symm.trans hr)
    obtain ⟨pl', hcont, hnext, hsubmits, hrow⟩ := reviewAt_step hP hJ hcall.symm e c.state k
    exact ⟨⟨pl', hcont, hnext.approve_of_submitting⟩,
      Decided.step_approving hi ht hcont hnext ha hcall.symm hsubmits hrow honly hok⟩

/-- What a thread that is no review of the request does to its row: nothing, or
it is the arrival of the request. -/
theorem Once.row_of_other (hP : P.store = idealStore) (hJ : P.json.Lawful) (h : Once P k es c)
    {i : ℕ} {t : Task} {e : Env} {op : MasterOp} {cont : op.Res → MasterProg Reply}
    (hi : c.threads[i]? = some ⟨t, .call op cont⟩) (ht : reviewOf k t = none) :
    stored P.json k (c.state.exec P e op).2.adminDb = stored P.json k c.state.adminDb ∨
      (stored P.json k c.state.adminDb = none ∧ ∃ req,
        stored P.json k (c.state.exec P e op).2.adminDb = some req ∧ req.status = .pending) := by
  obtain ⟨hoff, -⟩ := (h.others i _ hi ht).step (e := e) hP h.coherent
  have hw := (h.wellFormed _ (List.mem_of_getElem? hi)).1
  rcases stored_exec (e := e) (s := c.state) hP hJ hw k with hsame | ⟨req, hreq, hwhy⟩
  · exact Or.inl hsame
  · rcases hwhy with ⟨-, hnone, hpend⟩ | ⟨htouch, -⟩
    · exact Or.inr ⟨hnone, req, hreq, hpend⟩
    · exact absurd htouch hoff

/-- **One step** under the condition keeps the invariant. -/
theorem Once.step (hP : P.store = idealStore) (hJ : P.json.Lawful) (h : Once P k es c)
    (hg : decidedOnce k c ev = true) (hstep : (master P).Step c ev c') :
    Once P k (es ++ [ev]) c' := by
  have hone : (master P).Run (fun _ _ => True) c [ev] c' := .single trivial hstep
  obtain ⟨hcoh, hwf⟩ := coherent_run hP hJ hone h.coherent h.wellFormed
  cases hstep with
  | start t =>
    refine ⟨hcoh, hwf, fun i th hi hr => ?_, fun i th r hi hr => ?_, h.step_start hg⟩
    · rcases System.getElem?_start hi with hi | ⟨-, rfl⟩
      · exact h.others i th hi hr
      · have hnone : reviewOf k t = none := hr
        refine KeepsOff.body hnone ?_
        simpa [decidedOnce, hnone] using hg
    · rcases System.getElem?_start hi with hi | ⟨-, rfl⟩
      · exact h.places i th r hi hr
      · obtain ⟨-, metadata, rfl⟩ := reviewOf_eq_some (show reviewOf k t = some r from hr)
        exact ⟨.reading, congrArg Thread.prog (spawn_review metadata r), fun _ _ h => by cases h⟩
  | did i t e op cont hi =>
    cases ht : reviewOf k t with
    | none =>
      obtain ⟨-, hnext⟩ := (h.others i _ hi ht).step (e := e) hP h.coherent
      refine ⟨hcoh, hwf, fun j th hj hr => ?_, fun j th r hj hr => ?_,
        h.decided.step_other hi ht (h.row_of_other hP hJ hi ht)⟩
      · rcases getElem?_after_master hj with ⟨-, rfl⟩ | ⟨-, hj⟩
        · exact hnext
        · exact h.others j th hj hr
      · rcases getElem?_after_master hj with ⟨-, rfl⟩ | ⟨-, hj⟩
        · rw [ht] at hr
          cases hr
        · exact h.places j th r hj hr
    | some r =>
      obtain ⟨hplace, hdec⟩ := h.step_review hP hJ (e := e) hi ht
      refine ⟨hcoh, hwf, fun j th hj hr => ?_, fun j th r' hj hr => ?_, hdec⟩
      · rcases getElem?_after_master hj with ⟨-, rfl⟩ | ⟨-, hj⟩
        · rw [ht] at hr
          cases hr
        · exact h.others j th hj hr
      · rcases getElem?_after_master hj with ⟨-, rfl⟩ | ⟨-, hj⟩
        · obtain rfl := Option.some.inj (ht.symm.trans hr)
          exact hplace
        · exact h.places j th r' hj hr

/-- **A decision is final**: a step under the condition keeps the status of a
request that has been decided. -/
theorem Once.final (hP : P.store = idealStore) (hJ : P.json.Lawful) (h : Once P k es c)
    (hstep : (master P).Step c ev c') {req : JobRequest}
    (hreq : stored P.json k c.state.adminDb = some req) (hdec : req.status ≠ .pending) :
    ∃ req', stored P.json k c'.state.adminDb = some req' ∧ req'.status = req.status := by
  cases hstep with
  | start t => exact ⟨req, hreq, rfl⟩
  | did i t e op cont hi =>
    cases ht : reviewOf k t with
    | none =>
      rcases h.row_of_other hP hJ (e := e) hi ht with hsame | ⟨hnone, -⟩
      · exact ⟨req, hsame.trans hreq, rfl⟩
      · rw [hreq] at hnone
        cases hnone
    | some r =>
      cases h.decided with
      | rejecting happ hsub hst =>
        obtain ⟨pl, hcall, -⟩ := h.places i _ r hi ht
        obtain ⟨pl', -, -, -, hrow⟩ := reviewAt_step hP hJ hcall.symm e c.state k
        have hrej : r.approve = false := (reviewing_call ht).symm.trans (happ i _ hi)
        rcases hrow with hsame | ⟨x, now, -, hwrote⟩
        · exact ⟨req, hsame.trans hreq, rfl⟩
        · refine ⟨_, hwrote, ?_⟩
          rcases hst req hreq with hpend | ⟨hst, -⟩
          · exact absurd hpend hdec
          · rw [hst]
            simp [MasterService.reviewed, hrej]
      | approving hi₀ hr ha hin honly hok =>
        rename_i i₀ t₀ r₀ pl
        obtain rfl := eq_of_reviewing honly hi ht
        obtain ⟨rfl, hcall⟩ := Thread.mk.inj (Option.some.inj (hi.symm.trans hi₀))
        -- the review has yet to write, so nothing has been decided
        cases pl with
        | ended a => cases hcall
        | _ => exact absurd (hok.2 req hreq) hdec

theorem Once.start {adminDb : Tables} {db : Option Tables} {fs : Fs}
    (hcoh : Coherent P.json adminDb)
    (hpend : ∀ req, stored P.json k adminDb = some req → req.status = .pending) :
    Once P k [] (masterStart db adminDb fs) where
  coherent := hcoh
  wellFormed _ h := by cases h
  others _ _ h := by cases h
  places _ _ _ h := by cases h
  decided := .rejecting (fun _ _ h => by cases h) rfl fun req hreq => Or.inl (hpend req hreq)

end Once

/-- **A request is decided once**, in every run from the start of the master in
which the reviews of request `k` that were not turned away all reject, or there
is only one: a job is submitted for it at most once, its status is final once it
has been decided, and it is rejected only if no job was submitted. -/
theorem decided_once (hP : P.store = idealStore) (hJ : P.json.Lawful) {k : String}
    {db : Option Tables} {adminDb : Tables} {fs : Fs} {c₁ c₂ : MasterConfig Tables Fs}
    {es₁ es₂ : List MasterEvent} (hcoh : Coherent P.json adminDb)
    (hpend : ∀ req, stored P.json k adminDb = some req → req.status = .pending)
    (h₁ : (master P).Run (fun c ev => decidedOnce k c ev = true) (masterStart db adminDb fs) es₁ c₁)
    (h₂ : (master P).Run (fun c ev => decidedOnce k c ev = true) c₁ es₂ c₂) :
    submissions k (es₁ ++ es₂) ≤ 1 ∧
    (∀ req, stored P.json k c₁.state.adminDb = some req → req.status ≠ .pending →
      ∃ req', stored P.json k c₂.state.adminDb = some req' ∧ req'.status = req.status) ∧
    (∀ req, stored P.json k c₂.state.adminDb = some req → req.status = .rejected →
      submissions k (es₁ ++ es₂) = 0) := by
  have hinv {es : List MasterEvent} {c : MasterConfig Tables Fs}
      (h : (master P).Run (fun c ev => decidedOnce k c ev = true) (masterStart db adminDb fs)
        es c) :
      Once P k es c :=
    h.invariant (I := Once P k) (Once.start hcoh hpend)
      fun es c ev c' ho hg hstep => ho.step hP hJ hg hstep
  have hend := (hinv (h₁.append h₂)).decided
  refine ⟨hend.submissions_le_one, fun req hreq hdec => ?_,
    fun req hreq hrej => hend.submissions_of_rejected hreq hrej⟩
  -- along the second run the invariant holds, and every step keeps the decision
  have hboth : Once P k (es₁ ++ es₂) c₂ ∧ ∃ req', stored P.json k c₂.state.adminDb = some req' ∧
      req'.status = req.status := by
    refine h₂.invariant (I := fun es c => Once P k (es₁ ++ es) c ∧
      ∃ req', stored P.json k c.state.adminDb = some req' ∧ req'.status = req.status)
      ⟨by rw [List.append_nil]; exact hinv h₁, req, hreq, rfl⟩ ?_
    rintro es c ev c' ⟨ho, req', hreq', hst⟩ hg hstep
    obtain ⟨req'', hreq'', hst'⟩ := ho.final hP hJ hstep hreq' (by rwa [hst])
    refine ⟨?_, req'', hreq'', hst'.trans hst⟩
    rw [← List.append_assoc]
    exact ho.step hP hJ hg hstep
  exact hboth.2

/-- A review of Ann's request at time 105, in thread `i`, of `n` steps. -/
def annsDecision (i : ℕ) (approve : Bool) (n : ℕ) : List (Choice Env Task) :=
  performs i (.rpc [] (.adminReviewRequest { requestId := "req-1", approve := approve }))
    { now := 105 } n

/-- The law at work: Ann's request is approved, an admin looks at the requests,
and it is still approved, with one job. -/
theorem decided_once_listed :
    ∃ es₁ c₁ es₂ c₂,
      (master annsPlatform).Run (fun c ev => decidedOnce "req-1" c ev = true)
        (masterStart none annsTables ()) es₁ c₁ ∧
      stored annsCodec "req-1" c₁.state.adminDb = some (decidedAt105 .approved annsRequest) ∧
      (master annsPlatform).Run (fun c ev => decidedOnce "req-1" c ev = true) c₁ es₂ c₂ ∧
      c₂.threads.length = 2 ∧ submissions "req-1" (es₁ ++ es₂) ≤ 1 ∧
      ∃ req, stored annsCodec "req-1" c₂.state.adminDb = some req ∧ req.status = .approved := by
  obtain ⟨es₁, c₁, h₁, hp⟩ := System.exists_run (S := master annsPlatform)
    (g := decidedOnce "req-1") (c := masterStart none annsTables ())
    (p := fun c => stored annsCodec "req-1" c.state.adminDb =
        some (decidedAt105 .approved annsRequest) ∧
      ((master annsPlatform).play (decidedOnce "req-1") c
        (performs 1 (.rpc [] .adminListRequests) { now := 106 } 1)).any
          fun c => c.threads.length = 2)
    (annsDecision 0 true 4) (by decide +kernel)
  obtain ⟨hst, hplay⟩ := of_decide_eq_true hp
  obtain ⟨es₂, c₂, h₂, hlen⟩ := System.exists_run _ hplay
  have hpend : ∀ req, stored annsCodec "req-1" annsTables = some req → req.status = .pending := by
    intro req hreq
    obtain rfl := Option.some.inj (stored_annsTables.symm.trans hreq)
    rfl
  obtain ⟨hsub, hfinal, -⟩ := decided_once rfl annsCodec_lawful coherent_annsTables hpend h₁ h₂
  obtain ⟨req, hreq, happ⟩ := hfinal _ hst (fun h => by cases h)
  exact ⟨es₁, c₁, es₂, c₂, h₁, hst, h₂, of_decide_eq_true hlen, hsub, req, hreq, happ⟩

/-- **A decided request is decided again**: Ann's request is approved, approved
once more, and rejected. It ends as rejected, and two jobs were submitted for
it. -/
theorem decided_again :
    ∃ es₁ c₁ es₂ c₂,
      (master annsPlatform).Run (fun c ev => wired c ev = true)
        (masterStart none annsTables ()) es₁ c₁ ∧
      stored annsCodec "req-1" c₁.state.adminDb = some (decidedAt105 .approved annsRequest) ∧
      (master annsPlatform).Run (fun c ev => wired c ev = true) c₁ es₂ c₂ ∧
      stored annsCodec "req-1" c₂.state.adminDb = some (decidedAt105 .rejected annsRequest) ∧
      submissions "req-1" (es₁ ++ es₂) = 2 := by
  obtain ⟨es₁, c₁, h₁, hp⟩ := System.exists_trace (S := master annsPlatform) (g := wired)
    (c := masterStart none annsTables ())
    (p := fun es c => submissions "req-1" es = 1 ∧
      stored annsCodec "req-1" c.state.adminDb = some (decidedAt105 .approved annsRequest) ∧
      ((master annsPlatform).play wired c (annsDecision 1 true 4 ++ annsDecision 2 false 3)).any
        fun c' => stored annsCodec "req-1" c'.state.adminDb =
            some (decidedAt105 .rejected annsRequest) ∧
          submissions "req-1" ((master annsPlatform).trace c
            (annsDecision 1 true 4 ++ annsDecision 2 false 3)) = 1)
    (annsDecision 0 true 4) (by decide +kernel)
  obtain ⟨hone, hst, hplay⟩ := of_decide_eq_true hp
  obtain ⟨es₂, c₂, h₂, hp₂⟩ := System.exists_trace (S := master annsPlatform) (p := fun es c' =>
    stored annsCodec "req-1" c'.state.adminDb = some (decidedAt105 .rejected annsRequest) ∧
      submissions "req-1" es = 1) _ hplay
  obtain ⟨hst₂, hone₂⟩ := of_decide_eq_true hp₂
  refine ⟨es₁, c₁, es₂, c₂, h₁, hst, h₂, hst₂, ?_⟩
  rw [submissions, List.countP_append]
  exact congrArg₂ (· + ·) hone hone₂

end CertOS
