import CertOS.Interleave.ReadModifyWrite
import CertOS.Master.Requests

/-!
# An update and a review of one request

`UpdateJobRequest` and `AdminReviewRequest` change different fields of a stored
request, but each reads the whole record and writes the whole record back, and
nothing holds the two steps together. They are the two writers of one cell of
`Interleave.Rmw`: `CertOS.Joint` relates a run of the two calls to it, and
`CertOS.Joint.step` is the simulation.

`CertOS.carries_iff` says for every interleaving what is stored when both calls
have been answered with success: the decision of the review and the new archive
path are both there if and only if the two calls did not overlap, or the review
wrote last and the archive path was no news. In the other interleavings one of
them is lost, and a request that was approved may be pending again
(`CertOS.approval_lost`).
-/

namespace CertOS

open Interleave

variable {Fs : Type} {P : Platform Tables Fs}

/-! ### The two calls -/

/-- The master in the state `s` when the two calls arrive: thread 0 is the
update, thread 1 the review. -/
def bothCalled (P : Platform Tables Fs) (md₁ md₂ : Metadata) (u : JobRequest) (r : ReviewRequest)
    (s : MasterState Tables Fs) : MasterConfig Tables Fs where
  state := s
  threads := [(master P).spawn (.rpc md₁ (.updateJobRequest u)),
    (master P).spawn (.rpc md₂ (.adminReviewRequest r))]

/-- Only the two calls move, and SQLite carries out what they ask for. -/
def onlyMoves : MasterEvent → Bool
  | .start _ => false
  | .did _ _ e _ _ => e.sqliteOk

/-- The order in which the two calls took their steps on the store: `false` for
the update, `true` for the review. -/
def storeOrder (es : List MasterEvent) : List Bool :=
  es.filterMap fun
    | .did i _ _ (.store _) _ => some (i = 1)
    | _ => none

/-- The time was read off the clock. -/
def ReadsClock (es : List MasterEvent) (now : ℤ) : Prop :=
  ∃ i t e, Event.did i t e .now now ∈ es

/-- The status a review decides for. -/
def decision (r : ReviewRequest) : JobRequestStatus := if r.approve then .approved else .rejected

/-- **The record carries both**: the decision of the review, with its comment and
the time the review read, and the archive path of the update. -/
def Carries (u : JobRequest) (r : ReviewRequest) (es : List MasterEvent) (req : JobRequest) :
    Prop :=
  req.status = decision r ∧ req.reviewComment = r.comment ∧ ReadsClock es req.reviewedAt ∧
    req.requestedSpec.archivePath = u.requestedSpec.archivePath

theorem storeOrder_snoc (es : List MasterEvent) (ev : MasterEvent) :
    storeOrder (es ++ [ev]) = storeOrder es ++ storeOrder [ev] :=
  List.filterMap_append

theorem ReadsClock.snoc {es : List MasterEvent} {now : ℤ} (h : ReadsClock es now)
    (ev : MasterEvent) : ReadsClock (es ++ [ev]) now := by
  obtain ⟨i, t, e, hm⟩ := h
  exact ⟨i, t, e, List.mem_append_left _ hm⟩

/-! ### The two calls as writers of a cell -/

/-- What the update may write after reading `x`. -/
def UpdateWrites (u : JobRequest) (x y : JobRequest) : Prop :=
  y = MasterService.withArchive u.requestedSpec.archivePath x

/-- What the review may write after reading `x`. -/
def ReviewWrites (r : ReviewRequest) (es : List MasterEvent) (x y : JobRequest) : Prop :=
  ∃ now, ReadsClock es now ∧ y = MasterService.reviewed now r x

/-- Where the update is as a writer. -/
def UpdatePlace.phase : UpdatePlace → Phase JobRequest
  | .reading => .idle
  | .storing req => .holds req
  | .ended _ => .wrote

/-- Where the review is as a writer. -/
def ReviewPlace.phase : ReviewPlace → Phase JobRequest
  | .reading => .idle
  | .deciding req | .submitting req _ | .storing req _ => .holds req
  | .ended _ => .wrote

/-- The time a review has read, while it has yet to write it. -/
def ReviewPlace.time : ReviewPlace → Option ℤ
  | .submitting _ now | .storing _ now => some now
  | _ => none

/-- A review that has looked at the clock keeps the time, wherever it goes. -/
theorem ReviewPlace.time_decided (approve : Bool) (x : JobRequest) (now : ℤ) :
    (if approve then ReviewPlace.submitting x now else .storing x now).time = some now := by
  cases approve <;> rfl

/-- A review that has looked at the clock holds the request that it has read. -/
theorem ReviewPlace.phase_decided (approve : Bool) (x : JobRequest) (now : ℤ) :
    (if approve then ReviewPlace.submitting x now else .storing x now).phase = .holds x := by
  cases approve <;> rfl

/-- **The simulation relation**: each call is at some place of its handler, and
together with the stored request they are two writers of a cell. -/
structure Joint (P : Platform Tables Fs) (md₁ md₂ : Metadata) (u : JobRequest) (r : ReviewRequest)
    (old : JobRequest) (es : List MasterEvent) (c : MasterConfig Tables Fs) (a : UpdatePlace)
    (b : ReviewPlace) (req : JobRequest) : Prop where
  threads : c.threads = [⟨.rpc md₁ (.updateJobRequest u), updateAt P.json u a⟩,
    ⟨.rpc md₂ (.adminReviewRequest r), reviewAt P.json r b⟩]
  cell : stored P.json r.requestId c.state.adminDb = some req
  rmw : Rmw (UpdateWrites u) (ReviewWrites r es) old (storeOrder es) a.phase b.phase req
  time : ∀ now, b.time = some now → ReadsClock es now

section Step

variable {md₁ md₂ : Metadata} {u : JobRequest} {r : ReviewRequest} {old : JobRequest}
  {es : List MasterEvent} {c c' : MasterConfig Tables Fs} {a : UpdatePlace} {b : ReviewPlace}
  {req : JobRequest}

/-- The writers keep to the row of the request. -/
theorem Joint.named (h : Joint P md₁ md₂ u r old es c a b req)
    (hold : cStr old.requestId = r.requestId) :
    (∀ x, a.phase = .holds x → cStr x.requestId = r.requestId) ∧
      ∀ x, b.phase = .holds x → cStr x.requestId = r.requestId := by
  have hU : ∀ x y, cStr x.requestId = r.requestId → UpdateWrites u x y →
      cStr y.requestId = r.requestId := by
    intro x y hx hy
    rw [hy, withArchive_requestId]
    exact hx
  have hR : ∀ x y, cStr x.requestId = r.requestId → ReviewWrites r es x y →
      cStr y.requestId = r.requestId := by
    rintro x y hx ⟨now, -, hy⟩
    rw [hy]
    exact hx
  have hall := h.rmw.all (I := fun x : JobRequest => cStr x.requestId = r.requestId) hold hU hR
  exact hall.2

theorem Joint.rmw_snoc (h : Joint P md₁ md₂ u r old es c a b req) (ev : MasterEvent) :
    Rmw (UpdateWrites u) (ReviewWrites r (es ++ [ev])) old (storeOrder es) a.phase b.phase req :=
  h.rmw.mono fun _ _ ⟨now, hnow, hy⟩ => ⟨now, hnow.snoc ev, hy⟩

section Threads

variable {t : Task} {e : Env} {op : MasterOp} {cont : op.Res → MasterProg Reply}

theorem Joint.threads_after_update (h : Joint P md₁ md₂ u r old es c a b req) :
    ((master P).after c 0 t e op cont).threads = [⟨t, cont (c.state.exec P e op).1⟩,
      ⟨.rpc md₂ (.adminReviewRequest r), reviewAt P.json r b⟩] := by
  simp only [System.after, h.threads, List.set_cons_zero, master_exec, master_forks, List.map_nil,
    List.append_nil]

theorem Joint.threads_after_review (h : Joint P md₁ md₂ u r old es c a b req) :
    ((master P).after c 1 t e op cont).threads =
      [⟨.rpc md₁ (.updateJobRequest u), updateAt P.json u a⟩,
        ⟨t, cont (c.state.exec P e op).1⟩] := by
  simp only [System.after, h.threads, List.set_cons_succ, List.set_cons_zero, master_exec,
    master_forks, List.map_nil, List.append_nil]

end Threads

/-- **A step of the update** is a step of the first writer. -/
theorem Joint.step_update (hP : P.store = idealStore) (hJ : P.json.Lawful)
    (hold : cStr old.requestId = r.requestId) (hid : u.requestId = r.requestId)
    (h : Joint P md₁ md₂ u r old es c a b req) {t : Task} {e : Env} {op : MasterOp}
    {cont : op.Res → MasterProg Reply} (hi : c.threads[0]? = some ⟨t, .call op cont⟩)
    (hok : e.sqliteOk = true) :
    ∃ a' req', Joint P md₁ md₂ u r old (es ++ [.did 0 t e op (c.state.exec P e op).1])
      ((master P).after c 0 t e op cont) a' b req' := by
  have hth := hi
  rw [h.threads] at hth
  obtain ⟨rfl, hcall⟩ := Thread.mk.inj (Option.some.inj hth)
  cases a with
  | reading =>
    rw [updateAt_reading] at hcall
    cases hcall
    obtain ⟨hne, hparse⟩ := findRequest_of_stored hJ h.cell
    refine ⟨.storing req, req, ?_, ?_, ?_, fun now hnow => (h.time now hnow).snoc _⟩
    · -- the listing shows the stored request
      simp only [h.threads_after_update, MasterState.exec_store, hP, idealStore, hok]
      rw [updateRead, hid, if_neg hne, hparse]
    · simpa only [System.after, master_exec, MasterState.exec_store, hP, idealStore] using h.cell
    · rw [storeOrder_snoc]
      exact (h.rmw_snoc _).read₁
  | storing x =>
    have hx : cStr x.requestId = r.requestId := (h.named hold).1 x rfl
    rw [updateAt_storing] at hcall
    cases hd : P.json.print (MasterService.withArchive u.requestedSpec.archivePath x) with
    | none =>
      rw [hd] at hcall
      cases hcall
    | some data =>
      rw [hd] at hcall
      cases hcall
      refine ⟨.ended (.status { success := true }),
        MasterService.withArchive u.requestedSpec.archivePath x, ?_, ?_, ?_,
        fun now hnow => (h.time now hnow).snoc _⟩
      · exact h.threads_after_update
      · exact stored_update hP hJ hok hx h.cell hd
      · rw [storeOrder_snoc]
        exact (h.rmw_snoc _).write₁ rfl
  | ended reply => cases hcall

/-- **A step of the review** is a step of the second writer, or takes it from
its read to its write. -/
theorem Joint.step_review (hP : P.store = idealStore) (hJ : P.json.Lawful)
    (hold : cStr old.requestId = r.requestId)
    (h : Joint P md₁ md₂ u r old es c a b req) {t : Task} {e : Env} {op : MasterOp}
    {cont : op.Res → MasterProg Reply} (hi : c.threads[1]? = some ⟨t, .call op cont⟩)
    (hok : e.sqliteOk = true) :
    ∃ b' req', Joint P md₁ md₂ u r old (es ++ [.did 1 t e op (c.state.exec P e op).1])
      ((master P).after c 1 t e op cont) a b' req' := by
  have hth := hi
  rw [h.threads] at hth
  obtain ⟨rfl, hcall⟩ := Thread.mk.inj (Option.some.inj hth)
  cases b with
  | reading =>
    rw [reviewAt_reading] at hcall
    cases hcall
    obtain ⟨hne, hparse⟩ := findRequest_of_stored hJ h.cell
    refine ⟨.deciding req, req, ?_, ?_, ?_, fun now hnow => by cases hnow⟩
    · simp only [h.threads_after_review, MasterState.exec_store, hP, idealStore, hok]
      rw [reviewRead, if_neg hne, hparse]
    · simpa only [System.after, master_exec, MasterState.exec_store, hP, idealStore] using h.cell
    · rw [storeOrder_snoc]
      exact (h.rmw_snoc _).read₂
  | deciding x =>
    -- the review reads the clock, and keeps the time it read for its write
    rw [reviewAt_deciding] at hcall
    cases hcall
    have hclock : ReadsClock (es ++ [.did 1 (.rpc md₂ (.adminReviewRequest r)) e .now
        (c.state.exec P e .now).1]) e.now :=
      ⟨1, _, e, List.mem_append_right _ (List.mem_singleton.mpr rfl)⟩
    refine ⟨if r.approve then .submitting x e.now else .storing x e.now, req, ?_, h.cell, ?_, ?_⟩
    · exact h.threads_after_review
    · rw [storeOrder_snoc, show storeOrder [_] = [] from rfl, List.append_nil,
        ReviewPlace.phase_decided]
      exact h.rmw_snoc _
    · intro now hnow
      obtain rfl := Option.some.inj ((ReviewPlace.time_decided r.approve x e.now).symm.trans hnow)
      exact hclock
  | submitting x now =>
    -- the submission touches the jobs and not the request
    rw [reviewAt_submitting] at hcall
    cases hcall
    refine ⟨.storing x now, req, ?_, h.cell, ?_, fun now hnow => (h.time now hnow).snoc _⟩
    · exact h.threads_after_review
    · rw [storeOrder_snoc, show storeOrder [_] = [] from rfl, List.append_nil]
      exact h.rmw_snoc _
  | storing x now =>
    have hx : cStr x.requestId = r.requestId := (h.named hold).2 x rfl
    rw [reviewAt_storing] at hcall
    cases hd : P.json.print (MasterService.reviewed now r x) with
    | none =>
      rw [hd] at hcall
      cases hcall
    | some data =>
      rw [hd] at hcall
      cases hcall
      refine ⟨.ended (reviewDone r), MasterService.reviewed now r x, ?_, ?_, ?_,
        fun now hnow => by cases hnow⟩
      · exact h.threads_after_review
      · exact stored_update hP hJ hok hx h.cell hd
      · rw [storeOrder_snoc]
        exact (h.rmw_snoc _).write₂ ⟨now, (h.time now rfl).snoc _, rfl⟩
  | ended reply => cases hcall

/-- **One step** of the run. -/
theorem Joint.step (hP : P.store = idealStore) (hJ : P.json.Lawful)
    (hold : cStr old.requestId = r.requestId) (hid : u.requestId = r.requestId)
    (h : Joint P md₁ md₂ u r old es c a b req) {ev : MasterEvent} (hm : onlyMoves ev = true)
    (hstep : (master P).Step c ev c') :
    ∃ a' b' req', Joint P md₁ md₂ u r old (es ++ [ev]) c' a' b' req' := by
  cases hstep with
  | start t => cases hm
  | did i t e op cont hi =>
    match i with
    | 0 =>
      obtain ⟨a', req', h'⟩ := h.step_update hP hJ hold hid hi hm
      exact ⟨a', b, req', h'⟩
    | 1 =>
      obtain ⟨b', req', h'⟩ := h.step_review hP hJ hold hi hm
      exact ⟨a, b', req', h'⟩
    | i + 2 =>
      -- there are two threads only
      rw [h.threads] at hi
      cases hi

/-- An update that has been answered with success has written. -/
theorem Joint.updated (h : Joint P md₁ md₂ u r old es c a b req) {resp : StatusResponse}
    (hres : c.result 0 = some (.status resp)) (hs : resp.success = true) : a.phase = .wrote := by
  obtain ⟨t, ht⟩ := Config.result_eq_some.mp hres
  rw [h.threads] at ht
  have hret := (Thread.mk.inj (Option.some.inj ht)).2
  cases a with
  | reading =>
    rw [updateAt_reading] at hret
    cases hret
  | storing x =>
    rw [updateAt_storing] at hret
    cases hd : P.json.print (MasterService.withArchive u.requestedSpec.archivePath x) with
    | none =>
      -- an update that cannot be printed answers, but not with success
      rw [hd] at hret
      obtain rfl : (_ : StatusResponse) = resp := Reply.status.inj (Prog.ret.inj hret)
      cases hs
    | some data =>
      rw [hd] at hret
      cases hret
  | ended reply => rfl

/-- A review that has been answered with success has written. -/
theorem Joint.reviewed (h : Joint P md₁ md₂ u r old es c a b req) {resp : StatusResponse}
    (hres : c.result 1 = some (.status resp)) : b.phase = .wrote := by
  obtain ⟨t, ht⟩ := Config.result_eq_some.mp hres
  rw [h.threads] at ht
  have hret := (Thread.mk.inj (Option.some.inj ht)).2
  cases b with
  | reading =>
    rw [reviewAt_reading] at hret
    cases hret
  | deciding x =>
    rw [reviewAt_deciding] at hret
    cases hret
  | submitting x now => cases hret
  | storing x now =>
    rw [reviewAt_storing] at hret
    cases hd : P.json.print (MasterService.reviewed now r x) with
    | none =>
      rw [hd] at hret
      cases hret
    | some data =>
      rw [hd] at hret
      cases hret
  | ended reply => rfl

end Step

/-! ### Every interleaving -/

theorem decision_ne_pending (r : ReviewRequest) : decision r ≠ .pending := by
  rw [decision]
  split <;> exact fun h => by cases h

theorem withArchive_of_ne {path : String} (h : path ≠ "") (req : JobRequest) :
    MasterService.withArchive path req =
      { req with requestedSpec := { req.requestedSpec with archivePath := path } } := by
  rw [MasterService.withArchive, if_neg h]

/-- In every run of the two calls they are two writers of the stored request. -/
theorem joint_of_run (hP : P.store = idealStore) (hJ : P.json.Lawful) {md₁ md₂ : Metadata}
    {u : JobRequest} {r : ReviewRequest} {s : MasterState Tables Fs} {old : JobRequest}
    {es : List MasterEvent} {c : MasterConfig Tables Fs} (hcoh : Coherent P.json s.adminDb)
    (hid : u.requestId = r.requestId) (hold : stored P.json r.requestId s.adminDb = some old)
    (h : (master P).Run (fun _ ev => onlyMoves ev = true) (bothCalled P md₁ md₂ u r s) es c) :
    ∃ a b req, Joint P md₁ md₂ u r old es c a b req := by
  have hname := hcoh.of_stored hold
  refine h.invariant (I := fun es c => ∃ a b req, Joint P md₁ md₂ u r old es c a b req)
    ⟨.reading, .reading, old, ?_, hold, .start, fun now hnow => by cases hnow⟩ ?_
  · simp only [bothCalled, System.spawn, master_body_rpc]
    rfl
  · rintro es c ev c' ⟨a, b, req, hj⟩ hm hstep
    exact hj.step hP hJ hname hid hm hstep

/-- **What two such writers leave behind** has both updates if and only if they
were apart, or the review wrote last and the path was there before. -/
theorem carries_iff_of_wrote {u : JobRequest} {r : ReviewRequest} {old req : JobRequest}
    {es : List MasterEvent} (hpend : old.status = .pending)
    (hpath : u.requestedSpec.archivePath ≠ "")
    (h : Rmw (UpdateWrites u) (ReviewWrites r es) old (storeOrder es) .wrote .wrote req) :
    Carries u r es req ↔
      Rmw.Apart (storeOrder es) ∨ ((storeOrder es).getLast? = some true ∧
        old.requestedSpec.archivePath = u.requestedSpec.archivePath) := by
  rcases h.outcome with ⟨hap, y, hy⟩ | ⟨hap, hlast, now, hnow, rfl⟩ | ⟨hap, hlast, hy⟩
  · refine ⟨fun _ => Or.inl hap, fun _ => ?_⟩
    rcases hy with ⟨rfl, now, hnow, rfl⟩ | ⟨⟨now, hnow, rfl⟩, rfl⟩
    · rw [withArchive_of_ne hpath]
      exact ⟨rfl, rfl, hnow, rfl⟩
    · rw [withArchive_of_ne hpath]
      exact ⟨rfl, rfl, hnow, rfl⟩
  · -- the review wrote last, over what the update had written
    constructor
    · rintro ⟨-, -, -, harch⟩
      exact Or.inr ⟨hlast, harch⟩
    · rintro (hap' | ⟨-, harch⟩)
      · exact absurd hap' hap
      · exact ⟨rfl, rfl, hnow, harch⟩
  · -- the update wrote last, and the decision is gone
    obtain rfl : req = _ := hy
    constructor
    · rintro ⟨hst, -⟩
      rw [withArchive_status, hpend] at hst
      exact absurd hst.symm (decision_ne_pending r)
    · rintro (hap' | ⟨hlast', -⟩)
      · exact absurd hap' hap
      · rw [hlast] at hlast'
        cases hlast'

/-- **No lost update**: when an update with a non-empty archive path and a review
of the same pending request have both been answered with success, the stored
record carries both if and only if the two calls were apart, or the review wrote
last and the archive path was the one the request already had. -/
theorem carries_iff (hP : P.store = idealStore) (hJ : P.json.Lawful) {md₁ md₂ : Metadata}
    {u : JobRequest} {r : ReviewRequest} {s : MasterState Tables Fs} {old : JobRequest}
    {es : List MasterEvent} {c : MasterConfig Tables Fs} {resp₁ resp₂ : StatusResponse}
    (hcoh : Coherent P.json s.adminDb) (hid : u.requestId = r.requestId)
    (hold : stored P.json r.requestId s.adminDb = some old) (hpend : old.status = .pending)
    (hpath : u.requestedSpec.archivePath ≠ "")
    (h : (master P).Run (fun _ ev => onlyMoves ev = true) (bothCalled P md₁ md₂ u r s) es c)
    (h₁ : c.result 0 = some (.status resp₁)) (hs₁ : resp₁.success = true)
    (h₂ : c.result 1 = some (.status resp₂)) :
    (∃ req, stored P.json r.requestId c.state.adminDb = some req ∧ Carries u r es req) ↔
      Rmw.Apart (storeOrder es) ∨ ((storeOrder es).getLast? = some true ∧
        old.requestedSpec.archivePath = u.requestedSpec.archivePath) := by
  obtain ⟨a, b, req, hj⟩ := joint_of_run hP hJ hcoh hid hold h
  -- both have written, so what is stored is one of the four outcomes
  have hrmw := hj.rmw
  rw [hj.updated h₁ hs₁, hj.reviewed h₂] at hrmw
  have hcarries : (∃ req', stored P.json r.requestId c.state.adminDb = some req' ∧
      Carries u r es req') ↔ Carries u r es req := by
    rw [hj.cell]
    constructor
    · rintro ⟨req', hreq', hc⟩
      obtain rfl := Option.some.inj hreq'
      exact hc
    · exact fun hc => ⟨req, rfl, hc⟩
  rw [hcarries]
  exact carries_iff_of_wrote hpend hpath hrmw

/-- Ann uploads her archive. -/
def annsUpdate : JobRequest where
  requestId := "req-1"
  requestedSpec := { archivePath := "/a.tgz" }

/-- An admin approves the request. -/
def annsReview : ReviewRequest := { requestId := "req-1", approve := true }

/-- The law at work: the update is done before the review begins, and both are
in the record. -/
theorem carries_iff_upload_first :
    ∃ es c, (master annsPlatform).Run (fun _ ev => onlyMoves ev = true)
        (bothCalled annsPlatform [] [] annsUpdate annsReview annsState) es c ∧
      ∃ req, stored annsCodec "req-1" c.state.adminDb = some req ∧
        Carries annsUpdate annsReview es req := by
  obtain ⟨es, c, h, hp⟩ := System.exists_trace (S := master annsPlatform)
    (g := fun _ ev => onlyMoves ev)
    (c := bothCalled annsPlatform [] [] annsUpdate annsReview annsState)
    (p := fun es c => storeOrder es = [false, false, true, true] ∧
      c.result 0 = some (.status { success := true }) ∧
      c.result 1 = some (reviewDone annsReview))
    [.move 0 { now := 101 }, .move 0 { now := 102 }, .move 1 { now := 104 }, .move 1 { now := 105 },
      .move 1 { now := 106 }, .move 1 { now := 107 }] (by decide +kernel)
  obtain ⟨horder, h₁, h₂⟩ := of_decide_eq_true hp
  refine ⟨es, c, h, (carries_iff rfl annsCodec_lawful coherent_annsTables rfl stored_annsTables rfl
    (by decide) h h₁ rfl h₂).mpr (Or.inl (Or.inl horder))⟩

/-- **An approval is lost**: the update reads the request, the review approves it
and is answered with success, and the update writes back what it has read. The
job has been submitted, and the request is pending again. -/
theorem approval_lost :
    ∃ es c, (master annsPlatform).Run (fun _ ev => onlyMoves ev = true)
        (bothCalled annsPlatform [] [] annsUpdate annsReview annsState) es c ∧
      c.result 0 = some (.status { success := true }) ∧
      c.result 1 = some (reviewDone annsReview) ∧
      stored annsCodec "req-1" c.state.adminDb = some annsUpload ∧
      annsUpload.status = .pending ∧
      ¬∃ req, stored annsCodec "req-1" c.state.adminDb = some req ∧
        Carries annsUpdate annsReview es req := by
  obtain ⟨es, c, h, hp⟩ := System.exists_trace (S := master annsPlatform)
    (g := fun _ ev => onlyMoves ev)
    (c := bothCalled annsPlatform [] [] annsUpdate annsReview annsState)
    (p := fun _ c => c.result 0 = some (.status { success := true }) ∧
      c.result 1 = some (reviewDone annsReview) ∧
      stored annsCodec "req-1" c.state.adminDb = some annsUpload)
    [.move 0 { now := 101 }, .move 1 { now := 104 }, .move 1 { now := 105 }, .move 1 { now := 106 },
      .move 1 { now := 107 }, .move 0 { now := 108 }] (by decide +kernel)
  obtain ⟨h₁, h₂, hst⟩ := of_decide_eq_true hp
  refine ⟨es, c, h, h₁, h₂, hst, rfl, ?_⟩
  rintro ⟨req, hreq, hdec, -⟩
  obtain rfl := Option.some.inj (hst.symm.trans hreq)
  cases hdec

end CertOS
