import CertOS.Interleave.Serial
import CertOS.Master.Review

/-!
# What was approved is what runs

An approval submits a job with the specification that the record of the request has, and
marks the record as approved. From then on there are two copies of the specification, one
in the job and one in the record. The job keeps its own; the record stays open to
`UpdateJobRequest`, which does not look at its status.

`CertOS.RunsAsApproved` says that the copies agree. It holds along every run of tasks one at
a time in which each request is reviewed once, job identifiers are fresh, and no update
changes the archive of an approved request (`CertOS.approved_is_run`). An upload that comes after
the approval breaks it (`CertOS.upload_after_approval`).
-/

namespace CertOS

open Interleave

variable {Fs : Type} {P : Platform Tables Fs}

/-! ### The law -/

/-- The jobs that reviews of request `k` have submitted. -/
def approvalJobs (k : String) (es : List MasterEvent) : List String :=
  es.filterMap fun
    | .did _ t _ (.job (.submitJob _ _ _)) jobId =>
      if (reviewOf k t).isSome then some jobId else none
    | _ => none

/-- **What was approved is what runs**: the record of an approved request has the specification
of the one job that its approval has submitted. -/
def RunsAsApproved (J : JsonCodec) (es : List MasterEvent) (s : MasterState Tables Fs) : Prop :=
  ∀ k req, stored J k s.adminDb = some req → req.status = .approved →
    ∃ jobId info, approvalJobs k es = [jobId] ∧ s.jobMgr.jobs.lookup jobId = some info ∧
      info.spec = req.requestedSpec

/-! ### The conditions -/

/-- Tasks are carried out one at a time. -/
def serially (c : MasterConfig Tables Fs) : MasterEvent → Bool
  | .start _ => c.idle
  | .did .. => true

/-- A request is reviewed once: a review starts only if there is no other that was not turned
away. -/
def reviewedOnce (c : MasterConfig Tables Fs) : MasterEvent → Bool
  | .start (.rpc _ (.adminReviewRequest r)) =>
    c.threads.all fun th => !reviewing r.requestId (fun _ => true) th
  | _ => true

/-- An update that is carried out does not change the archive of an approved request. -/
def sparesApproved (J : JsonCodec) (c : MasterConfig Tables Fs) : MasterEvent → Bool
  | .did _ (.rpc _ (.updateJobRequest u)) e (.store (.updateRequestStatus _ _ _)) _ =>
    !e.sqliteOk || (stored J u.requestId c.state.adminDb).all fun req =>
      req.status ≠ .approved ∨ u.requestedSpec.archivePath = "" ∨
        u.requestedSpec.archivePath = req.requestedSpec.archivePath
  | _ => true

/-- A step that meets all conditions. -/
structure ApprovalStep (J : JsonCodec) (c : MasterConfig Tables Fs) (ev : MasterEvent) : Prop where
  serially : serially c ev = true
  once : reviewedOnce c ev = true
  fresh : freshJobId c ev = true
  spares : sparesApproved J c ev = true

/-! ### One step -/

section Step

variable {k : String} {es : List MasterEvent} {c : MasterConfig Tables Fs} {i : ℕ} {t : Task}
  {e : Env} {op : MasterOp}

theorem approvalJobs_start {u : Task} :
    approvalJobs k (es ++ [.start u]) = approvalJobs k es := by
  rw [approvalJobs, List.filterMap_append]
  exact List.append_nil _

theorem approvalJobs_of_not_submits {a : op.Res} (h : submits op = false) :
    approvalJobs k (es ++ [.did i t e op a]) = approvalJobs k es := by
  rw [approvalJobs, List.filterMap_append]
  cases op with
  | job o =>
    cases o with
    | submitJob spec userId username => cases h
    | _ => exact List.append_nil _
  | _ => exact List.append_nil _

theorem approvalJobs_of_none {a : op.Res} (h : reviewOf k t = none) :
    approvalJobs k (es ++ [.did i t e op a]) = approvalJobs k es := by
  rw [approvalJobs, List.filterMap_append]
  cases op with
  | job o =>
    cases o with
    | submitJob spec userId username => simp [approvalJobs, h]
    | _ => exact List.append_nil _
  | _ => exact List.append_nil _

theorem approvalJobs_submitJob {r : ReviewRequest} (h : reviewOf k t = some r) {spec : JobSpec}
    {userId username jobId : String} :
    approvalJobs k (es ++ [.did i t e (.job (.submitJob spec userId username)) jobId]) =
      approvalJobs k es ++ [jobId] := by
  rw [approvalJobs, List.filterMap_append, approvalJobs]
  congr 1
  simp [h]

/-- A job keeps its specification. -/
theorem spec_of_freshJobId (hf : freshJobId c (.did i t e op (c.state.exec P e op).1) = true)
    {j : String} {info : JobInfo} (hj : c.state.jobMgr.jobs.lookup j = some info) :
    ∃ info', (c.state.exec P e op).2.jobMgr.jobs.lookup j = some info' ∧
      info'.spec = info.spec := by
  rcases lookup_of_freshJobId hf hj with h | ⟨o, -, -, h⟩
  · exact ⟨info, h, rfl⟩
  · exact ⟨_, h, (JobManager.touch_keeps e.now o j info).2⟩

/-- **A step keeps the law** if the requests that are approved after it were approved before it,
with the same specification, and got no further job. -/
theorem RunsAsApproved.step (h : RunsAsApproved P.json es c.state)
    (hf : freshJobId c (.did i t e op (c.state.exec P e op).1) = true)
    (hkeep : ∀ k req, stored P.json k (c.state.exec P e op).2.adminDb = some req →
      req.status = .approved →
        approvalJobs k (es ++ [.did i t e op (c.state.exec P e op).1]) = approvalJobs k es ∧
        ∃ req₀, stored P.json k c.state.adminDb = some req₀ ∧ req₀.status = .approved ∧
          req₀.requestedSpec = req.requestedSpec) :
    RunsAsApproved P.json (es ++ [.did i t e op (c.state.exec P e op).1])
      (c.state.exec P e op).2 := by
  intro k req hst happ
  obtain ⟨hjobs, req₀, hst₀, happ₀, hspec₀⟩ := hkeep k req hst happ
  obtain ⟨jobId, info, hone, hlook, hspec⟩ := h k req₀ hst₀ happ₀
  obtain ⟨info', hlook', hspec'⟩ := spec_of_freshJobId hf hlook
  exact ⟨jobId, info', hjobs.trans hone, hlook', (hspec'.trans hspec).trans hspec₀⟩

end Step

/-! ### Between the tasks -/

/-- What holds when no task is under way. -/
structure Tidy (P : Platform Tables Fs) (es : List MasterEvent) (s : MasterState Tables Fs)
    (threads : List (Thread MasterOp.Res Task Reply)) : Prop where
  coherent : Coherent P.json s.adminDb
  asApproved : RunsAsApproved P.json es s
  /-- A request for which a job was submitted has been reviewed. -/
  reviewed : ∀ k, approvalJobs k es ≠ [] → ∃ th ∈ threads, reviewing k (fun _ => true) th = true

/-- The rest of a task that runs alone after the threads `front` keeps the law. -/
abbrev KeepsLaw (P : Platform Tables Fs) (front : List (Thread MasterOp.Res Task Reply)) (t : Task)
    (p : MasterProg Reply) (es : List MasterEvent) (s : MasterState Tables Fs) : Prop :=
  (master P).Alone (ApprovalStep P.json) (RunsAsApproved P.json)
    (fun es c => Tidy P es c.state c.threads) front t p es s

section Tasks

variable {front : List (Thread MasterOp.Res Task Reply)} {t : Task} {es : List MasterEvent}
  {s : MasterState Tables Fs} {k : String}

theorem Tidy.mono {threads threads' : List (Thread MasterOp.Res Task Reply)}
    (h : Tidy P es s threads) (hsub : ∀ th ∈ threads, th ∈ threads') : Tidy P es s threads' where
  coherent := h.coherent
  asApproved := h.asApproved
  reviewed k hk := by
    obtain ⟨th, hth, hr⟩ := h.reviewed k hk
    exact ⟨th, hsub th hth, hr⟩

/-- A thread that has returned without a submission. -/
theorem Tidy.ret (h : Tidy P es s front) (a : Reply) : KeepsLaw P front t (.ret a) es s :=
  h.mono fun _ hth => List.mem_append_left _ hth

/-! ### Tasks that update no record -/

/-- **A task that updates no record keeps the law.** -/
theorem alone_of_only (hP : P.store = idealStore) (hJ : P.json.Lawful) {p : MasterProg Reply}
    (hp : p.Only fun op => WellFormed P.json op ∧ ∀ k, ¬Touches k op)
    (hr : ∀ k, reviewOf k t = none) (h : Tidy P es s front) : KeepsLaw P front t p es s := by
  induction p generalizing es s with
  | ret a => exact h.ret a
  | call op cont ih =>
    intro e hg
    have hlaw := RunsAsApproved.step h.asApproved hg.fresh fun k req hst happ => by
      refine ⟨approvalJobs_of_none (hr k), ?_⟩
      rcases stored_exec (e := e) (s := s) hP hJ hp.1.1 k with hsame | ⟨req', hst', hwhy⟩
      · exact ⟨req, hsame ▸ hst, happ, rfl⟩
      · rcases hwhy with ⟨-, -, hpend⟩ | ⟨htouch, -⟩
        · -- a new request is not approved
          obtain rfl := Option.some.inj (hst.symm.trans hst')
          rw [hpend] at happ
          cases happ
        · exact absurd htouch (hp.1.2 k)
    refine ⟨hlaw, ih _ (hp.2 _) ⟨h.coherent.exec hP hJ hp.1.1, hlaw, fun k hk => ?_⟩⟩
    rw [approvalJobs_of_none (hr k)] at hk
    exact h.reviewed k hk

/-! ### Updates -/

theorem requestedSpec_withArchive {path : String} {req : JobRequest}
    (h : path = "" ∨ path = req.requestedSpec.archivePath) :
    (MasterService.withArchive path req).requestedSpec = req.requestedSpec := by
  rw [MasterService.withArchive]
  split
  · rfl
  · rename_i hne
    rw [h.resolve_left hne]

/-- The write of an update keeps the law. -/
theorem alone_updateAt_storing (hP : P.store = idealStore) (hJ : P.json.Lawful)
    {metadata : Metadata} {u : JobRequest} {req : JobRequest} (h : Tidy P es s front)
    (hst : stored P.json u.requestId s.adminDb = some req) :
    KeepsLaw P front (.rpc metadata (.updateJobRequest u)) (updateAt P.json u (.storing req))
      es s := by
  have hr (k : String) : reviewOf k (.rpc metadata (.updateJobRequest u)) = none := rfl
  rw [updateAt_storing]
  cases hd : P.json.print (MasterService.withArchive u.requestedSpec.archivePath req) with
  | none => exact h.ret _
  | some data =>
    intro e hg
    have hlaw := RunsAsApproved.step h.asApproved hg.fresh fun k req' hst' happ => by
      refine ⟨approvalJobs_of_none (hr k), ?_⟩
      rcases stored_write (e := e) (s := s) hP hJ hd req.requestId req.status.toInt k with
        hsame | ⟨hok, hk, hnew⟩
      · exact ⟨req', hsame ▸ hst', happ, rfl⟩
      · -- the record that is written is the one that was read
        obtain rfl := Option.some.inj (hst'.symm.trans hnew)
        rw [h.coherent.of_stored hst] at hk
        subst hk
        rw [withArchive_status] at happ
        refine ⟨req, hst, happ, ?_⟩
        have hspares := hg.spares
        rw [sparesApproved, hok] at hspares
        dsimp only at hspares
        rw [hst] at hspares
        have hcond := of_decide_eq_true ((Bool.false_or _).symm.trans hspares)
        exact (requestedSpec_withArchive (hcond.resolve_left fun hne => hne happ)).symm
    have hw : WellFormed P.json (.store (.updateRequestStatus req.requestId req.status.toInt
        data)) := ⟨_, hd, (withArchive_requestId req _).symm, by rw [withArchive_status]⟩
    refine ⟨hlaw, Tidy.ret ⟨h.coherent.exec hP hJ hw, hlaw, fun k hk => ?_⟩ _⟩
    rw [approvalJobs_of_none (hr k)] at hk
    exact h.reviewed k hk

/-- A step that reads keeps the law. -/
theorem Tidy.read (h : Tidy P es s front) {i : ℕ} {e : Env} {op : MasterOp} {a : op.Res}
    (hsub : submits op = false) (hs : (s.exec P e op).2 = s) :
    Tidy P (es ++ [.did i t e op a]) (s.exec P e op).2 front := by
  rw [hs]
  refine ⟨h.coherent, fun k req hst happ => ?_, fun k hk => ?_⟩
  · obtain ⟨jobId, info, hone, hlook, hspec⟩ := h.asApproved k req hst happ
    exact ⟨jobId, info, (approvalJobs_of_not_submits hsub).trans hone, hlook, hspec⟩
  · rw [approvalJobs_of_not_submits hsub] at hk
    exact h.reviewed k hk

/-- So does the listing with which updates and reviews begin. -/
theorem Tidy.listing (hP : P.store = idealStore) (h : Tidy P es s front) (t : Task) (e : Env) :
    Tidy P (es ++ [.did front.length t e (.store .listRequests)
        (s.exec P e (.store .listRequests)).1])
      (s.exec P e (.store .listRequests)).2 front :=
  h.read rfl (by
    rw [MasterState.exec_store, hP]
    rfl)

/-- **An update keeps the law.** -/
theorem alone_updateJobRequest (hP : P.store = idealStore) (hJ : P.json.Lawful)
    {metadata : Metadata} {u : JobRequest} (h : Tidy P es s front) :
    KeepsLaw P front (.rpc metadata (.updateJobRequest u)) (updateAt P.json u .reading) es s := by
  rw [updateAt_reading]
  intro e hg
  have htidy := h.listing hP (.rpc metadata (.updateJobRequest u)) e
  refine ⟨htidy.asApproved, ?_⟩
  change KeepsLaw P front _ (updateAt P.json u (updateRead P.json u _)) _ _
  rw [updateRead]
  split
  · exact htidy.ret _
  · rename_i hne
    split
    · exact htidy.ret _
    · rename_i req hp
      exact alone_updateAt_storing hP hJ htidy
        (stored_of_listing (keepsRequests_of_eq hP) hne hp)

/-! ### Reviews -/

/-- What a review of request `k` knows while it has the request in hand. -/
structure InHand (P : Platform Tables Fs) (k : String) (req : JobRequest) (es : List MasterEvent)
    (s : MasterState Tables Fs) (front : List (Thread MasterOp.Res Task Reply)) : Prop where
  coherent : Coherent P.json s.adminDb
  asApproved : RunsAsApproved P.json es s
  /-- A job was submitted for another request only if it has been reviewed. -/
  others : ∀ k', k' ≠ k → approvalJobs k' es ≠ [] →
    ∃ th ∈ front, reviewing k' (fun _ => true) th = true
  stored : stored P.json k s.adminDb = some req
  notApproved : req.status ≠ .approved

/-- The job of the approval is there, with the specification of the request. -/
def HasJob (k : String) (req : JobRequest) (es : List MasterEvent) (s : MasterState Tables Fs) :
    Prop :=
  ∃ jobId info, approvalJobs k es = [jobId] ∧ s.jobMgr.jobs.lookup jobId = some info ∧
    info.spec = req.requestedSpec

theorem reviewOf_of_ne {k' : String} {metadata : Metadata} {r : ReviewRequest}
    (h : k' ≠ r.requestId) : reviewOf k' (.rpc metadata (.adminReviewRequest r)) = none :=
  if_neg (Ne.symm h)

theorem reviewOf_self {metadata : Metadata} {r : ReviewRequest} :
    reviewOf r.requestId (.rpc metadata (.adminReviewRequest r)) = some r := if_pos rfl

/-- A review that has returned and was not turned away. -/
theorem tidy_reviewed {metadata : Metadata} {r : ReviewRequest} {a : Reply}
    (hcoh : Coherent P.json s.adminDb) (hlaw : RunsAsApproved P.json es s)
    (hothers : ∀ k', k' ≠ r.requestId → approvalJobs k' es ≠ [] →
      ∃ th ∈ front, reviewing k' (fun _ => true) th = true)
    (ha : turnedAway ⟨.rpc metadata (.adminReviewRequest r), .ret a⟩ = false) :
    KeepsLaw P front (.rpc metadata (.adminReviewRequest r)) (.ret a) es s := by
  refine ⟨hcoh, hlaw, fun k' hk' => ?_⟩
  by_cases hk : k' = r.requestId
  · subst hk
    refine ⟨_, List.mem_append_right _ List.mem_cons_self, ?_⟩
    rw [reviewing, reviewOf_self, ha]
    rfl
  · obtain ⟨th, hth, hr⟩ := hothers k' hk hk'
    exact ⟨th, List.mem_append_left _ hth, hr⟩

/-- After the decision is written, an approved request has the job that was submitted for it. -/
theorem InHand.decided (hP : P.store = idealStore) (hJ : P.json.Lawful) {r : ReviewRequest}
    {req : JobRequest} {now : ℤ} {data : String} (h : InHand P r.requestId req es s front)
    (hjob : r.approve = true → HasJob r.requestId req es s)
    (hd : P.json.print (MasterService.reviewed now r req) = some data) {es' : List MasterEvent}
    (hquiet : ∀ k', approvalJobs k' es' = approvalJobs k' es) (e : Env) :
    RunsAsApproved P.json es' (s.exec P e (.store (.updateRequestStatus req.requestId
      (MasterService.reviewed now r req).status.toInt data))).2 := by
  intro k' req' hst' happ
  rw [hquiet]
  rcases stored_write (e := e) (s := s) hP hJ hd req.requestId
    (MasterService.reviewed now r req).status.toInt k' with hsame | ⟨-, hk', hnew⟩
  · exact h.asApproved k' req' (hsame ▸ hst') happ
  · obtain rfl := Option.some.inj (hst'.symm.trans hnew)
    obtain rfl := (h.coherent.of_stored h.stored).symm.trans hk'
    cases happrove : r.approve with
    | false =>
      rw [MasterService.reviewed, happrove] at happ
      cases happ
    | true => exact hjob happrove

/-- **The write of a review keeps the law.** -/
theorem alone_reviewAt_storing (hP : P.store = idealStore) (hJ : P.json.Lawful)
    {metadata : Metadata} {r : ReviewRequest} {req : JobRequest} {now : ℤ}
    (h : InHand P r.requestId req es s front)
    (hjob : r.approve = true → HasJob r.requestId req es s) :
    KeepsLaw P front (.rpc metadata (.adminReviewRequest r))
      (reviewAt P.json r (.storing req now)) es s := by
  rw [reviewAt_storing]
  cases hd : P.json.print (MasterService.reviewed now r req) with
  | none =>
    exact tidy_reviewed h.coherent h.asApproved h.others (by simp [turnedAway, Thread.result])
  | some data =>
    intro e hg
    have hw : WellFormed P.json (.store (.updateRequestStatus req.requestId
        (MasterService.reviewed now r req).status.toInt data)) := ⟨_, hd, rfl, rfl⟩
    refine ⟨h.decided hP hJ hjob hd (fun _ => approvalJobs_of_not_submits rfl) e,
      tidy_reviewed (h.coherent.exec hP hJ hw)
        (h.decided hP hJ hjob hd (fun _ => approvalJobs_of_not_submits rfl) e)
        (fun k' hne hk' => ?_) ?_⟩
    · rw [approvalJobs_of_not_submits rfl] at hk'
      exact h.others k' hne hk'
    · simp [turnedAway, Thread.result, reviewDone]

/-- **The submission of a review keeps the law.** -/
theorem alone_reviewAt_submitting (hP : P.store = idealStore) (hJ : P.json.Lawful)
    {metadata : Metadata} {r : ReviewRequest} {req : JobRequest} {now : ℤ}
    (h : InHand P r.requestId req es s front) (hnone : approvalJobs r.requestId es = []) :
    KeepsLaw P front (.rpc metadata (.adminReviewRequest r))
      (reviewAt P.json r (.submitting req now)) es s := by
  rw [reviewAt_submitting]
  intro e hg
  have hlaw := RunsAsApproved.step h.asApproved hg.fresh fun k' req' hst' happ => by
    refine ⟨approvalJobs_of_none (reviewOf_of_ne ?_), req', hst', happ, rfl⟩
    -- the request in hand is not approved yet
    rintro rfl
    obtain rfl := Option.some.inj (h.stored.symm.trans hst')
    exact h.notApproved happ
  refine ⟨hlaw, alone_reviewAt_storing hP hJ ⟨h.coherent, hlaw, fun k' hne hk' => ?_, h.stored,
    h.notApproved⟩ fun _ => ?_⟩
  · rw [approvalJobs_of_none (reviewOf_of_ne hne)] at hk'
    exact h.others k' hne hk'
  · refine ⟨_, _, ?_, AList.lookup_insert _, rfl⟩
    rw [approvalJobs_submitJob reviewOf_self, hnone]
    rfl

/-- A review that has read the request keeps the law. -/
theorem alone_reviewAt_deciding (hP : P.store = idealStore) (hJ : P.json.Lawful)
    {metadata : Metadata} {r : ReviewRequest} {req : JobRequest} (h : Tidy P es s front)
    (hnone : approvalJobs r.requestId es = [])
    (hst : stored P.json r.requestId s.adminDb = some req) :
    KeepsLaw P front (.rpc metadata (.adminReviewRequest r)) (reviewAt P.json r (.deciding req))
      es s := by
  rw [reviewAt_deciding]
  intro e hg
  have htidy : Tidy P (es ++ [.did front.length (.rpc metadata (.adminReviewRequest r)) e .now
      e.now]) s front := h.read rfl rfl
  have hnone' : approvalJobs r.requestId (es ++ [.did front.length
      (.rpc metadata (.adminReviewRequest r)) e .now e.now]) = [] :=
    (approvalJobs_of_not_submits rfl).trans hnone
  have hhand : InHand P r.requestId req _ s front :=
    ⟨htidy.coherent, htidy.asApproved, fun k' _ hk' => htidy.reviewed k' hk', hst, fun happ => by
      obtain ⟨jobId, info, hone, -⟩ := htidy.asApproved _ req hst happ
      rw [hnone'] at hone
      cases hone⟩
  refine ⟨htidy.asApproved, ?_⟩
  change KeepsLaw P front _ (reviewAt P.json r (if r.approve = true then _ else _)) _ _
  split
  · exact alone_reviewAt_submitting hP hJ hhand hnone'
  · rename_i hreject
    exact alone_reviewAt_storing hP hJ hhand fun happrove => absurd happrove hreject

/-- **A review keeps the law**, if no job has been submitted for its request. -/
theorem alone_adminReviewRequest (hP : P.store = idealStore) (hJ : P.json.Lawful)
    {metadata : Metadata} {r : ReviewRequest} (h : Tidy P es s front)
    (hnone : approvalJobs r.requestId es = []) :
    KeepsLaw P front (.rpc metadata (.adminReviewRequest r)) (reviewAt P.json r .reading) es s := by
  rw [reviewAt_reading]
  intro e hg
  have htidy := h.listing hP (.rpc metadata (.adminReviewRequest r)) e
  refine ⟨htidy.asApproved, ?_⟩
  change KeepsLaw P front _ (reviewAt P.json r (reviewRead P.json r _)) _ _
  rw [reviewRead]
  split
  · exact htidy.ret _
  · rename_i hne
    split
    · exact htidy.ret _
    · rename_i req hp
      exact alone_reviewAt_deciding hP hJ htidy ((approvalJobs_of_not_submits rfl).trans hnone)
        (stored_of_listing (keepsRequests_of_eq hP) hne hp)

end Tasks

/-! ### Runs -/

section Runs

variable {es : List MasterEvent} {c : MasterConfig Tables Fs}

theorem Tidy.start (h : Tidy P es c.state c.threads) (t : Task) :
    Tidy P (es ++ [.start t]) c.state c.threads where
  coherent := h.coherent
  asApproved k req hst happ := by
    rw [approvalJobs_start]
    exact h.asApproved k req hst happ
  reviewed k hk := by
    rw [approvalJobs_start] at hk
    exact h.reviewed k hk

/-- A review that may start has no job yet. -/
theorem approvalJobs_eq_nil_of_once (h : Tidy P es c.state c.threads) {metadata : Metadata}
    {r : ReviewRequest}
    (hg : reviewedOnce c (.start (.rpc metadata (.adminReviewRequest r))) = true) :
    approvalJobs r.requestId es = [] := by
  by_contra hne
  obtain ⟨th, hth, hr⟩ := h.reviewed _ hne
  have hnot := List.all_eq_true.mp hg th hth
  rw [hr] at hnot
  cases hnot

/-- **Every task keeps the law.** -/
theorem keepsLaw_body (hP : P.store = idealStore) (hJ : P.json.Lawful) {t : Task}
    (h : Tidy P es c.state c.threads) (hg : ApprovalStep P.json c (.start t)) :
    KeepsLaw P c.threads t ((master P).body t) (es ++ [.start t]) c.state := by
  have hstart := h.start t
  cases ht : t.onRequests with
  | false =>
    refine alone_of_only hP hJ ((only_of_not_onRequests P ht).mono fun op hop =>
      ⟨wellFormed_of_not_writesRequests hop, fun _ => not_touches_of_not_writesRequests hop⟩)
      (fun k => ?_) hstart
    cases t with
    | rpc metadata rpc =>
      cases rpc with
      | adminReviewRequest r => cases ht
      | _ => rfl
    | _ => rfl
  | true =>
    cases t with
    | rpc metadata rpc =>
      rw [master_body_rpc]
      cases rpc with
      | submitPublicRequest request =>
        refine alone_of_only hP hJ (Prog.only_map.mpr (MasterService.only_submitPublicRequest _
          ⟨trivial, fun _ => id⟩ ⟨trivial, fun _ => id⟩ fun req data hd hpend => ?_))
          (fun _ => rfl) hstart
        exact ⟨⟨req, hd, rfl, rfl, hpend⟩, fun _ => id⟩
      | updateJobRequest u => exact alone_updateJobRequest hP hJ hstart
      | adminReviewRequest r =>
        refine alone_adminReviewRequest hP hJ hstart ?_
        rw [approvalJobs_start]
        exact approvalJobs_eq_nil_of_once h hg.once
      | _ => cases ht
    | _ => cases ht

/-- **What was approved is what runs**, in every state of every run whose steps meet the
conditions, from a table in which no request is approved yet. -/
theorem approved_is_run (hP : P.store = idealStore) (hJ : P.json.Lawful) {db : Option Tables}
    {adminDb : Tables} {fairShare : Fs} (h₀ : Coherent P.json adminDb)
    (hnew : ∀ k req, stored P.json k adminDb = some req → req.status ≠ .approved)
    (h : (master P).Run (ApprovalStep P.json) (masterStart db adminDb fairShare) es c) :
    RunsAsApproved P.json es c.state := by
  have hlaw : RunsAsApproved P.json [] (masterStart db adminDb fairShare).state :=
    fun k req hst happ => absurd happ (hnew k req hst)
  have hrun := h.alone (A := RunsAsApproved P.json) (B := fun es c => Tidy P es c.state c.threads)
    (fun _ _ => rfl) rfl hlaw ⟨h₀, hlaw, fun k hk => absurd rfl hk⟩ (fun c t hg => hg.serially)
    fun es c t htidy hg => ⟨(htidy.start t).asApproved, keepsLaw_body hP hJ htidy hg⟩
  exact hrun.1

end Runs

/-! ### Ann's request -/

/-- Ann's request is approved, at time 105. -/
def annIsApproved : List (Choice Env Task) :=
  performs 0 (.rpc [] (.adminReviewRequest { requestId := "req-1", approve := true }))
    { now := 105 } 4

/-- Then her archive arrives. -/
def annUploadsLate : List (Choice Env Task) :=
  annIsApproved ++ performs 1 (.rpc [] (.updateJobRequest annsUpload)) { now := 106 } 2

/-- The condition of a run of tasks one at a time, in which requests are reviewed once and job
identifiers are fresh. -/
def orderly (c : MasterConfig Tables Unit) (ev : MasterEvent) : Bool :=
  serially c ev && reviewedOnce c ev && freshJobId c ev

/-- Ann's request is the only one. -/
theorem eq_annsRequest_of_stored {k : String} {req : JobRequest}
    (h : stored annsCodec k annsTables = some req) : req = annsRequest := by
  have hlookup : annsTables.jobRequests.lookup k =
      if k = "req-1" then some ⟨"", 0, (annsCodec.print annsRequest).getD ""⟩ else none := by
    rw [annsTables, Table.lookup_insert]
    rfl
  by_cases hk : k = "req-1"
  · rw [hk, stored_annsTables] at h
    exact (Option.some.inj h).symm
  · rw [stored, hlookup, if_neg hk] at h
    cases h

/-- The law at work: Ann's request is approved, and runs as it was approved. -/
theorem approved_is_run_ann : ∃ es c,
    (master annsPlatform).Run (ApprovalStep annsCodec) (masterStart none annsTables ()) es c ∧
      stored annsCodec "req-1" c.state.adminDb = some (decidedAt105 .approved annsRequest) ∧
      RunsAsApproved annsCodec es c.state := by
  obtain ⟨es, c, hrun, hc⟩ := System.exists_run (S := master annsPlatform)
    (g := fun c ev => orderly c ev && sparesApproved annsCodec c ev)
    (c := masterStart none annsTables ())
    (p := fun c => stored annsCodec "req-1" c.state.adminDb =
      some (decidedAt105 .approved annsRequest))
    annIsApproved (by decide +kernel)
  have hrun' : (master annsPlatform).Run (ApprovalStep annsCodec) (masterStart none annsTables ())
      es c := by
    refine hrun.mono fun c ev hg => ?_
    obtain ⟨horderly, hspares⟩ := Bool.and_eq_true_iff.mp hg
    obtain ⟨hg, hfresh⟩ := Bool.and_eq_true_iff.mp horderly
    obtain ⟨hserially, honce⟩ := Bool.and_eq_true_iff.mp hg
    exact ⟨hserially, honce, hfresh, hspares⟩
  refine ⟨es, c, hrun', of_decide_eq_true hc,
    approved_is_run rfl annsCodec_lawful coherent_annsTables (fun k req hst happ => ?_) hrun'⟩
  rw [eq_annsRequest_of_stored hst] at happ
  cases happ

/-- **An upload after the approval**: Ann's request is approved without an archive, her archive
is put into the record afterwards, and no job knows it. -/
theorem upload_after_approval : ∃ es c,
    (master annsPlatform).Run (fun c ev => orderly c ev = true) (masterStart none annsTables ())
        es c ∧
      stored annsCodec "req-1" c.state.adminDb = some (decidedAt105 .approved annsUpload) ∧
      ¬ RunsAsApproved annsCodec es c.state := by
  obtain ⟨es, c, hrun, hc⟩ := System.exists_run (S := master annsPlatform) (g := orderly)
    (c := masterStart none annsTables ())
    (p := fun c => stored annsCodec "req-1" c.state.adminDb =
        some (decidedAt105 .approved annsUpload) ∧
      ∀ info ∈ c.state.jobMgr.jobs.values, info.spec = {})
    annUploadsLate (by decide +kernel)
  obtain ⟨hst, hspec⟩ := of_decide_eq_true hc
  refine ⟨es, c, hrun, hst, fun hlaw => ?_⟩
  obtain ⟨jobId, info, -, hlook, hinfo⟩ := hlaw _ _ hst rfl
  rw [hspec info (Table.mem_values.mpr ⟨jobId, hlook⟩)] at hinfo
  exact absurd hinfo (by decide)

end CertOS
