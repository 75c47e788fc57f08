import CertOS.Master.Submissions
import Mathlib.Data.Finset.Dedup
import Mathlib.Data.Finset.Order

/-!
# The time stamps of a job

A record has three times: when the job was submitted, when it was first reported as running,
and when it ended last. Four methods write them, and a job may be taken from any status to any
other one, also out of a status in which it has ended and back into one.

The stamps are in order nevertheless (`CertOS.JobManager.Ordered`), as long as the clock does
not go backwards and no identifier is drawn twice: whatever takes a job into a status in which
it has ended also stamps it, with a time that is at least as late as all times there are. The
invariant that carries this says in addition that no stamp is later than the clock
(`CertOS.JobManager.InOrder`).
-/

namespace CertOS

namespace JobManager

/-- **The history of a job is in order**: it starts after it was submitted and ends after
that, it is not running without a start, and it has not ended without an end. -/
structure Ordered (info : JobInfo) : Prop where
  started : info.startedAt = 0 ∨ info.submittedAt ≤ info.startedAt
  running : info.status = .running → info.startedAt ≠ 0
  ended : info.status = .completed ∨ info.status = .failed ∨ info.status = .cancelled →
    info.completedAt ≠ 0 ∧ info.submittedAt ≤ info.completedAt ∧ info.startedAt ≤ info.completedAt

/-- The history is in order, and none of it is later than `t`. -/
structure InOrder (t : ℤ) (info : JobInfo) : Prop extends Ordered info where
  submittedAt_le : info.submittedAt ≤ t
  startedAt_le : info.startedAt ≤ t

/-- **What a method does to the stamps of a record it changes**: the first start stays, a job
that is running has one, and a job that has ended is stamped with the time of the call. -/
structure Stamped (now : ℤ) (info info' : JobInfo) : Prop where
  submittedAt : info'.submittedAt = info.submittedAt
  startedAt : info'.startedAt = info.startedAt ∨ info.startedAt = 0 ∧ info'.startedAt = now
  running : info'.status = .running → info'.startedAt ≠ 0
  ended : info'.status.isTerminal = true → info'.completedAt = now

/-! ### One call -/

variable {t now : ℤ} {info info' : JobInfo}

theorem isTerminal_iff {status : JobStatus} :
    status.isTerminal = true ↔ status = .completed ∨ status = .failed ∨ status = .cancelled := by
  cases status <;> simp [JobStatus.isTerminal]

theorem setStatus_startedAt (now : ℤ) (status : JobStatus) (nodeId : String) (info : JobInfo) :
    (setStatus now status nodeId info).startedAt =
      if status = .running ∧ info.startedAt = 0 then now else info.startedAt := by
  cases status <;> by_cases hn : nodeId = "" <;> by_cases hs : info.startedAt = 0 <;>
    simp [setStatus, hn, hs]

theorem setStatus_completedAt (now : ℤ) (status : JobStatus) (nodeId : String) (info : JobInfo)
    (h : status.isTerminal = true) : (setStatus now status nodeId info).completedAt = now := by
  rcases isTerminal_iff.mp h with rfl | rfl | rfl <;> rfl

/-- A status update stamps the record, whatever the job was and is to be. -/
theorem stamped_setStatus (hnow : 0 < now) (status : JobStatus) (nodeId : String)
    (info : JobInfo) : Stamped now info (setStatus now status nodeId info) where
  submittedAt := by
    have hdata := touch_data now (.updateJobStatus "" status nodeId) "" info
    rw [JobOp.touch, if_pos rfl] at hdata
    exact congrArg SubmissionData.submittedAt hdata
  startedAt := by
    rw [setStatus_startedAt]
    split
    · rename_i h
      exact Or.inr ⟨h.2, rfl⟩
    · exact Or.inl rfl
  running h := by
    rw [setStatus_status] at h
    rw [setStatus_startedAt]
    split
    · exact hnow.ne'
    · rename_i hs
      exact fun h0 => hs ⟨h, h0⟩
  ended h := by
    rw [setStatus_status] at h
    exact setStatus_completedAt now status nodeId info h

/-- **A call leaves a record alone or stamps it.** -/
theorem touch_stamped (hnow : 0 < now) (op : JobOp) (j : String) (info : JobInfo) :
    op.touch now j info = info ∨ Stamped now info (op.touch now j info) := by
  cases op with
  | updateJobStatus jobId status nodeId =>
    rw [JobOp.touch]
    split
    · exact Or.inr (stamped_setStatus hnow status nodeId info)
    · exact Or.inl rfl
  | failJobsOnNode nodeId =>
    rw [JobOp.touch, failOnNode]
    split
    · exact Or.inr ⟨rfl, Or.inl rfl, (fun h => by cases h), fun _ => rfl⟩
    · exact Or.inl rfl
  | cancelJob jobId =>
    rw [JobOp.touch, cancel]
    split_ifs
    · exact Or.inl rfl
    · exact Or.inr ⟨rfl, Or.inl rfl, (fun h => by cases h), fun _ => rfl⟩
    · exact Or.inl rfl
  | _ => exact Or.inl rfl

theorem InOrder.mono (h : InOrder t info) (ht : t ≤ now) : InOrder now info :=
  { h with
    submittedAt_le := h.submittedAt_le.trans ht
    startedAt_le := h.startedAt_le.trans ht }

theorem inOrder_newJob (hnow : 0 < now) (jobId : String) (spec : JobSpec)
    (userId username : String) : InOrder now (newJob now jobId spec userId username) where
  started := Or.inl rfl
  running h := by cases h
  ended h := by rcases h with h | h | h <;> cases h
  submittedAt_le := le_refl _
  startedAt_le := hnow.le

/-- A record that is stamped stays in order: no time in it is later than the call. -/
theorem InOrder.stamped (h : InOrder now info) (hnow : 0 < now) (hs : Stamped now info info') :
    InOrder now info' := by
  have hsub : info'.submittedAt ≤ now := hs.submittedAt ▸ h.submittedAt_le
  have hstart : info'.startedAt ≤ now := by
    rcases hs.startedAt with heq | ⟨-, heq⟩
    · exact heq ▸ h.startedAt_le
    · exact heq.le
  refine ⟨⟨?_, hs.running, fun hend => ?_⟩, hsub, hstart⟩
  · rcases hs.startedAt with heq | ⟨-, heq⟩
    · rw [heq, hs.submittedAt]
      exact h.started
    · exact Or.inr (heq ▸ hsub)
  · rw [hs.ended (isTerminal_iff.mpr hend)]
    exact ⟨hnow.ne', hsub, hstart⟩

/-- A sweep keeps a record in order. -/
theorem InOrder.touch (h : InOrder now info) (hnow : 0 < now) (op : JobOp) (j : String) :
    InOrder now (op.touch now j info) := by
  rcases touch_stamped hnow op j info with heq | hs
  · rwa [heq]
  · exact h.stamped hnow hs

/-- A sweep keeps the time of the first start. -/
theorem touch_startedAt (hnow : 0 < now) (op : JobOp) (j : String) (h : info.startedAt ≠ 0) :
    (op.touch now j info).startedAt = info.startedAt := by
  rcases touch_stamped hnow op j info with heq | hs
  · rw [heq]
  · exact hs.startedAt.resolve_right fun h0 => h h0.1

/-! ### Runs -/

variable {Db : Type}

/-- The clock is positive and does not go backwards. -/
def ClockGoesOn (calls : List (Env × JobOp)) : Prop :=
  (∀ call ∈ calls, 0 < call.1.now) ∧ calls.Pairwise fun call later => call.1.now ≤ later.1.now

/-- Every submission draws an identifier that no job has. -/
def FreshIds (B : StoreBackend Db) (m : JobManager Db) (calls : List (Env × JobOp)) : Prop :=
  ∀ before call after j d, calls = before ++ call :: after → submitted call = some (j, d) →
    (run B before m).getJob j = none

variable {B : StoreBackend Db} {db : Option Db} {calls : List (Env × JobOp)}

/-- All records are in order, and none of them is later than the last call. -/
theorem inOrder_run (hclock : ClockGoesOn calls) {t : ℤ} (ht : ∀ call ∈ calls, call.1.now ≤ t) :
    ∀ j info, (run B calls { db := db }).getJob j = some info → InOrder t info := by
  induction calls using List.reverseRecOn generalizing t with
  | nil =>
    intro j info hj
    cases hj
  | append_singleton calls call ih =>
    obtain ⟨hpos, hpair⟩ := hclock
    obtain ⟨hpair, -, hlast⟩ := List.pairwise_append.mp hpair
    have hcall : call ∈ calls ++ [call] := List.mem_append_right _ List.mem_cons_self
    have hbefore := ih ⟨fun c hc => hpos c (List.mem_append_left _ hc), hpair⟩
      fun c hc => hlast c hc call List.mem_cons_self
    intro j info hj
    rw [run_concat] at hj
    have hnow := forall_exec B call.1 _ (q := fun _ info => InOrder call.1.now info)
      (inOrder_newJob (hpos call hcall)) (fun j info h => h.touch (hpos call hcall) call.2 j)
      hbefore j info hj
    exact hnow.mono (ht call hcall)

/-- **One call keeps the time of the first start**, unless it draws the identifier of the
job. -/
theorem startedAt_exec {m : JobManager Db} {call : Env × JobOp} (hpos : 0 < call.1.now)
    {j : String} (hj : m.getJob j = some info) (hstart : info.startedAt ≠ 0)
    (hfresh : ∀ d, submitted call ≠ some (j, d)) :
    ∃ info', (m.exec B call.1 call.2).2.getJob j = some info' ∧
      info'.startedAt = info.startedAt := by
  obtain ⟨e, op⟩ := call
  cases hs : op.isSubmit with
  | true =>
    cases op with
    | submitJob spec userId username =>
      have hne : j ≠ shortId "job-" e.uuid := by
        rintro rfl
        exact hfresh _ rfl
      exact ⟨info, (lookup_submitJob_of_ne B e m spec userId username hne).trans hj, rfl⟩
    | _ => cases hs
  | false =>
    have hl : (m.exec B e op).2.jobs.lookup j = some (op.touch e.now j info) := by
      rw [lookup_exec B e m hs]
      exact congrArg (Option.map _) hj
    exact ⟨_, hl, touch_startedAt hpos op j hstart⟩

/-- The time of the first start stays along a run. -/
theorem startedAt_run {before mid : List (Env × JobOp)} {m : JobManager Db}
    (hpos : ∀ call ∈ mid, 0 < call.1.now) (hfresh : FreshIds B m (before ++ mid)) {j : String}
    (hj : (run B before m).getJob j = some info) (hstart : info.startedAt ≠ 0) :
    ∃ info', (run B (before ++ mid) m).getJob j = some info' ∧
      info'.startedAt = info.startedAt := by
  induction mid using List.reverseRecOn with
  | nil => exact ⟨info, by rwa [List.append_nil], rfl⟩
  | append_singleton mid call ih =>
    have hearlier : FreshIds B m (before ++ mid) := by
      intro b c a k d hsplit hs
      exact hfresh b c (a ++ [call]) k d (by rw [← List.append_assoc, hsplit]; simp) hs
    obtain ⟨info₁, hj₁, hst₁⟩ := ih (fun c hc => hpos c (List.mem_append_left _ hc)) hearlier
    have hnew : ∀ d, submitted call ≠ some (j, d) := by
      intro d hs
      have hnone := hfresh (before ++ mid) call [] j d (List.append_assoc _ _ _).symm hs
      rw [hj₁] at hnone
      cases hnone
    rw [← List.append_assoc, run_concat]
    obtain ⟨info₂, hj₂, hst₂⟩ := startedAt_exec
      (hpos call (List.mem_append_right _ List.mem_cons_self)) hj₁ (hst₁ ▸ hstart) hnew
    exact ⟨info₂, hj₂, hst₂.trans hst₁⟩

/-- **The history of every job is in order**, in every state of a run with a clock that goes on
and fresh identifiers, and a job that has started keeps the time of its start. -/
theorem history_ordered (B : StoreBackend Db) (db : Option Db) (hclock : ClockGoesOn calls)
    (hfresh : FreshIds B { db := db } calls) {before mid after : List (Env × JobOp)}
    (hcalls : calls = before ++ mid ++ after) {j : String}
    (hj : (run B before { db := db }).getJob j = some info) :
    Ordered info ∧ (info.startedAt ≠ 0 →
      ∃ info', (run B (before ++ mid) { db := db }).getJob j = some info' ∧
        info'.startedAt = info.startedAt) := by
  subst hcalls
  obtain ⟨hpos, hpair⟩ := hclock
  have hprefix : FreshIds B { db := db } (before ++ mid) := by
    intro b c a k d hsplit hs
    exact hfresh b c (a ++ after) k d (by rw [hsplit]; simp) hs
  have hearly : ∀ call ∈ before, call ∈ before ++ mid ++ after := fun c hc =>
    List.mem_append_left _ (List.mem_append_left _ hc)
  obtain ⟨t, ht⟩ := (before.map fun call => call.1.now).toFinset.exists_le
  have ht : ∀ call ∈ before, call.1.now ≤ t := fun call hc =>
    ht _ (List.mem_toFinset.mpr (List.mem_map_of_mem hc))
  refine ⟨(inOrder_run ⟨fun c hc => hpos c (hearly c hc), ?_⟩ ht j info hj).toOrdered,
    fun hstart => startedAt_run (fun c hc => hpos c ?_) hprefix hj hstart⟩
  · exact (List.pairwise_append.mp (List.pairwise_append.mp hpair).1).1
  · exact List.mem_append_left _ (List.mem_append_right _ hc)

/-- A job is submitted, starts, ends, and is started once more by a late report. -/
def lateStart : List (Env × JobOp) :=
  [({ now := 100 }, .submitJob { command := "a.out" } "ann" "ann"),
    ({ now := 101 }, .updateJobStatus "job-00000000" .running "node-00000000"),
    ({ now := 105 }, .updateJobStatus "job-00000000" .completed ""),
    ({ now := 105 }, .updateJobStatus "job-00000000" .running "node-00000000")]

/-- The law at work: the late report changes the status, and the times are in order. -/
theorem history_ordered_lateStart : ∃ info,
    (run idealStore lateStart { db := none }).getJob "job-00000000" = some info ∧
      info.status = .running ∧ info.startedAt = 101 ∧ info.completedAt = 105 ∧ Ordered info := by
  have hclock : ClockGoesOn lateStart := ⟨by decide, by decide⟩
  have hfresh : FreshIds idealStore { db := none } lateStart := by
    intro before call after j d hcalls hs
    cases before with
    | nil => rfl
    | cons first rest =>
      -- there is no submission but the first call
      have hnone : ∀ call ∈ lateStart.tail, (submitted call).isNone = true := by decide
      have htail : lateStart.tail = rest ++ call :: after := congrArg List.tail hcalls
      have hcall := hnone call (htail ▸ List.mem_append_right _ List.mem_cons_self)
      rw [hs] at hcall
      cases hcall
  have hj : (run idealStore lateStart { db := none }).getJob "job-00000000" = some
      { jobId := "job-00000000", userId := "ann", username := "ann"
        spec := { command := "a.out" }, status := .running, assignedNodeId := "node-00000000"
        submittedAt := 100, startedAt := 101, completedAt := 105 } := by decide
  have hcalls : lateStart = lateStart ++ [] ++ [] := by simp
  exact ⟨_, hj, rfl, rfl, rfl, (history_ordered idealStore none hclock hfresh hcalls hj).1⟩

end JobManager

end CertOS
