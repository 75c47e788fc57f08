import CertOS.Master.Server

/-!
# Terminal job states

A job that has been completed, has failed or was cancelled ought to stay so.
`cancel_job` and `fail_jobs_on_node` look at the status before they write it,
but `update_job_status` does not: the scheduler calls it from a snapshot that
may be stale, and the agents' reports call it whenever they arrive. So a job
can leave a terminal state, and it does exactly when `update_job_status` is
performed on it with another status (`CertOS.settled`).

`CertOS.terminal_absorbing` is the law for the runs in which that does not
happen, and `CertOS.cancelled_job_starts` a run in which it does: a report that
was on its way when the job was cancelled.
-/

namespace CertOS

open Interleave

variable {Db Fs : Type} {P : Platform Db Fs}

/-- **The step leaves ended jobs alone**: it is not an `update_job_status` of a
job that has ended, with a status other than the one the job has. -/
def settled (c : MasterConfig Db Fs) : MasterEvent → Bool
  | .did _ _ _ (.job (.updateJobStatus jobId status _)) _ =>
    match c.state.jobMgr.jobs.lookup jobId with
    | some info => !info.status.isTerminal || info.status = status
    | none => true
  | _ => true

theorem failOnNode_of_isTerminal {now : ℤ} {nodeId : String} {info : JobInfo}
    (h : info.status.isTerminal = true) : JobManager.failOnNode now nodeId info = info := by
  rw [JobManager.failOnNode, if_neg]
  rintro ⟨hs | hs, -⟩ <;> rw [hs] at h <;> cases h

/-- A settled sweep keeps the status of a job that has ended. -/
theorem touch_status_of_isTerminal {c : MasterConfig Db Fs} {i : ℕ} {t : Task} {e : Env}
    {o : JobOp} {r : o.Res} {j : String} {info : JobInfo}
    (hj : c.state.jobMgr.jobs.lookup j = some info) (ht : info.status.isTerminal = true)
    (hs : settled c (.did i t e (.job o) r) = true) :
    (o.touch e.now j info).status = info.status := by
  cases o with
  | updateJobStatus jobId status nodeId =>
    rw [JobOp.touch]
    split
    · rename_i h
      subst h
      simp only [settled, hj, ht] at hs
      simpa using (show info.status = status by simpa using hs).symm
    · rfl
  | failJobsOnNode nodeId => rw [JobOp.touch, failOnNode_of_isTerminal ht]
  | cancelJob jobId =>
    rw [JobOp.touch, JobManager.cancel_of_isTerminal ht, ite_self]
  | _ => rfl

/-- **One step**: a fresh and settled step keeps the status of a job that has
ended. -/
theorem step_keeps_terminal {c c' : MasterConfig Db Fs} {ev : MasterEvent} {j : String}
    {info : JobInfo} (hstep : (master P).Step c ev c') (hf : freshJobId c ev = true)
    (hs : settled c ev = true) (hj : c.state.jobMgr.jobs.lookup j = some info)
    (ht : info.status.isTerminal = true) :
    ∃ info', c'.state.jobMgr.jobs.lookup j = some info' ∧ info'.status = info.status := by
  cases hstep with
  | start t => exact ⟨info, hj, rfl⟩
  | did i t e op k hi =>
    rcases lookup_of_freshJobId hf hj with h | ⟨o, rfl, -, h⟩
    · exact ⟨info, h, rfl⟩
    · exact ⟨_, h, touch_status_of_isTerminal hj ht hs⟩

/-- **The condition is exact**: a step that is not settled changes the status
of a job that has ended. -/
theorem step_breaks_terminal {c c' : MasterConfig Db Fs} {ev : MasterEvent}
    (hstep : (master P).Step c ev c') (hs : settled c ev = false) :
    ∃ j info info', c.state.jobMgr.jobs.lookup j = some info ∧ info.status.isTerminal = true ∧
      c'.state.jobMgr.jobs.lookup j = some info' ∧ info'.status ≠ info.status := by
  cases hstep with
  | start t => cases hs
  | did i t e op k hi =>
    cases op with
    | job o =>
      cases o with
      | updateJobStatus jobId status nodeId =>
        simp only [settled] at hs
        split at hs
        · rename_i info hj
          obtain ⟨ht, hne⟩ : info.status.isTerminal = true ∧ info.status ≠ status := by
            simpa using hs
          refine ⟨jobId, info, JobManager.setStatus e.now status nodeId info, hj, ht, ?_, ?_⟩
          · change (c.state.exec P e _).2.jobMgr.jobs.lookup jobId = _
            rw [MasterState.exec_job, JobManager.lookup_exec _ _ _ rfl, hj]
            simp [JobOp.touch]
          · simpa using Ne.symm hne
        · cases hs
      | _ => cases hs
    | _ => cases hs

/-- A cancellation that succeeds leaves the job cancelled. -/
theorem status_of_cancelJob {e : Env} {j : String} {m : JobManager Db}
    (h : (m.cancelJob e j).1 = true) :
    ∃ info, (m.cancelJob e j).2.jobs.lookup j = some info ∧ info.status = .cancelled := by
  simp only [JobManager.cancelJob] at h ⊢
  cases hl : m.jobs.lookup j with
  | none => simp [hl] at h
  | some info =>
    by_cases hd : info.status = .completed ∨ info.status = .failed ∨ info.status = .cancelled
    · simp [hl, hd] at h
    · simp [hd, hl, JobManager.cancel]

/-- A job that has ended keeps its status along a fresh and settled run. -/
theorem run_keeps_terminal {c c' : MasterConfig Db Fs} {es : List MasterEvent}
    (h : (master P).Run (fun c ev => freshJobId c ev = true ∧ settled c ev = true) c es c')
    {j : String} {info : JobInfo} (hj : c.state.jobMgr.jobs.lookup j = some info)
    (ht : info.status.isTerminal = true) :
    ∃ info', c'.state.jobMgr.jobs.lookup j = some info' ∧ info'.status = info.status := by
  refine h.config_invariant (I := fun c =>
    ∃ info', c.state.jobMgr.jobs.lookup j = some info' ∧ info'.status = info.status)
    ⟨info, hj, rfl⟩ ?_
  rintro c₁ ev c₂ ⟨info₁, hj₁, hst₁⟩ ⟨hf, hs⟩ hstep
  obtain ⟨info₂, hj₂, hst₂⟩ := step_keeps_terminal hstep hf hs hj₁ (by rwa [hst₁])
  exact ⟨info₂, hj₂, hst₂.trans hst₁⟩

/-- A job whose cancellation succeeded in a fresh and settled run is cancelled
at its end. -/
theorem run_keeps_cancelled {c c' : MasterConfig Db Fs} {es : List MasterEvent}
    (h : (master P).Run (fun c ev => freshJobId c ev = true ∧ settled c ev = true) c es c')
    {i : ℕ} {t : Task} {e : Env} {j : String}
    (hm : .did i t e (.job (.cancelJob j)) true ∈ es) :
    ∃ info, c'.state.jobMgr.jobs.lookup j = some info ∧ info.status = .cancelled := by
  refine h.invariant (I := fun es c => .did i t e (.job (.cancelJob j)) true ∈ es →
    ∃ info, c.state.jobMgr.jobs.lookup j = some info ∧ info.status = .cancelled)
    (fun hm => by cases hm) ?_ hm
  intro es c₁ ev c₂ ih hok hstep hm
  rcases List.mem_append.mp hm with hm | hm
  · obtain ⟨info₁, hj₁, hst₁⟩ := ih hm
    obtain ⟨info₂, hj₂, hst₂⟩ := step_keeps_terminal hstep hok.1 hok.2 hj₁ (by rw [hst₁]; rfl)
    exact ⟨info₂, hj₂, hst₂.trans hst₁⟩
  · obtain rfl := List.mem_singleton.mp hm
    obtain ⟨k, -, hr, rfl⟩ := hstep.did_inv
    exact status_of_cancelJob hr.symm

/-- **Terminal states are absorbing** in every run with fresh job identifiers
in which no step updates a job that has ended: such a job keeps its status, and
a job whose cancellation succeeded during the run is cancelled at its end. -/
theorem terminal_absorbing {c c' : MasterConfig Db Fs} {es : List MasterEvent}
    (h : (master P).Run (fun c ev => freshJobId c ev = true ∧ settled c ev = true) c es c') :
    (∀ j info, c.state.jobMgr.jobs.lookup j = some info → info.status.isTerminal = true →
      ∃ info', c'.state.jobMgr.jobs.lookup j = some info' ∧ info'.status = info.status) ∧
    (∀ i t e j, .did i t e (.job (.cancelJob j)) true ∈ es →
      ∃ info, c'.state.jobMgr.jobs.lookup j = some info ∧ info.status = .cancelled) :=
  ⟨fun _ _ hj ht => run_keeps_terminal h hj ht, fun _ _ _ _ hm => run_keeps_cancelled h hm⟩

/-! ### A job that leaves a terminal state -/

/-- The status a job has, if it exists. -/
def statusOf (c : MasterConfig Db Fs) (j : String) : Option JobStatus :=
  (c.state.jobMgr.jobs.lookup j).map JobInfo.status

/-- The job of `assignSchedule` is cancelled by a client. -/
def cancelSchedule : List (Choice Env Task) :=
  assignSchedule ++ performs 4 (.rpc [] (.cancelJob "job-00000000")) { now := 104 } 1

/-- A second cancellation of the same job, which is refused. -/
def cancelAgain : List (Choice Env Task) :=
  performs 5 (.rpc [] (.cancelJob "job-00000000")) { now := 105 } 1

/-- The law at work: a run of the server reaches a state in which a job is
cancelled, and after a further call the job is still cancelled. -/
theorem terminal_absorbing_cancelAgain :
    ∃ c es c', statusOf c "job-00000000" = some .cancelled ∧
      (master barePlatform).Run (fun c ev => freshJobId c ev = true ∧ settled c ev = true)
        c es c' ∧ c'.threads.length = 6 ∧
      ∃ info, c'.state.jobMgr.jobs.lookup "job-00000000" = some info ∧
        info.status = .cancelled := by
  obtain ⟨-, c, -, hc⟩ := System.exists_run (S := master barePlatform)
    (g := fun _ _ => true) (c := masterStart none {} ())
    (p := fun c => statusOf c "job-00000000" = some .cancelled ∧
      ((master barePlatform).play (fun c ev => freshJobId c ev && settled c ev) c cancelAgain).any
        fun c => c.threads.length = 6)
    cancelSchedule (by decide)
  obtain ⟨hst, hplay⟩ := of_decide_eq_true hc
  obtain ⟨es, c', h, hlen⟩ := System.exists_run cancelAgain hplay
  have hrun := h.mono fun c ev hg => (Bool.and_eq_true _ _).mp hg
  obtain ⟨info, hj, hi⟩ := Option.map_eq_some_iff.mp hst
  obtain ⟨info', hj', hst'⟩ := (terminal_absorbing hrun).1 _ _ hj (by rw [hi]; rfl)
  exact ⟨c, es, c', hst, hrun, of_decide_eq_true hlen, info', hj', hst'.trans hi⟩

/-- The report that the node had already sent arrives. -/
def lateStart : List (Choice Env Task) :=
  performs 5 (.rpc [] (.reportJobStarted { nodeId := "node-00000000", jobId := "job-00000000" }))
    { now := 105 } 1

/-- **A cancelled job starts to run**: in a run of the server with fresh
identifiers, a job that is cancelled is running later on. -/
theorem cancelled_job_starts :
    ∃ es₁ c₁ es₂ c₂,
      (master barePlatform).Run (fun c ev => (wired c ev && freshJobId c ev) = true)
        (masterStart none {} ()) es₁ c₁ ∧
      statusOf c₁ "job-00000000" = some .cancelled ∧
      (master barePlatform).Run (fun c ev => (wired c ev && freshJobId c ev) = true) c₁ es₂ c₂ ∧
      statusOf c₂ "job-00000000" = some .running := by
  obtain ⟨es₁, c₁, h₁, hc₁⟩ := System.exists_run (S := master barePlatform)
    (g := fun c ev => wired c ev && freshJobId c ev) (c := masterStart none {} ())
    (p := fun c => statusOf c "job-00000000" = some .cancelled ∧
      ((master barePlatform).play (fun c ev => wired c ev && freshJobId c ev) c lateStart).any
        fun c => statusOf c "job-00000000" = some .running)
    cancelSchedule (by decide)
  obtain ⟨hst, hplay⟩ := of_decide_eq_true hc₁
  obtain ⟨es₂, c₂, h₂, hc₂⟩ := System.exists_run lateStart hplay
  exact ⟨es₁, c₁, es₂, c₂, h₁, hst, h₂, of_decide_eq_true hc₂⟩

end CertOS
