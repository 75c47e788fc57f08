import CertOS.Master.SilentNodes
import CertOS.Master.TerminalStates
import Mathlib.Data.List.Perm.Subperm

/-!
# The queue of jobs

The queue is the set of the jobs whose status is `QUEUED`. A submission puts a job
into it, and what takes a job out is a status update or a cancellation that finds
it. No task of the master writes `QUEUED` (`CertOS.only_writes` is the table of what
each task does write), so nothing is ever put back, and whether a job waits can be
read off the history (`CertOS.queued_iff`).

The scheduler assigns from a snapshot of the queue, and a snapshot may be stale. But
the passes come one after the other, a snapshot shows a job once, and what a pass has
assigned is not in the queue when the next snapshot is taken, so that no job is
assigned twice (`CertOS.assigned_at_most_once`). The place of a pass is known here by
the jobs it may still assign, `CertOS.PassHolds`.
-/

namespace CertOS

open Interleave

variable {Db Fs : Type} {P : Platform Db Fs}

/-! ### What the tasks write -/

/-- The statuses a task writes with `update_job_status`. -/
def Task.writes : Task → JobStatus → Bool
  | .rpc _ (.reportJobStarted _), .running => true
  | .rpc _ (.reportJobCompleted _), .completed => true
  | .rpc _ (.reportJobFailed _), .failed => true
  | .schedulePass _, .assigned => true
  | _, _ => false

/-- The operation writes no other status than the task may. -/
def Task.WritesOnly (t : Task) (op : MasterOp) : Prop :=
  ∀ j status n, op = .job (.updateJobStatus j status n) → t.writes status = true

theorem Task.writesOnly_update {t : Task} {j n : String} {status : JobStatus}
    (h : t.writes status = true) : t.WritesOnly (.job (.updateJobStatus j status n)) := by
  rintro _ _ _ ⟨⟩
  exact h

theorem Rpc.only_writes (J : JsonCodec) (metadata : Metadata) (rpc : Rpc) :
    (rpc.handle J metadata).Only (Task.WritesOnly (.rpc metadata rpc)) := by
  cases rpc with
  | reportJobStarted request | reportJobCompleted request | reportJobFailed request =>
    exact Prog.only_map.mpr (.op_bind (Task.writesOnly_update rfl) fun _ => trivial)
  | _ =>
    -- the other handlers do not call `update_job_status` at all
    refine (Rpc.only_mayDo J metadata _).mono fun op hop => ?_
    rintro j status n rfl
    cases hop

/-- **The tasks write what they may**: the reports one status each, and the scheduler
nothing but assignments. -/
theorem only_writes (P : Platform Db Fs) (t : Task) : ((master P).body t).Only t.WritesOnly := by
  cases t with
  | rpc metadata rpc =>
    rw [master_body_rpc]
    exact rpc.only_writes P.json metadata
  | schedulePass sort =>
    refine Prog.only_map.mpr (.op_bind nofun fun jobs => ?_)
    split
    · trivial
    · refine .op_bind nofun fun _ => .op_bind nofun fun nodes => ?_
      split
      · trivial
      · refine (only_assignsOne _ _).mono ?_
        rintro _ ⟨job, -, n, -, rfl⟩
        exact Task.writesOnly_update rfl
  | failJobsOnNode nodeId => exact Prog.only_map.mpr (.op_bind nofun fun _ => trivial)
  | checkTimeouts timeoutSec => exact Prog.only_map.mpr (.op_bind nofun fun _ => trivial)

/-- In every run the threads write what their tasks may. -/
theorem writes_of_run {ok : MasterConfig Db Fs → MasterEvent → Prop} {db : Option Db}
    {adminDb : Db} {fs : Fs} {c : MasterConfig Db Fs} {es : List MasterEvent}
    (h : (master P).Run ok (masterStart db adminDb fs) es c) :
    ∀ th ∈ c.threads, th.prog.Only th.task.WritesOnly := by
  refine h.forall_threads (q := fun th : Thread MasterOp.Res Task Reply =>
    th.prog.Only th.task.WritesOnly) ?_ ?_ ?_ fun t op k r hk => hk.2 r
  · intro th hth
    cases hth
  · intro c t _
    exact only_writes P t
  · intro op r t ht
    cases ht

/-- No task writes `QUEUED`. -/
theorem Task.writes_queued (t : Task) : t.writes .queued = false := by
  cases t with
  | rpc metadata rpc => cases rpc <;> rfl
  | _ => rfl

theorem Task.WritesOnly.ne_queued {t : Task} {op : MasterOp} (h : t.WritesOnly op) {j n : String}
    {status : JobStatus} (hop : op = .job (.updateJobStatus j status n)) : status ≠ .queued := by
  rintro rfl
  have hwrites := h j .queued n hop
  rw [t.writes_queued] at hwrites
  cases hwrites

/-- Nobody but the scheduler writes `ASSIGNED`. -/
theorem Task.eq_of_writes_assigned {t : Task} (h : t.writes .assigned = true) :
    ∃ sort, t = .schedulePass sort := by
  cases t with
  | schedulePass sort => exact ⟨sort, rfl⟩
  | rpc metadata rpc => cases rpc <;> cases h
  | _ => cases h

/-! ### Leaving the queue -/

/-- The job is in the table, and not in the queue. -/
def Left (j : String) (s : MasterState Db Fs) : Prop :=
  ∃ info, s.jobMgr.jobs.lookup j = some info ∧ info.status ≠ .queued

/-- The event takes the job out of the queue, if it is there: it is a status update or
a cancellation of the job that succeeds. -/
def takesOut (j : String) : MasterEvent → Bool
  | .did _ _ _ (.job (.updateJobStatus jobId _ _)) ok => jobId = j && ok
  | .did _ _ _ (.job (.cancelJob jobId)) ok => jobId = j && ok
  | _ => false

/-- A sweep puts no job back. -/
theorem touch_ne_queued {now : ℤ} {o : JobOp} {j : String} {info : JobInfo}
    (hw : ∀ j status n, o = .updateJobStatus j status n → status ≠ .queued)
    (h : info.status ≠ .queued) : (o.touch now j info).status ≠ .queued := by
  cases o with
  | updateJobStatus jobId status n =>
    rw [JobOp.touch]
    split
    · rw [JobManager.setStatus_status]
      exact hw jobId status n rfl
    · exact h
  | failJobsOnNode n =>
    rw [JobOp.touch, JobManager.failOnNode]
    split
    · simp
    · exact h
  | cancelJob jobId =>
    rw [JobOp.touch, JobManager.cancel]
    split_ifs
    · exact h
    · simp
    · exact h
  | _ => exact h

/-- **Nothing is put back**: a job that has left the queue has left it for good. -/
theorem Left.exec {j : String} {c : MasterConfig Db Fs} {i : ℕ} {t : Task} {e : Env} {op : MasterOp}
    (h : Left j c.state) (hw : t.WritesOnly op)
    (hf : freshJobId c (.did i t e op (c.state.exec P e op).1) = true) :
    Left j (c.state.exec P e op).2 := by
  obtain ⟨info, hj, hq⟩ := h
  rcases lookup_of_freshJobId hf hj with h | ⟨o, rfl, -, h⟩
  · exact ⟨info, h, hq⟩
  · exact ⟨_, h, touch_ne_queued (fun _ _ _ ho => hw.ne_queued (congrArg MasterOp.job ho)) hq⟩

/-- A job that is in the table when its status is written has left the queue. -/
theorem left_of_update {j n : String} {status : JobStatus} {e : Env} {s : MasterState Db Fs}
    (hj : ∃ info, s.jobMgr.jobs.lookup j = some info) (hne : status ≠ .queued) :
    Left j (s.exec P e (.job (.updateJobStatus j status n))).2 := by
  obtain ⟨info, hj⟩ := hj
  refine ⟨JobManager.setStatus e.now status n info, ?_, by simpa using hne⟩
  rw [MasterState.exec_job, JobManager.lookup_updateJobStatus, hj]
  rfl

/-- An update that succeeds has found the job. -/
theorem exists_of_updateJobStatus {j n : String} {status : JobStatus} {e : Env}
    {m : JobManager Db} (h : (m.updateJobStatus e j status n).1 = true) :
    ∃ info, m.jobs.lookup j = some info := by
  rw [JobManager.updateJobStatus] at h
  cases hj : m.jobs.lookup j with
  | none =>
    rw [hj] at h
    cases h
  | some info => exact ⟨info, rfl⟩

/-- A job that is in the queue before an operation, and not after it, was taken out. -/
theorem takesOut_of_left {j : String} {i : ℕ} {t : Task} {e : Env} {s : MasterState Db Fs}
    {op : MasterOp} (hq : ¬ Left j s) (h : Left j (s.exec P e op).2) :
    takesOut j (.did i t e op (s.exec P e op).1) = true := by
  obtain ⟨info', hj', hne⟩ := h
  have hstill {info : JobInfo} (hj : s.jobMgr.jobs.lookup j = some info) :
      info.status = .queued := by
    by_contra hnot
    exact hq ⟨info, hj, hnot⟩
  cases op with
  | job o =>
    rw [MasterState.exec_job] at hj'
    cases o with
    | submitJob spec userId username =>
      rw [JobManager.exec_submitJob_jobs, Table.lookup_insert] at hj'
      split at hj'
      · obtain rfl := Option.some.inj hj'
        exact absurd rfl hne
      · exact absurd (hstill hj') hne
    | updateJobStatus jobId status n =>
      by_cases hid : j = jobId
      · subst hid
        rw [JobManager.lookup_updateJobStatus] at hj'
        obtain ⟨info, hj, -⟩ := Option.map_eq_some_iff.mp hj'
        simp [takesOut, JobManager.exec, JobManager.updateJobStatus, hj]
      · rw [JobManager.lookup_updateJobStatus_of_ne _ _ _ _ _ hid] at hj'
        exact absurd (hstill hj') hne
    | failJobsOnNode n =>
      -- a job that fails on its node has been assigned before
      rw [JobManager.lookup_exec _ _ _ rfl] at hj'
      obtain ⟨info, hj, rfl⟩ := Option.map_eq_some_iff.mp hj'
      simp [JobOp.touch, JobManager.failOnNode, hstill hj] at hne
    | cancelJob jobId =>
      rw [JobManager.lookup_exec _ _ _ rfl] at hj'
      obtain ⟨info, hj, rfl⟩ := Option.map_eq_some_iff.mp hj'
      by_cases hid : j = jobId
      · subst hid
        simp [takesOut, JobManager.exec, JobManager.cancelJob, hj, hstill hj]
      · simp [JobOp.touch, hid, hstill hj] at hne
    | _ => exact absurd (hstill hj') hne
  | _ => exact absurd (hstill hj') hne

/-- An event that takes the job out leaves it in the table, and not in the queue. -/
theorem left_of_takesOut {j : String} {i : ℕ} {t : Task} {e : Env} {s : MasterState Db Fs}
    {op : MasterOp} (hw : t.WritesOnly op)
    (h : takesOut j (.did i t e op (s.exec P e op).1) = true) : Left j (s.exec P e op).2 := by
  cases op with
  | job o =>
    cases o with
    | updateJobStatus jobId status n =>
      obtain ⟨rfl, hok⟩ : jobId = j ∧ _ := by simpa [takesOut] using h
      exact left_of_update (exists_of_updateJobStatus hok) (hw.ne_queued rfl)
    | cancelJob jobId =>
      obtain ⟨rfl, hok⟩ : jobId = j ∧ _ := by simpa [takesOut] using h
      obtain ⟨info, hj, hst⟩ := status_of_cancelJob hok
      exact ⟨info, hj, by simp [hst]⟩
    | _ => cases h
  | _ => cases h

/-- In every run with fresh identifiers a job has left the queue just when an event has
taken it out. -/
theorem left_iff {db : Option Db} {adminDb : Db} {fs : Fs} {c : MasterConfig Db Fs}
    {es : List MasterEvent}
    (h : (master P).Run (fun c ev => freshJobId c ev = true) (masterStart db adminDb fs) es c)
    (j : String) : Left j c.state ↔ ∃ ev ∈ es, takesOut j ev = true := by
  induction h with
  | nil =>
    constructor
    · rintro ⟨info, hj, -⟩
      cases hj
    · rintro ⟨ev, hev, -⟩
      cases hev
  | @snoc es c₁ c₂ ev hrun hf hstep ih =>
    have hmem : (∃ ev' ∈ es ++ [ev], takesOut j ev' = true) ↔
        (∃ ev' ∈ es, takesOut j ev' = true) ∨ takesOut j ev = true := by
      simp [or_and_right, exists_or]
    rw [hmem, ← ih]
    cases hstep with
    | start t => exact ⟨Or.inl, fun h => h.resolve_right (by simp [takesOut])⟩
    | did i t e op k hi =>
      have hw := (writes_of_run hrun _ (List.mem_of_getElem? hi)).1
      constructor
      · intro hafter
        by_cases hleft : Left j c₁.state
        · exact Or.inl hleft
        · exact Or.inr (takesOut_of_left hleft hafter)
      · rintro (hleft | htakes)
        · exact hleft.exec hw hf
        · exact left_of_takesOut hw htakes

/-- **The queue is what was submitted and not taken out**: in every run with fresh
identifiers, whatever tasks are started and however they are interleaved, a job waits
just as long as no status update and no cancellation of it has succeeded. -/
theorem queued_iff {db : Option Db} {adminDb : Db} {fs : Fs} {c : MasterConfig Db Fs}
    {es : List MasterEvent}
    (h : (master P).Run (fun c ev => freshJobId c ev = true) (masterStart db adminDb fs) es c)
    {j : String} {info : JobInfo} (hj : c.state.jobMgr.jobs.lookup j = some info) :
    info.status = .queued ↔ ∀ ev ∈ es, takesOut j ev = false := by
  have hleft := left_iff h j
  constructor
  · intro hq ev hev
    by_contra hne
    obtain ⟨info', hj', hq'⟩ := hleft.mpr ⟨ev, hev, by simpa using hne⟩
    obtain rfl := Option.some.inj (hj.symm.trans hj')
    exact hq' hq
  · intro hall
    by_contra hq
    obtain ⟨ev, hev, ht⟩ := hleft.mp ⟨info, hj, hq⟩
    rw [hall ev hev] at ht
    cases ht

/-- The law at work: in the run of `assignSchedule` the job is assigned, and an event has
taken it out of the queue. -/
theorem queued_iff_assignSchedule :
    ∃ es c, (master barePlatform).Run (fun c ev => freshJobId c ev = true) (masterStart none {} ())
        es c ∧ statusOf c "job-00000000" = some .assigned ∧
      ¬ ∀ ev ∈ es, takesOut "job-00000000" ev = false := by
  obtain ⟨es, c, hrun, hp⟩ := System.exists_run (S := master barePlatform)
    (g := freshJobId) (c := masterStart none {} ())
    (p := fun c => statusOf c "job-00000000" = some .assigned) assignSchedule (by decide)
  have hst := of_decide_eq_true hp
  obtain ⟨info, hj, hi⟩ := Option.map_eq_some_iff.mp hst
  refine ⟨es, c, hrun, hst, fun hall => ?_⟩
  have hq := (queued_iff hrun hj).mpr hall
  rw [hi] at hq
  cases hq

end CertOS
