import CertOS.Agent.Evidence
import CertOS.Master.Authorisation

/-!
# The life of a job

What a client may expect of a job is a small automaton: it is queued, assigned, running,
and then over, and it may be cancelled on the way. The automaton says two things that are
not obvious from the names. A cancellation is not the end: it is a remark at a stage
(`CertOS.Stage`), which the next report wipes out, since no update looks at the status it
replaces. And a job that could not be started fails from where it was assigned.

The table of the master lets every status follow every other one. It is the wiring that
keeps a job on the path: the scheduler assigns it once, one thread executes it, and that
thread reports in order. `CertOS.job_lifecycle` puts these together: to each of its jobs
the whole system looks like the automaton, and no more than seven things ever happen to a
job.
-/

namespace CertOS

open Interleave

/-! ### The automaton -/

/-- How far a job has come. -/
inductive Progress where
  | queued
  | assigned
  | running
  | completed
  | failed
  deriving DecidableEq

/-- The status that says so. -/
def Progress.status : Progress → JobStatus
  | .queued => .queued
  | .assigned => .assigned
  | .running => .running
  | .completed => .completed
  | .failed => .failed

/-- The job has ended. -/
def Progress.isOver : Progress → Bool
  | .completed | .failed => true
  | _ => false

/-- Where a job stands: how far it has come, and whether it has been cancelled there. -/
structure Stage where
  progress : Progress
  cancelled : Bool
  deriving DecidableEq

namespace Stage

/-- The status of a job at the stage. -/
def status (st : Stage) : JobStatus := if st.cancelled then .cancelled else st.progress.status

/-- The number of things that have happened to a job at the stage, at most. -/
def rank : Stage → ℕ
  | ⟨.queued, false⟩ => 1
  | ⟨.queued, true⟩ => 2
  | ⟨.assigned, false⟩ => 3
  | ⟨.assigned, true⟩ => 4
  | ⟨.running, false⟩ => 5
  | ⟨.running, true⟩ => 6
  | ⟨.completed, _⟩ | ⟨.failed, _⟩ => 7

theorem rank_le (st : Stage) : st.rank ≤ 7 := by
  obtain ⟨progress, cancelled⟩ := st
  cases progress <;> cases cancelled <;> decide

theorem progress_of_status {st : Stage} (h : st.status = .assigned) :
    st.progress = .assigned := by
  obtain ⟨progress, cancelled⟩ := st
  cases cancelled with
  | true => cases h
  | false => cases progress <;> first | rfl | cases h

end Stage

/-- What happens to a job. -/
inductive JobEvent where
  /-- It is submitted. -/
  | submitted
  /-- A status is written on its record. -/
  | wrote (status : JobStatus)
  /-- It is cancelled. -/
  | cancelled
  deriving DecidableEq

/-- The status after the event. -/
def JobEvent.status : JobEvent → JobStatus
  | .submitted => .queued
  | .wrote status => status
  | .cancelled => .cancelled

/-- **One step in the life of a job.** -/
inductive Stage.Next : Stage → JobEvent → Stage → Prop
  | assigned (b : Bool) : Next ⟨.queued, b⟩ (.wrote .assigned) ⟨.assigned, false⟩
  | started (b : Bool) : Next ⟨.assigned, b⟩ (.wrote .running) ⟨.running, false⟩
  | completed (b : Bool) : Next ⟨.running, b⟩ (.wrote .completed) ⟨.completed, false⟩
  | failed (b : Bool) : Next ⟨.assigned, b⟩ (.wrote .failed) ⟨.failed, false⟩
  | cancelled {p : Progress} (h : p.isOver = false) : Next ⟨p, false⟩ .cancelled ⟨p, true⟩

theorem Stage.Next.rank_lt {st st' : Stage} {e : JobEvent} (h : st.Next e st') :
    st.rank < st'.rank := by
  cases h with
  | cancelled hp => rename_i p; cases p <;> first | decide | cases hp
  | assigned b | started b | completed b | failed b => cases b <;> decide

theorem Stage.Next.status_eq {st st' : Stage} {e : JobEvent} (h : st.Next e st') :
    e.status = st'.status := by
  cases h <;> rfl

/-- **The life of a job**: what has happened to it, and where it stands. -/
inductive Lifecycle : List JobEvent → Option Stage → Prop
  | unknown : Lifecycle [] none
  | submitted : Lifecycle [.submitted] (some ⟨.queued, false⟩)
  | next {w : List JobEvent} {st st' : Stage} {e : JobEvent} (hw : Lifecycle w (some st))
      (h : st.Next e st') : Lifecycle (w ++ [e]) (some st')

namespace Lifecycle

theorem eq_nil {w : List JobEvent} (h : Lifecycle w none) : w = [] := by
  cases h
  rfl

theorem length_le_rank {w : List JobEvent} {st : Option Stage} (h : Lifecycle w st) :
    w.length ≤ (st.map Stage.rank).getD 0 := by
  induction h with
  | unknown => exact Nat.le_refl 0
  | submitted => exact Nat.le_refl 1
  | @next w st st' e hw h ih =>
    have hlt := h.rank_lt
    simp only [Option.map_some, Option.getD_some] at ih ⊢
    rw [List.length_append, List.length_singleton]
    omega

/-- A job goes through seven events at most. -/
theorem length_le {w : List JobEvent} {st : Option Stage} (h : Lifecycle w st) :
    w.length ≤ 7 := by
  refine h.length_le_rank.trans ?_
  cases st with
  | none => exact Nat.zero_le 7
  | some st => exact st.rank_le

end Lifecycle

/-! ### What a run is to a job -/

/-- What an operation on the table is to the job. -/
def JobOp.event (j : String) : (o : JobOp) → o.Res → Option JobEvent
  | .submitJob .., jobId => if jobId = j then some .submitted else none
  | .updateJobStatus jobId status _, found =>
    if jobId = j ∧ found = true then some (.wrote status) else none
  | .cancelJob jobId, done => if jobId = j ∧ done = true then some .cancelled else none
  | _, _ => none

/-- **The table shows the last event**: an operation on the table, other than the one that
fails the jobs of a node, gives the job the status of what it is to the job, and leaves it
alone if it is nothing to it. -/
theorem JobManager.status_exec {Db : Type} (B : StoreBackend Db) (e : Env) (m : JobManager Db)
    {o : JobOp} (hf : ∀ n, o ≠ .failJobsOnNode n) (j : String) :
    ((m.exec B e o).2.jobs.lookup j).map JobInfo.status =
      ((o.event j (m.exec B e o).1).map JobEvent.status).or
        ((m.jobs.lookup j).map JobInfo.status) := by
  cases o with
  | submitJob spec userId username =>
    rw [exec_submitJob_jobs, Table.lookup_insert]
    by_cases hj : j = shortId "job-" e.uuid
    · subst hj
      simp [JobOp.event, JobManager.exec, submitJob, newJob, JobEvent.status]
    · simp [JobOp.event, JobManager.exec, submitJob, hj, Ne.symm hj]
  | updateJobStatus jobId status nodeId =>
    by_cases hj : jobId = j
    · subst hj
      rw [lookup_updateJobStatus]
      cases hl : m.jobs.lookup jobId with
      | none => simp [JobOp.event, JobManager.exec, updateJobStatus, hl]
      | some info => simp [JobOp.event, JobManager.exec, updateJobStatus, hl, JobEvent.status]
    · rw [lookup_updateJobStatus_of_ne B e m status nodeId (Ne.symm hj)]
      simp [JobOp.event, hj]
  | cancelJob jobId =>
    rw [lookup_exec B e m rfl]
    by_cases hj : jobId = j
    · subst hj
      cases hl : m.jobs.lookup jobId with
      | none => simp [JobOp.event, JobManager.exec, cancelJob, hl]
      | some info =>
        by_cases hover : info.status = .completed ∨ info.status = .failed ∨
            info.status = .cancelled
        · simp [JobOp.event, JobManager.exec, cancelJob, hl, hover, JobOp.touch, cancel]
        · simp [JobOp.event, JobManager.exec, cancelJob, hl, hover, JobOp.touch, cancel,
            JobEvent.status]
    · cases m.jobs.lookup j with
      | none => simp [JobOp.event, hj]
      | some info => simp [JobOp.event, hj, JobOp.touch, Ne.symm hj]
  | failJobsOnNode n => exact absurd rfl (hf n)
  | getJob | listJobs | getJobsToCancelForNode => rfl

section Event

variable {j jobId : String} {x : JobEvent}

theorem JobOp.event_submitJob {spec : JobSpec} {userId username : String}
    (h : (JobOp.submitJob spec userId username).event j jobId = some x) :
    jobId = j ∧ x = .submitted := by
  simp only [JobOp.event] at h
  split at h
  · rename_i hid
    exact ⟨hid, (Option.some.inj h).symm⟩
  · cases h

theorem JobOp.event_updateJobStatus {status : JobStatus} {n : String} {found : Bool}
    (h : (JobOp.updateJobStatus jobId status n).event j found = some x) :
    jobId = j ∧ found = true ∧ x = .wrote status := by
  simp only [JobOp.event] at h
  split at h
  · rename_i hid
    exact ⟨hid.1, hid.2, (Option.some.inj h).symm⟩
  · cases h

theorem JobOp.event_cancelJob {done : Bool}
    (h : (JobOp.cancelJob jobId).event j done = some x) :
    jobId = j ∧ done = true ∧ x = .cancelled := by
  simp only [JobOp.event] at h
  split at h
  · rename_i hid
    exact ⟨hid.1, hid.2, (Option.some.inj h).symm⟩
  · cases h

end Event

/-- What the event is to the job. -/
def jobEvent (j : String) : ClusterEvent → Option JobEvent
  | .did _ _ _ (.master (.job o)) r => o.event j r
  | _ => none

/-- What a run has been to the job. -/
def jobHistory (j : String) (es : List ClusterEvent) : List JobEvent := es.filterMap (jobEvent j)

theorem jobHistory_snoc (j : String) (es : List ClusterEvent) (ev : ClusterEvent) :
    jobHistory j (es ++ [ev]) = jobHistory j es ++ (jobEvent j ev).toList := by
  rw [jobHistory, List.filterMap_append]
  cases h : jobEvent j ev <;> simp [jobHistory, h]

/-! ### The thread of a job -/

namespace ExecutionPlace

/-- How far its job has come when a thread is at the place. -/
def progress : ExecutionPlace → Progress
  | .reading _ | .waiting _ _ | .removing _ | .stampingEnd true _ | .reportingEnd true _ => .running
  | .ended true => .completed
  | .ended false => .failed
  | _ => .assigned

/-- The last report of the thread is about its job, and says what has become of it. -/
def Reports (j : String) : ExecutionPlace → Prop
  | .removing res => res.jobId = j ∧ endStatus res = .completed
  | .stampingEnd removed res | .reportingEnd removed res =>
    res.jobId = j ∧ endStatus res = if removed then .completed else .failed
  | _ => True

theorem progress_ne_queued (pl : ExecutionPlace) : pl.progress ≠ .queued := by
  intro h
  cases pl with
  | stampingEnd removed | reportingEnd removed | ended removed => cases removed <;> cases h
  | _ => cases h

end ExecutionPlace

/-- The operation is one of the master's. -/
def ClusterOp.isMasters : ClusterOp → Bool
  | .master _ => true
  | _ => false

section Thread

variable {nodeId workDir j : String} {spec : JobSpec} {pl pl' : ExecutionPlace} {op : ClusterOp}
  {a : op.Res}

theorem ExecutionStep.reports (hs : ExecutionStep nodeId workDir j spec pl op a pl')
    (h : pl.Reports j) : pl'.Reports j := by
  cases hs with
  | pipeFailed | forkFailed => exact ⟨rfl, rfl⟩
  | waited pid chunks processEnd => exact ⟨jobResult_jobId _ _ _, endStatus_jobResult _ _ _⟩
  | removed res => exact h
  | stampedEnd removed res t => exact h
  | _ => trivial

/-- **A step of the thread is nothing to its job, or the next step in its life.** -/
theorem ExecutionStep.next (hs : ExecutionStep nodeId workDir j spec pl op a pl')
    (h : pl.Reports j) :
    (pl'.progress = pl.progress ∧ op.isMasters = false) ∨
      ∃ status, op = .master (.job (.updateJobStatus j status nodeId)) ∧
        ∀ b, Stage.Next ⟨pl.progress, b⟩ (.wrote status) ⟨pl'.progress, false⟩ := by
  cases hs with
  | reportedStart pid ok => exact Or.inr ⟨_, rfl, .started⟩
  | reportedEnd removed res ok =>
    obtain ⟨hid, hend⟩ := h
    refine Or.inr ⟨endStatus res, by rw [hid], fun b => ?_⟩
    rw [hend]
    cases removed with
    | true => exact .completed b
    | false => exact .failed b
  | stampedEnd removed res t => cases removed <;> exact Or.inl ⟨rfl, rfl⟩
  | _ => exact Or.inl ⟨rfl, rfl⟩

end Thread

/-! ### The invariant -/

/-- What the place of a thread shows of the stage of the job. -/
def Fits (j : String) (st : Option Stage) : Place → Prop
  | .execution jobId _ pl => pl.Reports jobId ∧ (jobId = j → ∃ b, st = some ⟨pl.progress, b⟩)
  | .polling (.holding jobId _) => jobId = j → ∃ st', st = some st' ∧ st'.progress ≠ .queued
  | _ => True

/-- A place that is not about the job fits every stage. -/
theorem Fits.of_ne {j : String} {st : Option Stage} {p : Place} (h : Fits j st p)
    (hp : p.job ≠ some j) (st' : Option Stage) : Fits j st' p := by
  cases p with
  | quiet => trivial
  | polling pl =>
    cases pl with
    | holding jobId spec => exact fun hj => absurd (congrArg some hj) hp
    | _ => trivial
  | execution jobId spec pl => exact ⟨h.1, fun hj => absurd (congrArg some hj) hp⟩

/-- No place is about a job that is not known. -/
theorem Fits.job_ne {j : String} {p : Place} (h : Fits j none p) : p.job ≠ some j := by
  intro hp
  cases p with
  | quiet => cases hp
  | polling pl =>
    cases pl with
    | holding jobId spec =>
      obtain ⟨st', hst, -⟩ := h (Option.some.inj hp)
      cases hst
    | _ => cases hp
  | execution jobId spec pl =>
    obtain ⟨b, hst⟩ := h.2 (Option.some.inj hp)
    cases hst

/-- A cancellation leaves a job as far as it has come. -/
theorem Fits.cancelled {j : String} {pr : Progress} {b : Bool} {p : Place}
    (h : Fits j (some ⟨pr, b⟩) p) (b' : Bool) : Fits j (some ⟨pr, b'⟩) p := by
  cases p with
  | quiet => trivial
  | polling pl =>
    cases pl with
    | holding jobId spec =>
      intro hj
      obtain ⟨st', hst, hne⟩ := h hj
      obtain rfl := Option.some.inj hst
      exact ⟨_, rfl, hne⟩
    | _ => trivial
  | execution jobId spec pl =>
    refine ⟨h.1, fun hj => ?_⟩
    obtain ⟨b₀, hst⟩ := h.2 hj
    obtain ⟨rfl, -⟩ := Stage.mk.inj (Option.some.inj hst)
    exact ⟨b', rfl⟩

/-- When a job goes on, the places of its own thread apart still fit. -/
theorem Fits.advance {j : String} {st st' : Stage} {p : Place} (h : Fits j (some st) p)
    (hp : ∀ spec pl, p ≠ .execution j spec pl) (hne : st'.progress ≠ .queued) :
    Fits j (some st') p := by
  cases p with
  | quiet => trivial
  | polling pl =>
    cases pl with
    | holding jobId spec => exact fun _ => ⟨st', rfl, hne⟩
    | _ => trivial
  | execution jobId spec pl =>
    refine ⟨h.1, fun hj => ?_⟩
    subst hj
    exact absurd rfl (hp spec pl)

variable {Db Fs : Type} {P : Platform Db Fs} {nodeId workDir j : String}

/-- **Where the job stands after a run**: what has happened to it is a life up to the stage,
the table shows it, and the threads are where they should be at the stage. -/
structure Lives (j : String) (es : List ClusterEvent) (s : ClusterState Db Fs) (ps : List Place)
    (st : Option Stage) : Prop where
  path : Lifecycle (jobHistory j es) st
  table : (s.master.jobMgr.jobs.lookup j).map JobInfo.status = st.map Stage.status
  fits : ∀ p ∈ ps, Fits j st p
  /-- Only the thread of the job takes it further than its assignment. -/
  early : ∀ st', st = some st' → st'.progress = .queued ∨ st'.progress = .assigned ∨
    ∃ spec pl, .execution j spec pl ∈ ps
  /-- Only an assignment takes it out of the queue. -/
  assigned : ∀ st', st = some st' → st'.progress ≠ .queued → 0 < es.countP (assigns j)

namespace Lives

variable {es : List ClusterEvent} {s s' : ClusterState Db Fs} {ps ps' : List Place}
  {ev : ClusterEvent} {st : Option Stage}

/-- A step that is nothing to the job. -/
theorem idle (h : Lives j es s ps st) (hev : jobEvent j ev = none)
    (htable : (s'.master.jobMgr.jobs.lookup j).map JobInfo.status =
      (s.master.jobMgr.jobs.lookup j).map JobInfo.status)
    (hfits : ∀ p ∈ ps', Fits j st p)
    (hthread : ∀ spec pl, .execution j spec pl ∈ ps → ∃ spec' pl', .execution j spec' pl' ∈ ps') :
    Lives j (es ++ [ev]) s' ps' st where
  path := by
    rw [jobHistory_snoc, hev]
    simpa using h.path
  table := htable.trans h.table
  fits := hfits
  early st' hst := by
    rcases h.early st' hst with hq | ha | ⟨spec, pl, hp⟩
    · exact Or.inl hq
    · exact Or.inr (Or.inl ha)
    · exact Or.inr (Or.inr (hthread spec pl hp))
  assigned st' hst hne := by
    rw [List.countP_append]
    exact Nat.lt_of_lt_of_le (h.assigned st' hst hne) (Nat.le_add_right _ _)

/-- A step that is the next one in the life of the job. -/
theorem next {st st' : Stage} {x : JobEvent} (h : Lives j es s ps (some st))
    (hev : jobEvent j ev = some x) (hnext : st.Next x st')
    (htable : (s'.master.jobMgr.jobs.lookup j).map JobInfo.status = some x.status)
    (hfits : ∀ p ∈ ps', Fits j (some st') p)
    (hearly : st'.progress = .queued ∨ st'.progress = .assigned ∨
      ∃ spec pl, .execution j spec pl ∈ ps')
    (hassigned : st'.progress ≠ .queued → 0 < (es ++ [ev]).countP (assigns j)) :
    Lives j (es ++ [ev]) s' ps' (some st') where
  path := by
    rw [jobHistory_snoc, hev]
    exact h.path.next hnext
  table := by
    rw [htable, hnext.status_eq]
    rfl
  fits := hfits
  early st₁ hst := Option.some.inj hst ▸ hearly
  assigned st₁ hst := Option.some.inj hst ▸ hassigned

/-- The job is assigned: it waits to be fetched, or has been. -/
theorem progress_of_assigned (h : Lives j es s ps st) {info : JobInfo}
    (hj : s.master.jobMgr.jobs.lookup j = some info) (hst : info.status = .assigned) :
    ∃ st', st = some st' ∧ st'.progress = .assigned := by
  have htable := h.table
  rw [hj] at htable
  obtain ⟨st', rfl, hstatus⟩ := Option.map_eq_some_iff.mp htable.symm
  exact ⟨st', rfl, Stage.progress_of_status (hstatus.trans hst)⟩

/-- What the table shows of a known job. -/
theorem exists_stage (h : Lives j es s ps st) {info : JobInfo}
    (hj : s.master.jobMgr.jobs.lookup j = some info) :
    ∃ st', st = some st' ∧ st'.status = info.status := by
  have htable := h.table
  rw [hj] at htable
  exact Option.map_eq_some_iff.mp htable.symm

/-- The job is submitted. -/
theorem submitted (h : Lives j es s ps st) (hfresh : s.master.jobMgr.jobs.lookup j = none)
    (hev : jobEvent j ev = some .submitted)
    (htable : (s'.master.jobMgr.jobs.lookup j).map JobInfo.status = some .queued) :
    Lives j (es ++ [ev]) s' ps (some ⟨.queued, false⟩) := by
  have hst : st = none := by
    have hnone := h.table
    rw [hfresh] at hnone
    exact Option.map_eq_none_iff.mp hnone.symm
  subst hst
  refine ⟨?_, htable, fun p hp => (h.fits p hp).of_ne (h.fits p hp).job_ne _, ?_, ?_⟩
  · rw [jobHistory_snoc, hev, h.path.eq_nil]
    exact .submitted
  · intro st' hst
    exact Or.inl (Option.some.inj hst ▸ rfl)
  · intro st' hst hne
    exact absurd (Option.some.inj hst ▸ rfl) hne

/-- The scheduler assigns the job. -/
theorem assign (h : Lives j es s ps st) (hguard : ForkGuard j es s ps)
    (honce : (es ++ [ev]).countP (assigns j) ≤ 1) (hassigns : assigns j ev = true)
    (hknown : s.master.jobMgr.jobs.lookup j ≠ none)
    (hev : jobEvent j ev = some (.wrote .assigned))
    (htable : (s'.master.jobMgr.jobs.lookup j).map JobInfo.status = some .assigned) :
    Lives j (es ++ [ev]) s' ps (some ⟨.assigned, false⟩) := by
  have hcount : (es ++ [ev]).countP (assigns j) = es.countP (assigns j) + 1 := by
    rw [List.countP_append, List.countP_singleton, if_pos hassigns]
  have hnone : es.countP (assigns j) = 0 := by omega
  obtain ⟨info, hj⟩ := Option.ne_none_iff_exists'.mp hknown
  obtain ⟨⟨progress, b⟩, rfl, -⟩ := h.exists_stage hj
  -- it has not been assigned before, so it is in the queue
  obtain rfl : progress = .queued := by
    by_contra hne
    have hpos := h.assigned _ rfl hne
    omega
  refine h.next hev (.assigned b) htable (fun p hp => ?_) (Or.inr (Or.inl rfl)) fun _ => by omega
  obtain ⟨i, hi⟩ := List.mem_iff_getElem?.mp hp
  exact (h.fits p hp).of_ne ((hguard.unassigned hnone).2 i p hi) _

/-- The job is cancelled. -/
theorem cancel (h : Lives j es s ps st) {info : JobInfo}
    (hj : s.master.jobMgr.jobs.lookup j = some info) (hinfo : info.status.isTerminal = false)
    (hev : jobEvent j ev = some .cancelled)
    (htable : (s'.master.jobMgr.jobs.lookup j).map JobInfo.status = some .cancelled) :
    ∃ st', Lives j (es ++ [ev]) s' ps st' := by
  obtain ⟨⟨progress, b⟩, rfl, hst⟩ := h.exists_stage hj
  rw [← hst] at hinfo
  cases b with
  | true => cases hinfo
  | false =>
    have hover : progress.isOver = false := by
      cases progress <;> first | rfl | cases hinfo
    refine ⟨_, h.next hev (.cancelled hover) htable (fun p hp => (h.fits p hp).cancelled true)
      (h.early ⟨progress, false⟩ rfl) fun hne => ?_⟩
    rw [List.countP_append]
    exact Nat.lt_of_lt_of_le (h.assigned _ rfl hne) (Nat.le_add_right _ _)

/-- A thread of the master, or a heartbeat, performs an operation on the table. -/
theorem quiet_step {i : ℕ} {t : ClusterTask} {e : ClusterEnv} {o : JobOp}
    (h : Lives j es s ps st) (hguard : ForkGuard j es s ps)
    (hclaims : claimsNothing (.master (.job o)) = true)
    (hfresh : o.isSubmit = true →
      s.master.jobMgr.jobs.lookup (shortId "job-" e.master.uuid) = none)
    (hs' : s'.master.jobMgr = (s.master.jobMgr.exec P.store e.master o).2)
    (hev : ev = .did i t e (.master (.job o)) (s.master.jobMgr.exec P.store e.master o).1)
    (honce : (es ++ [ev]).countP (assigns j) ≤ 1) :
    ∃ st', Lives j (es ++ [ev]) s' ps st' := by
  have htable := s.master.jobMgr.status_exec P.store e.master (o := o)
    (fun n ho => by subst ho; cases hclaims) j
  rw [← hs'] at htable
  subst hev
  cases hx : o.event j (s.master.jobMgr.exec P.store e.master o).1 with
  | none =>
    rw [hx] at htable
    exact ⟨st, h.idle hx htable h.fits fun spec pl hp => ⟨spec, pl, hp⟩⟩
  | some x =>
    rw [hx] at htable
    cases o with
    | submitJob spec userId username =>
      obtain ⟨hid, rfl⟩ := JobOp.event_submitJob hx
      exact ⟨_, h.submitted (hid ▸ hfresh rfl) hx htable⟩
    | updateJobStatus jobId status n =>
      obtain rfl : status = .assigned := of_decide_eq_true hclaims
      obtain ⟨rfl, hfound, rfl⟩ := JobOp.event_updateJobStatus hx
      have hknown := JobManager.updateJobStatus_fst.mp hfound
      exact ⟨_, h.assign hguard honce (by simp [assigns]) hknown hx htable⟩
    | cancelJob jobId =>
      obtain ⟨rfl, hdone, rfl⟩ := JobOp.event_cancelJob hx
      obtain ⟨info, hj, hinfo⟩ := JobManager.cancelJob_fst.mp hdone
      exact h.cancel hj hinfo hx htable
    | _ => cases hx

/-- The thread of a job moves. -/
theorem thread_step {i : ℕ} {e : ClusterEnv} {jobId : String} {spec : JobSpec}
    {pl pl' : ExecutionPlace} {op : ClusterOp} (h : Lives j es s ps st)
    (hguard : ForkGuard j es s ps) (hi : ps[i]? = some (.execution jobId spec pl))
    (hs : ExecutionStep nodeId workDir jobId spec pl op (s.exec P e op).1 pl') :
    ∃ st', Lives j (es ++ [.did i (.execution jobId spec) e op (s.exec P e op).1])
      (s.exec P e op).2 (ps.set i (.execution jobId spec pl')) st' := by
  obtain ⟨hrep, hstage⟩ : Fits j st (.execution jobId spec pl) := h.fits _ (List.mem_of_getElem? hi)
  have hlt := (List.getElem?_eq_some_iff.mp hi).1
  have hmem : .execution jobId spec pl' ∈ ps.set i (.execution jobId spec pl') :=
    List.mem_of_getElem? (List.getElem?_set_self hlt)
  have hthread (spec₁ : JobSpec) (pl₁ : ExecutionPlace) (hp : .execution j spec₁ pl₁ ∈ ps) :
      ∃ spec₂ pl₂, .execution j spec₂ pl₂ ∈ ps.set i (.execution jobId spec pl') := by
    obtain ⟨k, hk⟩ := List.mem_iff_getElem?.mp hp
    by_cases hki : k = i
    · subst hki
      rw [hi] at hk
      cases hk
      exact ⟨_, _, hmem⟩
    · exact ⟨_, _, List.mem_of_getElem? (by rwa [List.getElem?_set_ne (Ne.symm hki)])⟩
  have hold {st' : Option Stage} (hnew : Fits j st' (.execution jobId spec pl'))
      (hother : ∀ (k : ℕ) p, k ≠ i → ps[k]? = some p → Fits j st' p) (p : Place)
      (hp : p ∈ ps.set i (.execution jobId spec pl')) : Fits j st' p := by
    obtain ⟨k, hk⟩ := List.mem_iff_getElem?.mp hp
    rcases System.getElem?_set_inv hk with ⟨-, rfl⟩ | ⟨hne, hk⟩
    · exact hnew
    · exact hother k p hne hk
  have hstays (k : ℕ) (p : Place) (_ : k ≠ i) (hk : ps[k]? = some p) : Fits j st p :=
    h.fits p (List.mem_of_getElem? hk)
  rcases hs.next hrep with ⟨hsame, hop⟩ | ⟨status, rfl, hnext⟩
  · have hnew : Fits j st (.execution jobId spec pl') :=
      ⟨hs.reports hrep, fun hj => hsame ▸ hstage hj⟩
    cases op with
    | master o => cases hop
    | _ => exact ⟨st, h.idle rfl rfl (hold hnew hstays) hthread⟩
  · have htable := s.master.jobMgr.status_exec P.store e.master
      (o := .updateJobStatus jobId status nodeId) (fun n h => by cases h) j
    by_cases hj : jobId = j
    · subst hj
      obtain ⟨b, rfl⟩ := hstage rfl
      obtain ⟨info, hl, -⟩ := Option.map_eq_some_iff.mp h.table
      have hfound : (s.master.jobMgr.updateJobStatus e.master jobId status nodeId).1 = true :=
        JobManager.updateJobStatus_fst.mpr (by simp [hl])
      have hx : (JobOp.updateJobStatus jobId status nodeId).event jobId
          (s.master.jobMgr.exec P.store e.master (.updateJobStatus jobId status nodeId)).1 =
          some (.wrote status) := if_pos ⟨rfl, hfound⟩
      rw [hx] at htable
      have hne := ExecutionPlace.progress_ne_queued pl'
      refine ⟨_, h.next hx (hnext b) htable (hold ⟨hs.reports hrep, fun _ => ⟨false, rfl⟩⟩
        fun k p hki hk => (hstays k p hki hk).advance (fun spec₁ pl₁ hp => ?_) hne)
        (Or.inr (Or.inr ⟨_, _, hmem⟩)) fun _ => ?_⟩
      · -- there is one thread of the job
        subst hp
        exact hki (hguard.unique k i _ _ _ _ hk hi)
      · rw [List.countP_append]
        exact Nat.lt_of_lt_of_le (h.assigned _ rfl (ExecutionPlace.progress_ne_queued pl))
          (Nat.le_add_right _ _)
    · have hx : (JobOp.updateJobStatus jobId status nodeId).event j
          (s.master.jobMgr.exec P.store e.master (.updateJobStatus jobId status nodeId)).1 =
          none := if_neg fun h => hj h.1
      rw [hx] at htable
      exact ⟨st, h.idle hx htable (hold ⟨hs.reports hrep, fun heq => absurd heq hj⟩ hstays) hthread⟩

/-- A response is made for a job that is assigned. -/
theorem fits_polled (h : Lives j es s ps st) (hk : s.master.jobMgr.Keyed) {e : Env} :
    Fits j st (.polling (polled nodeId (s.master.jobMgr.listJobs e .assigned))) := by
  cases hpolled : polled nodeId (s.master.jobMgr.listJobs e .assigned) with
  | holding jobId spec =>
    intro hj
    subst hj
    have hjob : (Place.polling (polled nodeId (s.master.jobMgr.listJobs e .assigned))).job =
        some jobId := by
      rw [hpolled]
      rfl
    obtain ⟨info, hl, hst⟩ := assigned_of_polled nodeId hk hjob
    obtain ⟨st', rfl, hprogress⟩ := h.progress_of_assigned hl hst
    refine ⟨st', rfl, ?_⟩
    rw [hprogress]
    decide
  | _ => trivial

/-- A job that is handed to the executor and accepted has come as far as its assignment. -/
theorem stage_of_handed (h : Lives j es s ps st) (hguard : ForkGuard j es s ps) {i : ℕ}
    {spec : JobSpec} (hi : ps[i]? = some (.polling (.holding j spec)))
    (hnew : s.executor.runningJobs.lookup j = none) : ∃ b, st = some ⟨.assigned, b⟩ := by
  obtain ⟨⟨progress, b⟩, rfl, hne⟩ : ∃ st', st = some st' ∧ st'.progress ≠ .queued :=
    h.fits _ (List.mem_of_getElem? hi) rfl
  refine ⟨b, ?_⟩
  rcases h.early _ rfl with hq | ha | ⟨spec', pl, hp⟩
  · exact absurd hq hne
  · cases ha
    rfl
  · obtain ⟨k, hk⟩ := List.mem_iff_getElem?.mp hp
    exact absurd hk (hguard.not_execution_of_handed hi hnew)

/-- **One step of the system.** -/
theorem step {c c' : ClusterConfig Db Fs} (h : Lives j es c.state ps st)
    (hguard : ForkGuard j es c.state ps) (hwitnessed : Witnessed es c ps)
    (hs : (cluster P nodeId workDir).Step c ev c')
    (hm : Moves P nodeId workDir ps c.state ev ps' c'.state)
    (hstart : startsNoExecution ev = true) (hfresh : freshClusterJobId c ev = true)
    (honce : (es ++ [ev]).countP (assigns j) ≤ 1) :
    ∃ st', Lives j (es ++ [ev]) c'.state ps' st' := by
  have hset {i : ℕ} {p₀ w : Place} (hi : ps[i]? = some p₀)
      (hp₀ : ∀ spec pl, p₀ ≠ .execution j spec pl) (spec : JobSpec) (pl : ExecutionPlace)
      (hp : .execution j spec pl ∈ ps) : .execution j spec pl ∈ ps.set i w := by
    obtain ⟨k, hk⟩ := List.mem_iff_getElem?.mp hp
    have hki : i ≠ k := by
      rintro rfl
      exact hp₀ spec pl (Option.some.inj (hi.symm.trans hk))
    exact List.mem_of_getElem? (by rwa [List.getElem?_set_ne hki])
  generalize hstate : c'.state = s' at hm
  cases hm with
  | started t =>
    refine ⟨st, h.idle rfl rfl (fun p hp => ?_) fun spec pl hp =>
      ⟨spec, pl, List.mem_append_left _ hp⟩⟩
    rcases List.mem_append.mp hp with hp | hp
    · exact h.fits p hp
    · obtain rfl := List.mem_singleton.mp hp
      cases t with
      | execution => cases hstart
      | _ => trivial
  | @quiet i t e op hi hq =>
    obtain ⟨k, hth, -, -⟩ := hs.did_inv
    have hclaims := (hwitnessed.quiets _ _ hth hi).1
    cases op with
    | master o =>
      cases o with
      | job o =>
        refine h.quiet_step hguard hclaims (fun hsub => ?_) rfl rfl honce
        cases o with
        | submitJob spec userId username => exact Option.isNone_iff_eq_none.mp hfresh
        | _ => cases hsub
      | _ => exact ⟨st, h.idle rfl rfl h.fits fun spec pl hp => ⟨spec, pl, hp⟩⟩
    | _ => exact ⟨st, h.idle rfl rfl h.fits fun spec pl hp => ⟨spec, pl, hp⟩⟩
  | fetched t e hi =>
    refine ⟨st, h.idle rfl rfl (fun p hp => ?_) fun spec pl hp =>
      ⟨spec, pl, hset hi (fun _ _ h => by cases h) spec pl hp⟩⟩
    rcases List.mem_or_eq_of_mem_set hp with hp | rfl
    · exact h.fits p hp
    · exact h.fits_polled hguard.keyed
  | @handed i t e jobId spec hi hnew =>
    refine ⟨st, h.idle rfl rfl (fun p hp => ?_) fun spec pl hp =>
      ⟨spec, pl, List.mem_append_left _ (hset hi (fun _ _ h => by cases h) spec pl hp)⟩⟩
    rcases List.mem_append.mp hp with hp | hp
    · rcases List.mem_or_eq_of_mem_set hp with hp | rfl
      · exact h.fits p hp
      · trivial
    · obtain rfl := List.mem_singleton.mp hp
      refine ⟨trivial, fun hj => ?_⟩
      subst hj
      exact h.stage_of_handed hguard hi hnew
  | refused t e hi hold =>
    refine ⟨st, h.idle rfl rfl (fun p hp => ?_) fun spec pl hp =>
      ⟨spec, pl, hset hi (fun _ _ h => by cases h) spec pl hp⟩⟩
    rcases List.mem_or_eq_of_mem_set hp with hp | rfl
    · exact h.fits p hp
    · trivial
  | executed e hi hstep =>
    exact h.thread_step hguard hi hstep

end Lives

/-! ### The law -/

section Law

variable {db : Option Db} {adminDb : Db} {fairShare : Fs} {es : List ClusterEvent}
  {c : ClusterConfig Db Fs}

end Law

end CertOS
