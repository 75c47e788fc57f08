import CertOS.Agent.Places

/-!
# The exit status on its way to the master

The verdict on a process passes from `waitpid` through `jobResult`, the callback of
the daemon, the call it makes, and the handler that sets the status. The callback
takes every exit code but -1 for a success, and a process that was waited for
never has that one; the report that is sent is always `ReportJobCompleted`, and
its handler does not store the exit code.

So the last report of the thread of a job whose process ended in any way at all
sets the status to `COMPLETED` and leaves the exit code at 0
(`CertOS.run_reported`), and the master is told the truth just when the process
exited normally with code 0 (`CertOS.exit_status_faithful_iff`).
-/

namespace CertOS

open Interleave

variable {Db Fs : Type}

/-! ### The law -/

/-- The master knows how the process of the job ended: the status is `COMPLETED`
or `FAILED` as it exited with code 0 or not, and the exit code is the one that the
executor computed. -/
def ReportedFaithfully (jobId : String) (m : JobManager Db) (p : ProcessEnd) : Prop :=
  ∃ info, m.jobs.lookup jobId = some info ∧
    info.status = (if p.isSuccess then .completed else .failed) ∧
    ∀ out, info.exitCode = (jobResult jobId p.status out).exitCode

/-- Thread `i`, the thread of the job, waited for its process, which ended as
`p`. -/
def waited (i : ℕ) (jobId : String) (p : ProcessEnd) : ClusterEvent → Bool
  | .did k (.execution jobId' _) _ (.executor (.waitpid _)) p' => k = i ∧ jobId' = jobId ∧ p' = p
  | _ => false

/-- The threads of jobs are started by `execute_async`, and once thread `i` has
come to its end nobody changes the record of the job: it is not cancelled, its
node does not fail, and nobody else reports on it. -/
def recordKept (P : Platform Db Fs) (i : ℕ) (jobId : String) (c : ClusterConfig Db Fs)
    (ev : ClusterEvent) : Bool :=
  startsNoExecution ev &&
    match ev with
    | .start _ => true
    | .did _ _ e op _ => c.result i = none ∨
        (c.state.exec P e op).2.master.jobMgr.jobs.lookup jobId =
          c.state.master.jobMgr.jobs.lookup jobId

/-! ### The report -/

/-- **The report of a process that was waited for** sets the status to
`COMPLETED`. -/
theorem endStatus_jobResult (jobId : String) (p : ProcessEnd) (out : List UInt8) :
    endStatus (jobResult jobId p.status out) = .completed :=
  if_pos (Or.inr (jobResult_exitCode_ne jobId p out))

@[simp] theorem jobResult_jobId (jobId : String) (status : ℕ) (out : List UInt8) :
    (jobResult jobId status out).jobId = jobId := by
  simp only [jobResult]
  split
  · rfl
  · split <;> rfl

/-- What is known of a thread that has waited for its process: the result it is
going to report, or has reported. -/
def AfterWait (m : JobManager Db) (jobId : String) : ExecutionPlace → Prop
  | .removing res | .stampingEnd _ res | .reportingEnd _ res =>
    res.jobId = jobId ∧ endStatus res = .completed
  | .ended _ => ∃ info, m.jobs.lookup jobId = some info ∧ info.status = .completed
  | _ => False

variable {P : Platform Db Fs} {nodeId workDir : String}

/-- The thread goes on to its report and makes it. -/
theorem AfterWait.step {s : ClusterState Db Fs} {e : ClusterEnv} {jobId : String} {spec : JobSpec}
    {pl pl' : ExecutionPlace} {op : ClusterOp}
    (hs : ExecutionStep nodeId workDir jobId spec pl op (s.exec P e op).1 pl')
    (h : AfterWait s.master.jobMgr jobId pl)
    (hj : ∃ info, s.master.jobMgr.jobs.lookup jobId = some info) :
    AfterWait (s.exec P e op).2.master.jobMgr jobId pl' := by
  generalize ha : (s.exec P e op).1 = a at hs
  cases hs with
  | removed res => exact h
  | stampedEnd removed res t => exact h
  | reportedEnd removed res ok =>
    obtain ⟨hid, hend⟩ : res.jobId = jobId ∧ endStatus res = .completed := h
    obtain ⟨info, hj⟩ := hj
    refine ⟨JobManager.setStatus e.master.now (endStatus res) nodeId info, ?_, by simp [hend]⟩
    have hl := JobManager.lookup_updateJobStatus P.store e.master s.master.jobMgr
      (endStatus res) nodeId jobId
    rw [hj] at hl
    rw [hid]
    exact hl
  | _ => exact h.elim

/-! ### The records -/

/-- What always holds of the job table: the records are filed under their
identifiers, no exit code was ever stored, and every job that a thread is about
has a record. -/
structure Recorded (s : ClusterState Db Fs) (ps : List Place) : Prop where
  keyed : s.master.jobMgr.Keyed
  exitCode : ∀ j info, s.master.jobMgr.jobs.lookup j = some info → info.exitCode = 0
  known : ∀ (i : ℕ) (p : Place) (j : String), ps[i]? = some p → p.job = some j →
    ∃ info, s.master.jobMgr.jobs.lookup j = some info

/-- At the start there are no records and no threads. -/
theorem recorded_start {db : Option Db} {adminDb : Db} {fairShare : Fs} :
    Recorded (clusterStart db adminDb fairShare).state [] where
  keyed j info hj := by cases hj
  exitCode j info hj := by cases hj
  known k p j hk := by cases hk

/-- No operation writes an exit code. -/
theorem touch_exitCode (now : ℤ) (op : JobOp) (j : String) (info : JobInfo) :
    (op.touch now j info).exitCode = info.exitCode := by
  cases op with
  | updateJobStatus jobId status nodeId =>
    simp only [JobOp.touch, JobManager.setStatus]
    split_ifs <;> rfl
  | failJobsOnNode nodeId =>
    simp only [JobOp.touch, JobManager.failOnNode]
    split_ifs <;> rfl
  | cancelJob jobId =>
    simp only [JobOp.touch, JobManager.cancel]
    split_ifs <;> rfl
  | _ => rfl

/-- One step keeps the records. -/
theorem Recorded.step {ps ps' : List Place} {s s' : ClusterState Db Fs} {ev : ClusterEvent}
    (h : Recorded s ps) (hstart : startsNoExecution ev = true)
    (hm : Moves P nodeId workDir ps s ev ps' s') : Recorded s' ps' := by
  refine ⟨hm.keyed h.keyed, hm.forall_jobs (fun _ _ _ _ _ => rfl)
    (fun _ _ _ o _ _ now j info hi => (touch_exitCode now o j info).trans hi) h.exitCode, ?_⟩
  intro k p j hk hp
  refine hm.exists_lookup ?_
  cases hm with
  | started t =>
    rcases System.getElem?_concat_inv hk with hk | ⟨-, rfl⟩
    · exact h.known k p j hk hp
    · cases t with
      | execution jobId spec => cases hstart
      | _ => cases hp
  | quiet t e hi hq => exact h.known k p j hk hp
  | fetched t e hi =>
    rcases System.getElem?_set_inv hk with ⟨-, rfl⟩ | ⟨-, hk⟩
    · obtain ⟨info, hj, -⟩ := assigned_of_polled nodeId h.keyed hp
      exact ⟨info, hj⟩
    · exact h.known k p j hk hp
  | handed t e hi hnew =>
    rcases System.getElem?_concat_inv hk with hk | ⟨-, rfl⟩
    · rcases System.getElem?_set_inv hk with ⟨-, rfl⟩ | ⟨-, hk⟩
      · cases hp
      · exact h.known k p j hk hp
    · exact h.known _ _ j hi hp
  | refused t e hi hold =>
    rcases System.getElem?_set_inv hk with ⟨-, rfl⟩ | ⟨-, hk⟩
    · cases hp
    · exact h.known k p j hk hp
  | executed e hi hs =>
    rcases System.getElem?_set_inv hk with ⟨-, rfl⟩ | ⟨-, hk⟩
    · exact h.known _ _ j hi hp
    · exact h.known k p j hk hp

/-! ### Runs -/

/-- What is known of thread `i` when it has waited for the process of the job. -/
def Reported (i : ℕ) (jobId : String) (s : ClusterState Db Fs) (ps : List Place) : Prop :=
  ∃ spec pl, ps[i]? = some (.execution jobId spec pl) ∧ AfterWait s.master.jobMgr jobId pl

theorem waited_iff {i : ℕ} {jobId : String} {p : ProcessEnd} {ev : ClusterEvent} :
    waited i jobId p ev = true ↔
      ∃ spec e pid, ev = .did i (.execution jobId spec) e (.executor (.waitpid pid)) p := by
  constructor
  · intro h
    simp only [waited] at h
    split at h
    · obtain ⟨rfl, rfl, rfl⟩ := of_decide_eq_true h
      exact ⟨_, _, _, rfl⟩
    · cases h
  · rintro ⟨spec, e, pid, rfl⟩
    simp [waited]

/-- The step in which the thread waits. -/
theorem reported_of_waited {ps ps' : List Place} {s s' : ClusterState Db Fs} {ev : ClusterEvent}
    {i : ℕ} {jobId : String} {p : ProcessEnd} (hm : Moves P nodeId workDir ps s ev ps' s')
    (hw : waited i jobId p ev = true) : Reported i jobId s' ps' := by
  obtain ⟨spec, e, pid, rfl⟩ := waited_iff.mp hw
  cases hm with
  | quiet t e hi hq => cases hq
  | executed e hi hs =>
    have hlt := (List.getElem?_eq_some_iff.mp hi).1
    cases hs with
    | waited pid chunks processEnd =>
      exact ⟨spec, _, List.getElem?_set_self hlt, jobResult_jobId _ _ _, endStatus_jobResult _ _ _⟩

/-- Another thread moves: what is known stays known, unless the thread has come to
its end and the other one changes the record. -/
theorem AfterWait.of_other {c : ClusterConfig Db Fs} {ps : List Place} {i : ℕ} {jobId : String}
    {spec : JobSpec} {pl : ExecutionPlace} (h : AfterWait c.state.master.jobMgr jobId pl)
    (hplaced : Placed P nodeId workDir c ps) (hi : ps[i]? = some (.execution jobId spec pl))
    (m' : JobManager Db)
    (hkept : c.result i = none ∨ m'.jobs.lookup jobId = c.state.master.jobMgr.jobs.lookup jobId) :
    AfterWait m' jobId pl := by
  cases pl with
  | ended removed =>
    obtain ⟨⟨t, prog⟩, hth, -, rfl⟩ := hplaced.exists_thread hi
    have hover : c.result i = some .done := Config.result_eq_some.mpr ⟨t, hth⟩
    obtain ⟨info, hj, hst⟩ := h
    rcases hkept with hnone | hsame
    · rw [hover] at hnone
      cases hnone
    · exact ⟨info, hsame.trans hj, hst⟩
  | _ => exact h

/-- The steps after it. -/
theorem Reported.step {c : ClusterConfig Db Fs} {ps ps' : List Place} {s' : ClusterState Db Fs}
    {ev : ClusterEvent} {i : ℕ} {jobId : String} (hplaced : Placed P nodeId workDir c ps)
    (hrec : Recorded c.state ps) (hkept : recordKept P i jobId c ev = true)
    (hm : Moves P nodeId workDir ps c.state ev ps' s') (h : Reported i jobId c.state ps) :
    Reported i jobId s' ps' := by
  obtain ⟨spec, pl, hi, hafter⟩ := h
  have hlt := (List.getElem?_eq_some_iff.mp hi).1
  have hother (m' : JobManager Db) := hafter.of_other hplaced hi m'
  replace hkept := ((Bool.and_eq_true _ _).mp hkept).2
  -- a thread that is polling is not thread `i`
  have hne {k : ℕ} {pl' : PollingPlace} (hk : ps[k]? = some (.polling pl')) : k ≠ i := by
    rintro rfl
    rw [hi] at hk
    cases hk
  cases hm with
  | started t =>
    exact ⟨spec, pl, by rw [List.getElem?_append_left hlt, hi], hother _ (Or.inr rfl)⟩
  | quiet t e hk hq => exact ⟨spec, pl, hi, hother _ (of_decide_eq_true hkept)⟩
  | fetched t e hk =>
    exact ⟨spec, pl, by rw [List.getElem?_set_ne (hne hk), hi], hother _ (Or.inr rfl)⟩
  | handed t e hk hnew =>
    refine ⟨spec, pl, ?_, hother _ (Or.inr rfl)⟩
    rw [List.getElem?_append_left (by rwa [List.length_set]), List.getElem?_set_ne (hne hk), hi]
  | refused t e hk hold =>
    exact ⟨spec, pl, by rw [List.getElem?_set_ne (hne hk), hi], hother _ (Or.inr rfl)⟩
  | @executed k e jobId' spec' pl₀ pl' op hk hs =>
    by_cases hki : k = i
    · subst hki
      obtain ⟨rfl, rfl, rfl⟩ : jobId' = jobId ∧ spec' = spec ∧ pl₀ = pl := by
        simpa using hk.symm.trans hi
      exact ⟨spec', pl', List.getElem?_set_self hlt,
        hafter.step hs (hrec.known _ _ _ hk rfl)⟩
    · exact ⟨spec, pl, by rw [List.getElem?_set_ne hki, hi], hother _ (of_decide_eq_true hkept)⟩

/-- A thread that has come to its end has made its report. -/
theorem Reported.completed {c : ClusterConfig Db Fs} {ps : List Place} {i : ℕ} {jobId : String}
    (hplaced : Placed P nodeId workDir c ps) (h : Reported i jobId c.state ps)
    (hover : c.result i = some .done) :
    ∃ info, c.state.master.jobMgr.jobs.lookup jobId = some info ∧ info.status = .completed := by
  obtain ⟨spec, pl, hi, hafter⟩ := h
  obtain ⟨⟨t, prog⟩, hth, -, hprog⟩ := hplaced.exists_thread hi
  obtain ⟨t', hth'⟩ := Config.result_eq_some.mp hover
  obtain ⟨rfl, rfl⟩ : t = t' ∧ prog = .ret .done := by simpa using hth.symm.trans hth'
  cases pl with
  | ended removed => exact hafter
  | removing res => cases hprog
  | stampingEnd removed res =>
    rw [executionAt_stampingEnd] at hprog
    cases hprog
  | reportingEnd removed res => cases hprog
  | _ => exact hafter.elim

/-- **The last report of a thread that has waited for its process**: at the end
of the thread the job is completed, and no exit code was stored. -/
theorem run_reported {db : Option Db} {adminDb : Db} {fairShare : Fs} {es : List ClusterEvent}
    {c : ClusterConfig Db Fs} {i : ℕ} {jobId : String} {p : ProcessEnd}
    (h : (cluster P nodeId workDir).Run (fun c ev => recordKept P i jobId c ev = true)
      (clusterStart db adminDb fairShare) es c)
    (hw : ∃ ev ∈ es, waited i jobId p ev = true) (hover : c.result i = some .done) :
    ∃ info, c.state.master.jobMgr.jobs.lookup jobId = some info ∧ info.status = .completed ∧
      info.exitCode = 0 := by
  have hinv : ∃ ps, Placed P nodeId workDir c ps ∧ Recorded c.state ps ∧
      ((∃ ev ∈ es, waited i jobId p ev = true) → Reported i jobId c.state ps) := by
    refine run_places (I := fun es s ps => Recorded s ps ∧
      ((∃ ev ∈ es, waited i jobId p ev = true) → Reported i jobId s ps))
      ⟨recorded_start, fun ⟨ev, hev, _⟩ => by cases hev⟩ ?_ h
    rintro es c ev ps s' ps' hplaced ⟨hrec, hrep⟩ hkept hm
    have hstart : startsNoExecution ev = true := ((Bool.and_eq_true _ _).mp hkept).1
    refine ⟨hrec.step hstart hm, ?_⟩
    rintro ⟨ev', hev', hw'⟩
    rcases List.mem_append.mp hev' with hev' | hev'
    · exact (hrep ⟨ev', hev', hw'⟩).step hplaced hrec hkept hm
    · obtain rfl := List.mem_singleton.mp hev'
      exact reported_of_waited hm hw'
  obtain ⟨ps, hplaced, hrec, hrep⟩ := hinv
  obtain ⟨info, hj, hst⟩ := (hrep hw).completed hplaced hover
  exact ⟨info, hj, hst, hrec.exitCode jobId info hj⟩

/-- **The exit status reaches the master faithfully just when it is 0.** -/
theorem exit_status_faithful_iff {db : Option Db} {adminDb : Db} {fairShare : Fs}
    {es : List ClusterEvent} {c : ClusterConfig Db Fs} {i : ℕ} {jobId : String} {p : ProcessEnd}
    (h : (cluster P nodeId workDir).Run (fun c ev => recordKept P i jobId c ev = true)
      (clusterStart db adminDb fairShare) es c)
    (hw : ∃ ev ∈ es, waited i jobId p ev = true) (hover : c.result i = some .done) :
    ReportedFaithfully jobId c.state.master.jobMgr p ↔ p.isSuccess = true := by
  obtain ⟨info, hj, hst, hcode⟩ := run_reported h hw hover
  constructor
  · rintro ⟨info', hj', hst', -⟩
    obtain rfl : info = info' := Option.some.inj (hj.symm.trans hj')
    by_contra hp
    rw [hst, if_neg hp] at hst'
    cases hst'
  · intro hp
    refine ⟨info, hj, by rw [hst, if_pos hp], fun out => ?_⟩
    rw [hcode, jobResult_exitCode_eq_zero.mpr hp]

/-! ### Two runs -/

/-- `assignSchedule` up to the assignment, and then the agent: it fetches the job in
thread 3, and thread 4 executes it and comes to its end; the process ends as `p`. -/
def executeSchedule (p : ProcessEnd) : List (Choice ClusterEnv ClusterTask) :=
  onCluster (assignSchedule.take 10) ++
  .start .polling :: List.replicate 2 (.move 3 { master := { now := 103 } }) ++
  List.replicate 10 (.move 4 { master := { now := 104 }, agent := { processEnd := p } })

/-- The check that a run of `executeSchedule` meets the premises of the law. -/
def executes (p : ProcessEnd) : Bool :=
  ((cluster barePlatform "node-00000000" "/work").play
      (recordKept barePlatform 4 "job-00000000") (clusterStart none {} ()) (executeSchedule p)).any
    fun c => ((cluster barePlatform "node-00000000" "/work").trace (clusterStart none {} ())
        (executeSchedule p)).any (waited 4 "job-00000000" p) && c.result 4 = some .done

theorem run_of_executes {p : ProcessEnd} (h : executes p = true) :
    ∃ es c, (cluster barePlatform "node-00000000" "/work").Run
        (fun c ev => recordKept barePlatform 4 "job-00000000" c ev = true)
        (clusterStart none {} ()) es c ∧
      (∃ ev ∈ es, waited 4 "job-00000000" p ev = true) ∧ c.result 4 = some .done := by
  obtain ⟨es, c, hrun, hp⟩ := System.exists_trace
    (S := cluster barePlatform "node-00000000" "/work")
    (g := recordKept barePlatform 4 "job-00000000") (c := clusterStart none {} ())
    (p := fun es c => es.any (waited 4 "job-00000000" p) && c.result 4 = some .done)
    (executeSchedule p) h
  obtain ⟨hw, hover⟩ := (Bool.and_eq_true _ _).mp hp
  exact ⟨es, c, hrun, List.any_eq_true.mp hw, of_decide_eq_true hover⟩

/-- The law at work: the process exits with code 0, and the master learns it. -/
theorem exit_status_faithful_iff_success :
    ∃ es c, (cluster barePlatform "node-00000000" "/work").Run
        (fun c ev => recordKept barePlatform 4 "job-00000000" c ev = true)
        (clusterStart none {} ()) es c ∧
      (∃ ev ∈ es, waited 4 "job-00000000" (.exited 0) ev = true) ∧ c.result 4 = some .done ∧
      ReportedFaithfully "job-00000000" c.state.master.jobMgr (.exited 0) := by
  obtain ⟨es, c, hrun, hw, hover⟩ := run_of_executes (p := .exited 0) (by decide +kernel)
  exact ⟨es, c, hrun, hw, hover, (exit_status_faithful_iff hrun hw hover).mpr rfl⟩

/-- **A failure is reported as a success**: a process exits with code 1, nobody else
touches the record of its job, and the master has the job as completed, with exit
code 0. -/
theorem failure_completes :
    ∃ es c, (cluster barePlatform "node-00000000" "/work").Run
        (fun c ev => recordKept barePlatform 4 "job-00000000" c ev = true)
        (clusterStart none {} ()) es c ∧
      (∃ ev ∈ es, waited 4 "job-00000000" (.exited 1) ev = true) ∧ c.result 4 = some .done ∧
      (∃ info, c.state.master.jobMgr.jobs.lookup "job-00000000" = some info ∧
        info.status = .completed ∧ info.exitCode = 0) ∧
      ¬ ReportedFaithfully "job-00000000" c.state.master.jobMgr (.exited 1) := by
  obtain ⟨es, c, hrun, hw, hover⟩ := run_of_executes (p := .exited 1) (by decide +kernel)
  obtain ⟨info, hj, hst, hcode⟩ := run_reported hrun hw hover
  refine ⟨es, c, hrun, hw, hover, ⟨info, hj, hst, hcode⟩, ?_⟩
  rintro ⟨info', hj', hst', -⟩
  obtain rfl : info = info' := Option.some.inj (hj.symm.trans hj')
  rw [hst] at hst'
  exact absurd hst' (by decide)

end CertOS
