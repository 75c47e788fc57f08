import CertOS.Agent.Places

/-!
# How often a job is forked

Two guards stand between a job and a second execution: the master offers it only
as long as it is assigned, and the executor refuses a job that is in its map. The
first ends with the report that the job has started, the second with the removal
after the process has ended. Between the two stands the response of a `FetchJob`:
it may name the job, be under way while the job starts, runs and ends, and be
handed to the executor when both guards are gone
(`CertOS.job_forked_twice`).

If whenever a job is removed from the map no response that names it is under way,
one of the guards is always up, and a job that is assigned once is forked at most
once (`CertOS.forked_at_most_once`).
-/

namespace CertOS

open Interleave

variable {Db Fs : Type}

/-! ### The law -/

/-- The event assigns the job. -/
def assigns (j : String) : ClusterEvent → Bool
  | .did _ _ _ (.master (.job (.updateJobStatus jobId status _))) _ =>
    jobId = j ∧ status = .assigned
  | _ => false

/-- The event forks a process for the job. -/
def forksJob (j : String) : ClusterEvent → Bool
  | .did _ (.execution jobId _) _ (.executor (.fork _ _)) (some _) => jobId = j
  | _ => false

/-- The thread was told to execute the job, and has not handed it to the executor
yet. -/
def holdsJob (j : String) (th : Thread ClusterOp.Res ClusterTask Reply) : Bool :=
  match th.prog with
  | .call (.executor (.executeAsync jobId _)) _ => jobId = j
  | _ => false

/-- When the job is removed from the map of running jobs, no response that names it
is under way. -/
def fetchSettled (j : String) (c : ClusterConfig Db Fs) : ClusterEvent → Bool
  | .did _ _ _ (.executor (.removeRunning jobId)) _ =>
    jobId ≠ j ∨ c.threads.all fun th => !holdsJob j th
  | _ => true

/-! ### The places of one job -/

namespace ExecutionPlace

/-- The thread has removed its job from the map. -/
def removed : ExecutionPlace → Bool
  | .stampingEnd removed _ | .reportingEnd removed _ | .ended removed => removed
  | _ => false

/-- The thread has reported that its job has started. -/
def reported : ExecutionPlace → Bool
  | .reading _ | .waiting _ _ | .removing _ => true
  | pl => pl.removed

/-- The thread has forked. -/
def forked : ExecutionPlace → Bool
  | .registering _ | .stampingStart _ | .reportingStart _ => true
  | pl => pl.reported

theorem reported_of_removed {pl : ExecutionPlace} (h : pl.removed = true) : pl.reported = true := by
  cases pl with
  | reading | waiting | removing => rfl
  | _ => exact h

end ExecutionPlace

section Steps

variable {nodeId workDir jobId : String} {spec : JobSpec} {pl pl' : ExecutionPlace} {op : ClusterOp}
  {a : op.Res}

/-- A step that removes the job stands in front of the removal. -/
theorem ExecutionStep.removed_inv (h : ExecutionStep nodeId workDir jobId spec pl op a pl')
    (hr : pl'.removed = true) :
    pl.removed = true ∨ (op = .executor (.removeRunning jobId) ∧ pl.reported = true) := by
  cases h with
  | removed res => exact Or.inr ⟨rfl, rfl⟩
  | stampedEnd removed res t => exact Or.inl hr
  | reportedEnd removed res ok => exact Or.inl hr
  | _ => cases hr

theorem ExecutionStep.removed_of_removed (h : ExecutionStep nodeId workDir jobId spec pl op a pl')
    (hr : pl.removed = true) : pl'.removed = true := by
  cases h with
  | stampedEnd removed res t => exact hr
  | reportedEnd removed res ok => exact hr
  | _ => cases hr

/-- After its removal a job has been reported before, or is reported in the step. -/
theorem ExecutionStep.reported_inv (h : ExecutionStep nodeId workDir jobId spec pl op a pl')
    (hr : pl'.reported = true) :
    pl.reported = true ∨ op = .master (.job (.updateJobStatus jobId .running nodeId)) := by
  cases h with
  | reportedStart pid ok => exact Or.inr rfl
  | stampedEnd removed res t => exact Or.inl hr
  | reportedEnd removed res ok => exact Or.inl hr
  | read | waited | removed => exact Or.inl rfl
  | _ => cases hr

theorem ExecutionStep.forked_of_forked (h : ExecutionStep nodeId workDir jobId spec pl op a pl')
    (hf : pl.forked = true) : pl'.forked = true := by
  cases h with
  | pipeFailed | packed | plain | unpacked | forkFailed => cases hf
  | stampedEnd removed res t => exact hf
  | reportedEnd removed res ok => exact hf
  | _ => rfl

end Steps

variable {P : Platform Db Fs} {nodeId workDir j : String} {ps ps' : List Place}
  {s s' : ClusterState Db Fs} {ev : ClusterEvent}

/-- The thread of a job at a place after a move: it stood there before, it has moved
there, or it has just been started. -/
theorem Moves.execution_inv (h : Moves P nodeId workDir ps s ev ps' s') {i : ℕ} {spec : JobSpec}
    {pl' : ExecutionPlace} (hi : ps'[i]? = some (.execution j spec pl'))
    (hstart : startsNoExecution ev = true) :
    ps[i]? = some (.execution j spec pl') ∨
    (∃ pl e op, ps[i]? = some (.execution j spec pl) ∧
      ev = .did i (.execution j spec) e op (s.exec P e op).1 ∧
      ExecutionStep nodeId workDir j spec pl op (s.exec P e op).1 pl' ∧
      s' = (s.exec P e op).2) ∨
    (pl' = .opening ∧ i = ps.length ∧ s.executor.runningJobs.lookup j = none ∧
      s'.executor.runningJobs.lookup j ≠ none ∧
      ∃ k : ℕ, ps[k]? = some (.polling (.holding j spec))) := by
  cases h with
  | started t =>
    rcases System.getElem?_concat_inv hi with hi | ⟨-, ht⟩
    · exact Or.inl hi
    · cases t with
      | execution => cases hstart
      | _ => cases ht
  | quiet t e hk hq => exact Or.inl hi
  | fetched t e hk =>
    rcases System.getElem?_set_inv hi with ⟨-, hp⟩ | ⟨-, hi⟩
    · cases hp
    · exact Or.inl hi
  | handed t e hk hnew =>
    rcases System.getElem?_concat_inv hi with hi | ⟨hlen, hp⟩
    · rcases System.getElem?_set_inv hi with ⟨-, hp⟩ | ⟨-, hi⟩
      · cases hp
      · exact Or.inl hi
    · -- the thread that is started now
      cases hp
      refine Or.inr (Or.inr ⟨rfl, by simpa using hlen, hnew, ?_, _, hk⟩)
      simp
  | refused t e hk hold =>
    rcases System.getElem?_set_inv hi with ⟨-, hp⟩ | ⟨-, hi⟩
    · cases hp
    · exact Or.inl hi
  | executed e hk hs =>
    rcases System.getElem?_set_inv hi with ⟨rfl, hp⟩ | ⟨-, hi⟩
    · cases hp
      exact Or.inr (Or.inl ⟨_, e, _, hk, rfl, hs, rfl⟩)
    · exact Or.inl hi

/-- A response that names the job after a move was under way before, or has just
been made, and then the job was assigned. -/
theorem Moves.holding_inv (h : Moves P nodeId workDir ps s ev ps' s') (hk : s.master.jobMgr.Keyed)
    {i : ℕ} {spec : JobSpec} (hi : ps'[i]? = some (.polling (.holding j spec))) :
    ps[i]? = some (.polling (.holding j spec)) ∨
      ∃ info, s.master.jobMgr.jobs.lookup j = some info ∧ info.status = .assigned := by
  cases h with
  | started t =>
    rcases System.getElem?_concat_inv hi with hi | ⟨-, ht⟩
    · exact Or.inl hi
    · cases t <;> cases ht
  | quiet t e hq => exact Or.inl hi
  | fetched t e hp =>
    rcases System.getElem?_set_inv hi with ⟨-, hnew⟩ | ⟨-, hi⟩
    · -- the response has just been made from the jobs that are assigned
      refine Or.inr (assigned_of_polled nodeId hk (e := e.master) ?_)
      rw [← hnew]
      rfl
    · exact Or.inl hi
  | handed t e hp hnew =>
    rcases System.getElem?_concat_inv hi with hi | ⟨-, hp'⟩
    · rcases System.getElem?_set_inv hi with ⟨-, hp'⟩ | ⟨-, hi⟩
      · cases hp'
      · exact Or.inl hi
    · cases hp'
  | refused t e hp hold =>
    rcases System.getElem?_set_inv hi with ⟨-, hp'⟩ | ⟨-, hi⟩
    · cases hp'
    · exact Or.inl hi
  | executed e hp hs =>
    rcases System.getElem?_set_inv hi with ⟨-, hp'⟩ | ⟨-, hi⟩
    · cases hp'
    · exact Or.inl hi

/-- The thread of a job is at a place after a move, the same one or the next. -/
theorem Moves.execution_stays (h : Moves P nodeId workDir ps s ev ps' s') {i : ℕ} {spec : JobSpec}
    {pl : ExecutionPlace} (hi : ps[i]? = some (.execution j spec pl)) :
    ∃ pl', ps'[i]? = some (.execution j spec pl') ∧ (pl.forked = true → pl'.forked = true) := by
  have hlt := (List.getElem?_eq_some_iff.mp hi).1
  have hne {k : ℕ} {pl' : PollingPlace} (hk : ps[k]? = some (.polling pl')) : k ≠ i := by
    rintro rfl
    rw [hi] at hk
    cases hk
  cases h with
  | started t => exact ⟨pl, by rw [List.getElem?_append_left hlt, hi], id⟩
  | quiet t e hk hq => exact ⟨pl, hi, id⟩
  | fetched t e hk => exact ⟨pl, by rw [List.getElem?_set_ne (hne hk), hi], id⟩
  | handed t e hk hnew =>
    refine ⟨pl, ?_, id⟩
    rw [List.getElem?_append_left (by rwa [List.length_set]), List.getElem?_set_ne (hne hk), hi]
  | refused t e hk hold => exact ⟨pl, by rw [List.getElem?_set_ne (hne hk), hi], id⟩
  | @executed k e jobId spec' pl₀ pl' op hk hs =>
    by_cases hki : k = i
    · subst hki
      obtain ⟨rfl, rfl, rfl⟩ : jobId = j ∧ spec' = spec ∧ pl₀ = pl := by
        simpa using hk.symm.trans hi
      exact ⟨pl', List.getElem?_set_self hlt, hs.forked_of_forked⟩
    · exact ⟨pl, by rw [List.getElem?_set_ne hki, hi], id⟩

/-- A job stays in the map of running jobs until its thread removes it. -/
theorem Moves.running (h : Moves P nodeId workDir ps s ev ps' s')
    (hrun : s.executor.runningJobs.lookup j ≠ none) :
    s'.executor.runningJobs.lookup j ≠ none ∨
      ∃ (i : ℕ) (spec : JobSpec) (res : JobResult),
        ps'[i]? = some (.execution j spec (.stampingEnd true res)) := by
  cases h with
  | started | fetched | refused => exact Or.inl hrun
  | quiet t e hk hq =>
    rename_i op
    refine Or.inl ?_
    cases op with
    | executor o =>
      cases o with
      | cancel | getRunningCount => exact hrun
      | _ => cases hq
    | _ => exact hrun
  | @handed k t e jobId spec hk hnew =>
    refine Or.inl ?_
    by_cases hj : j = jobId
    · subst hj
      simp
    · simpa [AList.lookup_insert_ne hj] using hrun
  | @executed k e jobId spec pl pl' op hk hs =>
    have hlt := (List.getElem?_eq_some_iff.mp hk).1
    generalize (s.exec P e op).1 = a at hs
    cases hs with
    | registered pid =>
      -- the entry gets the process and stays
      refine Or.inl ?_
      simp only [ClusterState.exec_executor, JobExecutor.exec, Table.lookup_modify]
      split
      · rename_i hid
        subst hid
        simpa using hrun
      · exact hrun
    | removed res =>
      by_cases hj : j = jobId
      · subst hj
        exact Or.inr ⟨k, spec, res, List.getElem?_set_self hlt⟩
      · refine Or.inl ?_
        simpa [JobExecutor.exec, AList.lookup_erase_ne hj] using hrun
    | _ => exact Or.inl hrun

/-- Nothing but an assignment makes a job assigned. -/
theorem Moves.not_assigned (h : Moves P nodeId workDir ps s ev ps' s')
    (hev : assigns j ev = false)
    (hj : ∀ info, s.master.jobMgr.jobs.lookup j = some info → info.status ≠ .assigned) :
    ∀ info, s'.master.jobMgr.jobs.lookup j = some info → info.status ≠ .assigned := by
  have hall := h.forall_jobs (q := fun j' info => j' = j → info.status ≠ .assigned)
    (fun _ _ _ _ _ _ => by simp [JobManager.newJob]) ?_ (fun j' info hl hjj => hj info (hjj ▸ hl))
  · exact fun info hl => hall j info hl rfl
  · rintro i t e o r rfl now j' info hinfo rfl
    replace hinfo := hinfo rfl
    cases o with
    | updateJobStatus jobId status n =>
      rw [JobOp.touch]
      split
      · -- the new status is that of the operation, and that is no assignment
        rename_i hid
        rw [JobManager.setStatus_status]
        rintro rfl
        simp [assigns, hid] at hev
      · exact hinfo
    | failJobsOnNode n =>
      rw [JobOp.touch, JobManager.failOnNode]
      split
      · simp
      · exact hinfo
    | cancelJob jobId =>
      simp only [JobOp.touch, JobManager.cancel]
      split_ifs
      · exact hinfo
      · simp
      · exact hinfo
    | _ => exact hinfo

/-! ### The invariant -/

/-- Where a run with at most one assignment of the job stands. -/
structure ForkGuard (j : String) (es : List ClusterEvent) (s : ClusterState Db Fs)
    (ps : List Place) : Prop where
  keyed : s.master.jobMgr.Keyed
  /-- Before the assignment the job is not assigned and no thread is about it. -/
  unassigned : es.countP (assigns j) = 0 →
    (∀ info, s.master.jobMgr.jobs.lookup j = some info → info.status ≠ .assigned) ∧
      ∀ (i : ℕ) (p : Place), ps[i]? = some p → p.job ≠ some j
  /-- There is one thread of the job. -/
  unique : ∀ (i k : ℕ) spec spec' pl pl', ps[i]? = some (.execution j spec pl) →
    ps[k]? = some (.execution j spec' pl') → i = k
  /-- The second guard is up until the job is removed. -/
  running : ∀ (i : ℕ) spec pl, ps[i]? = some (.execution j spec pl) → pl.removed = false →
    s.executor.runningJobs.lookup j ≠ none
  /-- The first guard is up from the report on. -/
  reported : ∀ (i : ℕ) spec pl, ps[i]? = some (.execution j spec pl) → pl.reported = true →
    ∀ info, s.master.jobMgr.jobs.lookup j = some info → info.status ≠ .assigned
  /-- No response that names the job has outlived the second guard. -/
  settled : ∀ (i : ℕ) spec pl, ps[i]? = some (.execution j spec pl) → pl.removed = true →
    ∀ (k : ℕ) spec', ps[k]? ≠ some (.polling (.holding j spec'))
  forked : es.countP (forksJob j) ≤ 1 ∧ (0 < es.countP (forksJob j) →
    ∃ (i : ℕ) (spec : JobSpec) (pl : ExecutionPlace),
      ps[i]? = some (.execution j spec pl) ∧ pl.forked = true)

theorem forksJob_iff : forksJob j ev = true ↔ ∃ (i : ℕ) (spec : JobSpec) (e : ClusterEnv)
    (dir : Option String) (args : List String) (pid : ℕ),
    ev = .did i (.execution j spec) e (.executor (.fork dir args)) (some pid) := by
  constructor
  · intro h
    simp only [forksJob] at h
    split at h
    · obtain rfl := of_decide_eq_true h
      exact ⟨_, _, _, _, _, _, rfl⟩
    · cases h
  · rintro ⟨i, spec, e, dir, args, pid, rfl⟩
    simp [forksJob]

/-- At the start there are no jobs and no threads. -/
theorem forkGuard_start {db : Option Db} {adminDb : Db} {fairShare : Fs} :
    ForkGuard j [] (clusterStart db adminDb fairShare).state [] where
  keyed j info hj := by cases hj
  unassigned _ := by
    refine ⟨fun info hj => ?_, fun i p hi => ?_⟩
    · cases hj
    · cases hi
  unique i k spec spec' pl pl' hi := by cases hi
  running i spec pl hi := by cases hi
  reported i spec pl hi := by cases hi
  settled i spec pl hi := by cases hi
  forked := ⟨Nat.zero_le _, fun h => absurd h (Nat.lt_irrefl 0)⟩

/-- An event that forks the job is the fork of a thread that stands in front of
it. -/
theorem Moves.forksJob_inv (h : Moves P nodeId workDir ps s ev ps' s')
    (hf : forksJob j ev = true) :
    ∃ (i : ℕ) (spec : JobSpec) (pid : ℕ), ps[i]? = some (.execution j spec .forking) ∧
      ps'[i]? = some (.execution j spec (.registering pid)) := by
  obtain ⟨k, spec, e, dir, args, pid, rfl⟩ := forksJob_iff.mp hf
  generalize ha : some pid = a at h
  cases h with
  | quiet t e hk hq => cases hq
  | executed e hk hs =>
    have hlt := (List.getElem?_eq_some_iff.mp hk).1
    generalize (s.exec P e (.executor (.fork dir args))).1 = a at hs ha
    cases hs with
    | forked pid => exact ⟨k, spec, pid, hk, List.getElem?_set_self hlt⟩
    | forkFailed => cases ha

namespace ForkGuard

variable {es : List ClusterEvent}

/-- If there is a thread of the job, the job has been assigned. -/
theorem assigned_of_execution (h : ForkGuard j es s ps) {i : ℕ} {spec : JobSpec}
    {pl : ExecutionPlace} (hi : ps[i]? = some (.execution j spec pl)) :
    0 < es.countP (assigns j) := by
  rcases Nat.eq_zero_or_pos (es.countP (assigns j)) with hz | hpos
  · exact absurd rfl ((h.unassigned hz).2 i _ hi)
  · exact hpos

/-- A thread of the job and a response that names it: the job has not been
removed. -/
theorem not_removed (h : ForkGuard j es s ps) {i k : ℕ} {spec spec' : JobSpec} {pl : ExecutionPlace}
    (hi : ps[i]? = some (.execution j spec pl))
    (hk : ps[k]? = some (.polling (.holding j spec'))) : pl.removed = false := by
  cases hr : pl.removed with
  | false => rfl
  | true => exact absurd hk (h.settled i spec pl hi hr k spec')

/-- There is no thread of the job when it is handed to the executor and
accepted. -/
theorem not_execution_of_handed (h : ForkGuard j es s ps) {k : ℕ} {spec' : JobSpec}
    (hk : ps[k]? = some (.polling (.holding j spec')))
    (hnew : s.executor.runningJobs.lookup j = none) {i : ℕ} {spec : JobSpec} {pl : ExecutionPlace} :
    ps[i]? ≠ some (.execution j spec pl) := by
  intro hi
  exact h.running i spec pl hi (h.not_removed hi hk) hnew

/-- A thread of the job after a step was one before, or there was none. -/
theorem execution_before (h : ForkGuard j es s ps) (hm : Moves P nodeId workDir ps s ev ps' s')
    (hstart : startsNoExecution ev = true) {i : ℕ} {spec : JobSpec} {pl' : ExecutionPlace}
    (hi : ps'[i]? = some (.execution j spec pl')) :
    (∃ pl, ps[i]? = some (.execution j spec pl)) ∨
      (i = ps.length ∧ ∀ (k : ℕ) spec' pl, ps[k]? ≠ some (.execution j spec' pl)) := by
  rcases hm.execution_inv hi hstart with hi | ⟨pl, e, op, hi, -⟩ | ⟨-, hlen, hnew, -, k, hk⟩
  · exact Or.inl ⟨pl', hi⟩
  · exact Or.inl ⟨pl, hi⟩
  · exact Or.inr ⟨hlen, fun k' spec' pl => h.not_execution_of_handed hk hnew⟩

/-- Under the guard, no response that names the job is under way when the job is
removed. -/
theorem not_held {c : ClusterConfig Db Fs} {ps : List Place}
    (hplaced : Placed P nodeId workDir c ps) {i : ℕ} {t : ClusterTask} {e : ClusterEnv}
    (hfetch : fetchSettled j c (.did i t e (.executor (.removeRunning j)) ()) = true) {k : ℕ}
    {spec : JobSpec} : ps[k]? ≠ some (.polling (.holding j spec)) := by
  intro hk
  obtain ⟨th, hth, hat⟩ := hplaced.exists_thread hk
  have hprog : th.prog = pollingAt P nodeId (.holding j spec) := hat
  have hall := (of_decide_eq_true hfetch).resolve_left fun h => h rfl
  have hnot := List.all_eq_true.mp hall th (List.mem_of_getElem? hth)
  rw [holdsJob, hprog] at hnot
  simp [pollingAt] at hnot

/-- An assignment while there is a thread of the job would be the second one. -/
theorem not_assigns (h : ForkGuard j es s ps) (honce : (es ++ [ev]).countP (assigns j) ≤ 1)
    {i : ℕ} {spec : JobSpec} {pl : ExecutionPlace} (hi : ps[i]? = some (.execution j spec pl)) :
    assigns j ev = false := by
  rw [List.countP_append, List.countP_singleton] at honce
  have hpos := h.assigned_of_execution hi
  by_contra hne
  rw [if_pos (by simpa using hne)] at honce
  omega

/-- As long as nothing was assigned, no response names the job and no thread is
about it. -/
theorem step_unassigned (h : ForkGuard j es s ps) (hm : Moves P nodeId workDir ps s ev ps' s')
    (hstart : startsNoExecution ev = true) (hz : (es ++ [ev]).countP (assigns j) = 0) :
    (∀ info, s'.master.jobMgr.jobs.lookup j = some info → info.status ≠ .assigned) ∧
      ∀ (i : ℕ) (p : Place), ps'[i]? = some p → p.job ≠ some j := by
  rw [List.countP_append, List.countP_singleton] at hz
  obtain ⟨hold, hnone⟩ := h.unassigned (by omega)
  have hnot : assigns j ev = false := by
    by_contra hne
    rw [if_pos (by simpa using hne)] at hz
    omega
  refine ⟨hm.not_assigned hnot hold, ?_⟩
  rintro i p hi hp
  cases p with
  | quiet => cases hp
  | polling pl =>
    cases pl with
    | holding jobId spec =>
      obtain rfl : jobId = j := Option.some.inj hp
      rcases hm.holding_inv h.keyed hi with hi | ⟨info, hj, hst⟩
      · exact hnone i _ hi rfl
      · exact hold info hj hst
    | _ => cases hp
  | execution jobId spec pl =>
    obtain rfl : jobId = j := Option.some.inj hp
    rcases hm.execution_inv hi hstart with hi | ⟨_, _, _, hi, -⟩ | ⟨-, -, -, -, k, hk⟩
    · exact hnone i _ hi rfl
    · exact hnone i _ hi rfl
    · exact hnone k _ hk rfl

/-- The thread that is started now is the only one of the job. -/
theorem step_unique (h : ForkGuard j es s ps) (hm : Moves P nodeId workDir ps s ev ps' s')
    (hstart : startsNoExecution ev = true) {i k : ℕ} {spec spec' : JobSpec}
    {pl pl' : ExecutionPlace} (hi : ps'[i]? = some (.execution j spec pl))
    (hk : ps'[k]? = some (.execution j spec' pl')) : i = k := by
  rcases h.execution_before hm hstart hi with ⟨pl₁, hi⟩ | ⟨hi, hnone⟩
  · rcases h.execution_before hm hstart hk with ⟨pl₂, hk⟩ | ⟨-, hnone⟩
    · exact h.unique i k _ _ _ _ hi hk
    · exact absurd hi (hnone i spec pl₁)
  · rcases h.execution_before hm hstart hk with ⟨pl₂, hk⟩ | ⟨hk, -⟩
    · exact absurd hk (hnone k spec' pl₂)
    · exact hi.trans hk.symm

/-- The second guard stays up until the thread of the job removes it. -/
theorem step_running (h : ForkGuard j es s ps) (hm : Moves P nodeId workDir ps s ev ps' s')
    (hstart : startsNoExecution ev = true) {i : ℕ} {spec : JobSpec} {pl : ExecutionPlace}
    (hi : ps'[i]? = some (.execution j spec pl)) (hr : pl.removed = false) :
    s'.executor.runningJobs.lookup j ≠ none := by
  have hkeep : s.executor.runningJobs.lookup j ≠ none →
      s'.executor.runningJobs.lookup j ≠ none := by
    intro hrun
    rcases hm.running hrun with hrun' | ⟨k, spec', res, hk⟩
    · exact hrun'
    · -- the thread that has removed the job is this one
      obtain rfl := h.step_unique hm hstart hi hk
      rw [hi] at hk
      cases hk
      cases hr
  rcases hm.execution_inv hi hstart with hi' | ⟨pl₀, e, op, hi', -, hs, -⟩ | ⟨-, -, -, hrun, -⟩
  · exact hkeep (h.running i spec pl hi' hr)
  · refine hkeep (h.running i spec pl₀ hi' ?_)
    cases hr₀ : pl₀.removed with
    | false => rfl
    | true => exact absurd (hs.removed_of_removed hr₀) (by simp [hr])
  · exact hrun

/-- The first guard is put up by the report, and stays up. -/
theorem step_reported (h : ForkGuard j es s ps) (hm : Moves P nodeId workDir ps s ev ps' s')
    (hstart : startsNoExecution ev = true) (honce : (es ++ [ev]).countP (assigns j) ≤ 1) {i : ℕ}
    {spec : JobSpec} {pl : ExecutionPlace} (hi : ps'[i]? = some (.execution j spec pl))
    (hr : pl.reported = true) :
    ∀ info, s'.master.jobMgr.jobs.lookup j = some info → info.status ≠ .assigned := by
  rcases hm.execution_inv hi hstart with hi' | ⟨pl₀, e, op, hi', hev', hs, hs'⟩ | ⟨rfl, -⟩
  · exact hm.not_assigned (h.not_assigns honce hi') (h.reported i spec pl hi' hr)
  · rcases hs.reported_inv hr with hr₀ | hop
    · exact hm.not_assigned (h.not_assigns honce hi') (h.reported i spec pl₀ hi' hr₀)
    · -- the step is the report, which makes the job running
      subst hop hs'
      intro info hj
      have hl := JobManager.lookup_updateJobStatus P.store e.master s.master.jobMgr .running
        nodeId j
      obtain ⟨info₀, -, rfl⟩ := Option.map_eq_some_iff.mp (hl.symm.trans hj)
      simp
  · cases hr

/-- Once the job is removed, no response names it. -/
theorem step_settled {c : ClusterConfig Db Fs} (h : ForkGuard j es c.state ps)
    (hplaced : Placed P nodeId workDir c ps) (hm : Moves P nodeId workDir ps c.state ev ps' s')
    (hstart : startsNoExecution ev = true) (hfetch : fetchSettled j c ev = true) {i : ℕ}
    {spec : JobSpec} {pl : ExecutionPlace} (hi : ps'[i]? = some (.execution j spec pl))
    (hr : pl.removed = true) (k : ℕ) (spec' : JobSpec) :
    ps'[k]? ≠ some (.polling (.holding j spec')) := by
  intro hk
  -- once the start is reported the master offers the job no more
  have hheld : ∀ {pl₀ : ExecutionPlace}, ps[i]? = some (.execution j spec pl₀) →
      pl₀.reported = true → ps[k]? = some (.polling (.holding j spec')) := by
    intro pl₀ hi₀ hr₀
    rcases hm.holding_inv h.keyed hk with hk₀ | ⟨info, hj, hst⟩
    · exact hk₀
    · exact absurd hst (h.reported i spec pl₀ hi₀ hr₀ info hj)
  rcases hm.execution_inv hi hstart with hi' | ⟨pl₀, e, op, hi', hev', hs, hs'⟩ | ⟨rfl, -⟩
  · exact h.settled i spec pl hi' hr k spec'
      (hheld hi' (ExecutionPlace.reported_of_removed hr))
  · rcases hs.removed_inv hr with hr₀ | ⟨rfl, hr₀⟩
    · exact h.settled i spec pl₀ hi' hr₀ k spec'
        (hheld hi' (ExecutionPlace.reported_of_removed hr₀))
    · -- the step is the removal, and the guard says that no response is under way
      subst hev'
      exact not_held hplaced hfetch (hheld hi' hr₀)
  · cases hr

/-- The one thread of the job forks it once. -/
theorem step_forked (h : ForkGuard j es s ps) (hm : Moves P nodeId workDir ps s ev ps' s') :
    (es ++ [ev]).countP (forksJob j) ≤ 1 ∧ (0 < (es ++ [ev]).countP (forksJob j) →
      ∃ (i : ℕ) (spec : JobSpec) (pl : ExecutionPlace),
        ps'[i]? = some (.execution j spec pl) ∧ pl.forked = true) := by
  rw [List.countP_append, List.countP_singleton]
  cases hf : forksJob j ev with
  | true =>
    obtain ⟨i, spec, pid, hi, hi'⟩ := hm.forksJob_inv hf
    -- the one thread of the job stands in front of its fork
    have hz : es.countP (forksJob j) = 0 := by
      by_contra hne
      obtain ⟨k, spec', pl, hk, hforked⟩ := h.forked.2 (Nat.pos_of_ne_zero hne)
      obtain rfl := h.unique i k _ _ _ _ hi hk
      rw [hi] at hk
      cases hk
      cases hforked
    exact ⟨by simp [hz], fun _ => ⟨i, spec, _, hi', rfl⟩⟩
  | false =>
    refine ⟨by simpa using h.forked.1, fun hpos => ?_⟩
    obtain ⟨i, spec, pl, hi, hforked⟩ := h.forked.2 (by simpa using hpos)
    obtain ⟨pl', hi', hmono⟩ := hm.execution_stays hi
    exact ⟨i, spec, pl', hi', hmono hforked⟩

/-- **One step keeps the guards**, as long as the job is assigned at most once and
the removal is settled. -/
theorem step {c : ClusterConfig Db Fs} {ps ps' : List Place} {s' : ClusterState Db Fs}
    {ev : ClusterEvent} (h : ForkGuard j es c.state ps) (hplaced : Placed P nodeId workDir c ps)
    (hm : Moves P nodeId workDir ps c.state ev ps' s') (hstart : startsNoExecution ev = true)
    (hfetch : fetchSettled j c ev = true) (honce : (es ++ [ev]).countP (assigns j) ≤ 1) :
    ForkGuard j (es ++ [ev]) s' ps' where
  keyed := hm.keyed h.keyed
  unassigned := h.step_unassigned hm hstart
  unique _ _ _ _ _ _ := h.step_unique hm hstart
  running _ _ _ := h.step_running hm hstart
  reported _ _ _ := h.step_reported hm hstart honce
  settled _ _ _ := h.step_settled hplaced hm hstart hfetch
  forked := h.step_forked hm

end ForkGuard

/-- **A job that is assigned once is forked at most once**, in every run in which no
response that names the job is under way when the job is removed from the map of
running jobs. -/
theorem forked_at_most_once {db : Option Db} {adminDb : Db} {fairShare : Fs}
    {es : List ClusterEvent} {c : ClusterConfig Db Fs}
    (h : (cluster P nodeId workDir).Run
      (fun c ev => startsNoExecution ev = true ∧ fetchSettled j c ev = true)
      (clusterStart db adminDb fairShare) es c)
    (honce : es.countP (assigns j) ≤ 1) : es.countP (forksJob j) ≤ 1 := by
  have hinv : ∃ ps, Placed P nodeId workDir c ps ∧
      (es.countP (assigns j) ≤ 1 → ForkGuard j es c.state ps) := by
    refine run_places (I := fun es s ps => es.countP (assigns j) ≤ 1 → ForkGuard j es s ps)
      (fun _ => forkGuard_start) ?_ h
    intro es c ev ps s' ps' hplaced hold hok hm honce
    have hle : es.countP (assigns j) ≤ (es ++ [ev]).countP (assigns j) := by
      rw [List.countP_append]
      omega
    exact (hold (hle.trans honce)).step hplaced hm hok.1 hok.2 honce
  obtain ⟨ps, -, hI⟩ := hinv
  exact (hI honce).forked.1

/-! ### Two runs -/

/-- No thread of such a task is under way. -/
def idle (q : ClusterTask → Bool) (c : ClusterConfig Db Fs) : Bool :=
  c.threads.all fun th => !(q th.task && th.result.isNone)

/-- **The wiring of master and agent**: calls arrive at the master at any time; the
scheduler, the heartbeats and the polling rounds each come one after the other;
nothing else is started. -/
def clusterWired (c : ClusterConfig Db Fs) : ClusterEvent → Bool
  | .start (.master (.rpc _ _)) => true
  | .start (.master (.schedulePass _)) =>
    idle (fun | .master (.schedulePass _) => true | _ => false) c
  | .start .heartbeat => idle (fun | .heartbeat => true | _ => false) c
  | .start .polling => idle (fun | .polling => true | _ => false) c
  | .start _ => false
  | .did .. => true

/-- A job is assigned and the agent fetches it in thread 3, which starts thread 4;
thread 5 is the next polling round. -/
def fetchSchedule : List (Choice ClusterEnv ClusterTask) :=
  onCluster (assignSchedule.take 10) ++
  .start .polling :: List.replicate 2 (.move 3 {}) ++ [.start .polling]

/-- The job runs to its end before the next round. -/
def runThenFetch : List (Choice ClusterEnv ClusterTask) :=
  fetchSchedule ++ List.replicate 10 (.move 4 {}) ++ [.move 5 {}]

/-- The next round is answered before the start is reported, and its response
arrives after the job is removed. -/
def fetchThenRun : List (Choice ClusterEnv ClusterTask) :=
  fetchSchedule ++ .move 5 {} :: List.replicate 8 (.move 4 {}) ++
  .move 5 {} :: List.replicate 2 (.move 6 {})

/-- The law at work: the job is assigned once, executed, and not offered again. -/
theorem forked_at_most_once_run :
    ∃ es c, (cluster barePlatform "node-00000000" "/work").Run
        (fun c ev => startsNoExecution ev = true ∧ fetchSettled "job-00000000" c ev = true)
        (clusterStart none {} ()) es c ∧
      es.countP (assigns "job-00000000") = 1 ∧ es.countP (forksJob "job-00000000") = 1 := by
  obtain ⟨es, c, hrun, hp⟩ := System.exists_trace
    (S := cluster barePlatform "node-00000000" "/work")
    (g := fun c ev => startsNoExecution ev && fetchSettled "job-00000000" c ev)
    (c := clusterStart none {} ())
    (p := fun es _ => es.countP (assigns "job-00000000") = 1 ∧
      1 ≤ es.countP (forksJob "job-00000000"))
    runThenFetch (by decide +kernel)
  obtain ⟨honce, hforked⟩ := of_decide_eq_true hp
  have hrun' := hrun.mono fun c ev hg => (Bool.and_eq_true _ _).mp hg
  exact ⟨es, c, hrun', honce, Nat.le_antisymm (forked_at_most_once hrun' honce.le) hforked⟩

/-- **A job is executed twice**: in a run of the master and one agent as they are
wired, with nothing lost, `job-00000000` is assigned once and forked twice. -/
theorem job_forked_twice :
    ∃ es c, (cluster barePlatform "node-00000000" "/work").Run
        (fun c ev => clusterWired c ev = true) (clusterStart none {} ()) es c ∧
      es.countP (assigns "job-00000000") = 1 ∧ es.countP (forksJob "job-00000000") = 2 := by
  obtain ⟨es, c, hrun, hp⟩ := System.exists_trace
    (S := cluster barePlatform "node-00000000" "/work")
    (g := clusterWired) (c := clusterStart none {} ())
    (p := fun es _ => es.countP (assigns "job-00000000") = 1 ∧
      es.countP (forksJob "job-00000000") = 2)
    fetchThenRun (by decide +kernel)
  obtain ⟨hassigns, hforks⟩ := of_decide_eq_true hp
  exact ⟨es, c, hrun, hassigns, hforks⟩

end CertOS
