import CertOS.Agent.Threads
import CertOS.Interleave.Places

/-!
# The system by the places of its threads

A thread of the master and a heartbeat are somewhere quiet, a polling round and the thread of
a job are at one of their places (`CertOS.clusterPlacing`). So a configuration of
`CertOS.cluster` is known by the state and the place of each thread (`CertOS.Placed`). What a
step of the system does, said in places, is `CertOS.Moves`; the programs of the threads do not
occur in it.

An invariant of the agent is then proved with `CertOS.run_places`.
-/

namespace CertOS

open Interleave

variable {Db Fs : Type}

/-! ### Places -/

/-- Where a thread is. -/
inductive Place where
  /-- A thread of the master or a heartbeat. -/
  | quiet
  /-- A polling round. -/
  | polling (pl : PollingPlace)
  /-- The thread of a job. -/
  | execution (jobId : String) (spec : JobSpec) (pl : ExecutionPlace)

/-- Where a thread starts. -/
def startPlace : ClusterTask → Place
  | .master _ | .heartbeat => .quiet
  | .polling => .polling .fetching
  | .execution jobId spec => .execution jobId spec .opening

/-- The thread is at the place. -/
def IsAt (P : Platform Db Fs) (nodeId workDir : String)
    (th : Thread ClusterOp.Res ClusterTask Reply) : Place → Prop
  | .quiet => th.prog.Only fun op => quiet op = true
  | .polling pl => th.prog = pollingAt P nodeId pl
  | .execution jobId spec pl => th.task = .execution jobId spec ∧
      th.prog = executionAt P nodeId workDir jobId spec pl

/-- **What one step of a thread does**: its operation, the answer, and the place after it. -/
inductive ClusterStep (nodeId workDir : String) :
    ClusterTask → Place → (op : ClusterOp) → op.Res → Place → Prop
  | quiet (t : ClusterTask) {op : ClusterOp} (a : op.Res) (hq : quiet op = true) :
      ClusterStep nodeId workDir t .quiet op a .quiet
  | fetched (t : ClusterTask) (jobs : List JobInfo) :
      ClusterStep nodeId workDir t (.polling .fetching) (.master (.job (.listJobs .assigned))) jobs
        (.polling (polled nodeId jobs))
  | handed (t : ClusterTask) (jobId : String) (spec : JobSpec) (accepted : Bool) :
      ClusterStep nodeId workDir t (.polling (.holding jobId spec))
        (.executor (.executeAsync jobId spec)) accepted (.polling .ended)
  | executed {jobId : String} {spec : JobSpec} {pl pl' : ExecutionPlace} {op : ClusterOp}
      {a : op.Res} (hs : ExecutionStep nodeId workDir jobId spec pl op a pl') :
      ClusterStep nodeId workDir (.execution jobId spec) (.execution jobId spec pl) op a
        (.execution jobId spec pl')

/-- **What one step of the system does**, by the places of the threads and the
state before and after it. -/
inductive Moves (P : Platform Db Fs) (nodeId workDir : String) :
    List Place → ClusterState Db Fs → ClusterEvent → List Place → ClusterState Db Fs → Prop
  | started (ps : List Place) (s : ClusterState Db Fs) (t : ClusterTask) :
      Moves P nodeId workDir ps s (.start t) (ps ++ [startPlace t]) s
  | quiet {ps : List Place} {s : ClusterState Db Fs} {i : ℕ} (t : ClusterTask) (e : ClusterEnv)
      {op : ClusterOp} (h : ps[i]? = some .quiet) (hq : quiet op = true) :
      Moves P nodeId workDir ps s (.did i t e op (s.exec P e op).1) ps (s.exec P e op).2
  | fetched {ps : List Place} {s : ClusterState Db Fs} {i : ℕ} (t : ClusterTask) (e : ClusterEnv)
      (h : ps[i]? = some (.polling .fetching)) :
      Moves P nodeId workDir ps s
        (.did i t e (.master (.job (.listJobs .assigned)))
          (s.master.jobMgr.listJobs e.master .assigned))
        (ps.set i (.polling (polled nodeId (s.master.jobMgr.listJobs e.master .assigned)))) s
  | handed {ps : List Place} {s : ClusterState Db Fs} {i : ℕ} (t : ClusterTask) (e : ClusterEnv)
      {jobId : String} {spec : JobSpec} (h : ps[i]? = some (.polling (.holding jobId spec)))
      (hnew : s.executor.runningJobs.lookup jobId = none) :
      Moves P nodeId workDir ps s (.did i t e (.executor (.executeAsync jobId spec)) true)
        (ps.set i (.polling .ended) ++ [.execution jobId spec .opening])
        { s with executor := ⟨s.executor.runningJobs.insert jobId {}⟩ }
  | refused {ps : List Place} {s : ClusterState Db Fs} {i : ℕ} (t : ClusterTask) (e : ClusterEnv)
      {jobId : String} {spec : JobSpec} (h : ps[i]? = some (.polling (.holding jobId spec)))
      (hold : s.executor.runningJobs.lookup jobId ≠ none) :
      Moves P nodeId workDir ps s (.did i t e (.executor (.executeAsync jobId spec)) false)
        (ps.set i (.polling .ended)) s
  | executed {ps : List Place} {s : ClusterState Db Fs} {i : ℕ} (e : ClusterEnv) {jobId : String}
      {spec : JobSpec} {pl pl' : ExecutionPlace} {op : ClusterOp}
      (h : ps[i]? = some (.execution jobId spec pl))
      (hs : ExecutionStep nodeId workDir jobId spec pl op (s.exec P e op).1 pl') :
      Moves P nodeId workDir ps s (.did i (.execution jobId spec) e op (s.exec P e op).1)
        (ps.set i (.execution jobId spec pl')) (s.exec P e op).2

/-- The job a thread is about. -/
def Place.job : Place → Option String
  | .polling (.holding jobId _) | .execution jobId _ _ => some jobId
  | _ => none

/-- The threads of jobs are started by `execute_async` alone. -/
def startsNoExecution : ClusterEvent → Bool
  | .start (.execution _ _) => false
  | _ => true

variable {P : Platform Db Fs} {nodeId workDir : String}

/-! ### Threads at a place -/

/-- A thread starts where its task starts. -/
theorem isAt_spawn (t : ClusterTask) :
    IsAt P nodeId workDir ((cluster P nodeId workDir).spawn t) (startPlace t) := by
  cases t with
  | master t => exact only_onMaster _
  | heartbeat => exact Prog.only_map.mpr (only_heartbeatRound P nodeId)
  | polling => rfl
  | execution jobId spec => exact ⟨rfl, rfl⟩

/-- A quiet operation starts no thread. -/
theorem forks_of_quiet {op : ClusterOp} (h : quiet op = true) (a : op.Res) :
    (cluster P nodeId workDir).forks op a = [] := by
  cases op with
  | executor o =>
    cases o with
    | executeAsync => cases h
    | _ => rfl
  | _ => rfl

/-- The thread of a job starts no thread. -/
theorem ExecutionStep.forks_eq {jobId : String} {spec : JobSpec} {pl pl' : ExecutionPlace}
    {op : ClusterOp} {a : op.Res} (h : ExecutionStep nodeId workDir jobId spec pl op a pl') :
    (cluster P nodeId workDir).forks op a = [] := by
  cases h <;> rfl

/-- **A thread goes on** from its place to another. -/
theorem IsAt.step {t : ClusterTask} {p : Place} {op : ClusterOp} {k : op.Res → AgentProg Reply}
    (h : IsAt P nodeId workDir ⟨t, .call op k⟩ p) (a : op.Res) :
    ∃ p', IsAt P nodeId workDir ⟨t, k a⟩ p' ∧ ClusterStep nodeId workDir t p op a p' := by
  cases p with
  | quiet => exact ⟨.quiet, h.2 a, .quiet t a h.1⟩
  | polling pl =>
    have hprog : Prog.call op k = pollingAt P nodeId pl := h
    cases pl with
    | fetching =>
      rw [pollingAt_fetching] at hprog
      cases hprog
      exact ⟨.polling _, rfl, .fetched t a⟩
    | holding jobId spec =>
      cases hprog
      exact ⟨.polling .ended, rfl, .handed t jobId spec a⟩
    | ended => cases hprog
  | execution jobId spec pl =>
    obtain ⟨rfl, hprog⟩ : t = _ ∧ _ := h
    obtain ⟨pl', hcont, hstep⟩ := executionAt_step hprog.symm a
    exact ⟨.execution jobId spec pl', ⟨rfl, hcont⟩, .executed hstep⟩

variable (P nodeId workDir) in
/-- The places of the threads of the system. -/
def clusterPlacing : Placing (cluster P nodeId workDir) Place where
  start := startPlace
  At p th := IsAt P nodeId workDir th p
  Step := ClusterStep nodeId workDir
  at_start := isAt_spawn
  step_of_call h a := h.step a

variable (P nodeId workDir) in
/-- The threads of a configuration are at the places. -/
abbrev Placed (c : ClusterConfig Db Fs) (ps : List Place) : Prop :=
  (clusterPlacing P nodeId workDir).Placed c ps

/-! ### Moves -/

/-- A job is handed to the executor, and gets its thread if it is accepted. -/
theorem Moves.of_handed {ps : List Place} {s : ClusterState Db Fs} {i : ℕ} (t : ClusterTask)
    (e : ClusterEnv) {jobId : String} {spec : JobSpec}
    (h : ps[i]? = some (.polling (.holding jobId spec))) :
    Moves P nodeId workDir ps s
      (.did i t e (.executor (.executeAsync jobId spec))
        (s.exec P e (.executor (.executeAsync jobId spec))).1)
      (ps.set i (.polling .ended) ++ ((cluster P nodeId workDir).forks
        (.executor (.executeAsync jobId spec))
        (s.exec P e (.executor (.executeAsync jobId spec))).1).map startPlace)
      (s.exec P e (.executor (.executeAsync jobId spec))).2 := by
  simp only [ClusterState.exec_executor, JobExecutor.exec, JobExecutor.executeAsync]
  cases hl : s.executor.runningJobs.lookup jobId with
  | none => exact .handed t e h hl
  | some job =>
    have hold : s.executor.runningJobs.lookup jobId ≠ none := by simp [hl]
    have hmove : Moves P nodeId workDir ps s _ (ps.set i (.polling .ended)) s :=
      .refused t e h hold
    rwa [← List.append_nil (ps.set i (.polling .ended))] at hmove

/-- **What a move of the places is** in this system. -/
theorem Moves.of_moves {ps ps' : List Place} {s s' : ClusterState Db Fs} {ev : ClusterEvent}
    (h : (clusterPlacing P nodeId workDir).Moves ps s ev ps' s') :
    Moves P nodeId workDir ps s ev ps' s' := by
  cases h with
  | start t => exact .started ps s t
  | @did i t p p' e op hp hs =>
    have hs : ClusterStep nodeId workDir t p op (s.exec P e op).1 p' := hs
    change Moves P nodeId workDir ps s (.did i t e op (s.exec P e op).1)
      (ps.set i p' ++ ((cluster P nodeId workDir).forks op (s.exec P e op).1).map startPlace)
      (s.exec P e op).2
    generalize ha : (s.exec P e op).1 = a at hs
    cases hs with
    | quiet t a hq =>
      -- a quiet thread has no place to go to
      have hsame : ps.set i .quiet = ps := by
        obtain ⟨hlt, hget⟩ := List.getElem?_eq_some_iff.mp hp
        rw [← hget, List.set_getElem_self]
      rw [forks_of_quiet hq, List.map_nil, List.append_nil, hsame, ← ha]
      exact .quiet t e hp hq
    | fetched t jobs =>
      subst ha
      rw [forks_of_quiet rfl, List.map_nil, List.append_nil]
      exact .fetched t e hp
    | handed t jobId spec accepted =>
      subst ha
      exact .of_handed t e hp
    | executed hstep =>
      rw [hstep.forks_eq, List.map_nil, List.append_nil, ← ha]
      exact .executed e hp (ha.symm ▸ hstep)

/-! ### What a move does to the jobs -/

/-- A step leaves the job table alone or is an operation of the job manager. -/
theorem Moves.jobMgr {ps ps' : List Place} {s s' : ClusterState Db Fs} {ev : ClusterEvent}
    (h : Moves P nodeId workDir ps s ev ps' s') :
    s'.master.jobMgr = s.master.jobMgr ∨
      ∃ i t e o, ev = .did i t e (.master (.job o)) (s.master.jobMgr.exec P.store e.master o).1 ∧
        s'.master.jobMgr = (s.master.jobMgr.exec P.store e.master o).2 := by
  have hexec (i : ℕ) (t : ClusterTask) (e : ClusterEnv) (op : ClusterOp) :
      (s.exec P e op).2.master.jobMgr = s.master.jobMgr ∨
        ∃ i' t' e' o, Event.did i t e op (s.exec P e op).1 =
            .did i' t' e' (.master (.job o)) (s.master.jobMgr.exec P.store e'.master o).1 ∧
          (s.exec P e op).2.master.jobMgr = (s.master.jobMgr.exec P.store e'.master o).2 := by
    cases op with
    | master op =>
      cases op with
      | job o => exact Or.inr ⟨i, t, e, o, rfl, rfl⟩
      | _ => exact Or.inl rfl
    | _ => exact Or.inl rfl
  cases h with
  | started | fetched | handed | refused => exact Or.inl rfl
  | quiet t e h hq => exact hexec _ t e _
  | executed e h hs => exact hexec _ _ e _

/-- A property of the records that every fresh record has and every sweep keeps
is kept by the step. -/
theorem Moves.forall_jobs {q : String → JobInfo → Prop} {ps ps' : List Place}
    {s s' : ClusterState Db Fs} {ev : ClusterEvent} (h : Moves P nodeId workDir ps s ev ps' s')
    (hnew : ∀ now jobId spec userId username,
      q jobId (JobManager.newJob now jobId spec userId username))
    (htouch : ∀ i t e o r, ev = .did i t e (.master (.job o)) r →
      ∀ now j info, q j info → q j (o.touch now j info))
    (hq : ∀ j info, s.master.jobMgr.jobs.lookup j = some info → q j info) :
    ∀ j info, s'.master.jobMgr.jobs.lookup j = some info → q j info := by
  rcases h.jobMgr with heq | ⟨i, t, e, o, hev, heq⟩
  · rwa [heq]
  · rw [heq]
    exact JobManager.forall_exec _ _ _ (hnew _) (htouch i t e o _ hev _) hq

/-- No step removes a job. -/
theorem Moves.exists_lookup {ps ps' : List Place} {s s' : ClusterState Db Fs} {ev : ClusterEvent}
    (h : Moves P nodeId workDir ps s ev ps' s') {j : String}
    (hj : ∃ info, s.master.jobMgr.jobs.lookup j = some info) :
    ∃ info, s'.master.jobMgr.jobs.lookup j = some info := by
  rcases h.jobMgr with heq | ⟨i, t, e, o, -, heq⟩
  · rwa [heq]
  · rw [heq]
    exact JobManager.exists_lookup_exec _ _ _ o hj

theorem Moves.keyed {ps ps' : List Place} {s s' : ClusterState Db Fs} {ev : ClusterEvent}
    (h : Moves P nodeId workDir ps s ev ps' s') (hk : s.master.jobMgr.Keyed) :
    s'.master.jobMgr.Keyed :=
  h.forall_jobs (fun _ _ _ _ _ => rfl)
    (fun _ _ _ o _ _ now j info hi => (JobManager.touch_keeps now o j info).1.trans hi) hk

variable (nodeId) in
/-- **A job that is fetched is in the table, assigned.** -/
theorem assigned_of_polled {m : JobManager Db} (hk : m.Keyed) {e : Env} {jobId : String}
    (h : (Place.polling (polled nodeId (m.listJobs e .assigned))).job = some jobId) :
    ∃ info, m.jobs.lookup jobId = some info ∧ info.status = .assigned := by
  simp only [polled] at h
  cases hfind : (m.listJobs e .assigned).find? fun job => job.assignedNodeId = nodeId with
  | none =>
    rw [hfind] at h
    cases h
  | some info =>
    rw [hfind] at h
    obtain rfl : info.jobId = jobId := Option.some.inj h
    obtain ⟨⟨j, hj⟩, hst⟩ := (m.mem_listJobs e).mp (List.mem_of_find?_eq_some hfind)
    have hid := hk j info hj
    exact ⟨info, by rwa [hid], hst.resolve_left (by decide)⟩

/-- **The rule for the places**: what holds at the start and is preserved by every move of a
step that meets the guard holds at the end of every run. A step may use the run so far. -/
theorem run_places_of_run {ok : ClusterConfig Db Fs → ClusterEvent → Prop}
    {I : List ClusterEvent → ClusterConfig Db Fs → List Place → Prop} {db : Option Db}
    {adminDb : Db} {fairShare : Fs} (h₀ : I [] (clusterStart db adminDb fairShare) [])
    (hstep : ∀ es c ev c' ps ps',
      (cluster P nodeId workDir).Run ok (clusterStart db adminDb fairShare) es c →
      Placed P nodeId workDir c ps → I es c ps → ok c ev → (cluster P nodeId workDir).Step c ev c' →
      Moves P nodeId workDir ps c.state ev ps' c'.state → I (es ++ [ev]) c' ps')
    {es : List ClusterEvent} {c : ClusterConfig Db Fs}
    (h : (cluster P nodeId workDir).Run ok (clusterStart db adminDb fairShare) es c) :
    ∃ ps, Placed P nodeId workDir c ps ∧ I es c ps :=
  Placing.run_invariant rfl h₀ (fun es c ev c' ps ps' hrun hplaced hI hok hs hm =>
    hstep es c ev c' ps ps' hrun hplaced hI hok hs (.of_moves hm)) h

/-- The same for an invariant of the state. -/
theorem run_places {ok : ClusterConfig Db Fs → ClusterEvent → Prop}
    {I : List ClusterEvent → ClusterState Db Fs → List Place → Prop} {db : Option Db} {adminDb : Db}
    {fairShare : Fs} (h₀ : I [] (clusterStart db adminDb fairShare).state [])
    (hstep : ∀ es c ev ps s' ps', Placed P nodeId workDir c ps → I es c.state ps → ok c ev →
      Moves P nodeId workDir ps c.state ev ps' s' → I (es ++ [ev]) s' ps')
    {es : List ClusterEvent} {c : ClusterConfig Db Fs}
    (h : (cluster P nodeId workDir).Run ok (clusterStart db adminDb fairShare) es c) :
    ∃ ps, Placed P nodeId workDir c ps ∧ I es c.state ps :=
  run_places_of_run (I := fun es c ps => I es c.state ps) h₀
    (fun es c ev c' ps ps' _ hplaced hI hok _ hm => hstep es c ev ps c'.state ps' hplaced hI hok hm)
    h

end CertOS
