import CertOS.Agent.AtMostOnce
import CertOS.Master.AssignedOnce
import CertOS.Master.Inside

/-!
# The master inside the system of an agent

In `CertOS.cluster` there are no threads of the master for the calls of the agent: a
polling round, a heartbeat and the thread of a job run the handlers themselves, between
operations of the agent. `CertOS.masterInside` says that this is the master all the
same, in the sense of `Interleave.Contains`: the agent is a client like any other, and
what it does to the master is what calls could have done
(`CertOS.cluster_refines_master`).

So the laws of the master hold with an agent at work. That a job is assigned at most
once is one of them, and with it the condition under which
`CertOS.ForkGuard` excludes a second execution is met in every run of the system as it
is wired (`CertOS.wired_forks_at_most_once`).
-/

namespace CertOS

open Interleave

variable {Db Fs : Type} (P : Platform Db Fs) (nodeId workDir : String)

/-- The calls of an agent that has registered. -/
def Rpc.isAgents : Rpc → Bool
  | .sendHeartbeat _ | .fetchJob _ | .reportJobStarted _ | .reportJobCompleted _
  | .reportJobFailed _ => true
  | _ => false

/-- The threads that operations start are those of jobs. -/
theorem execution_of_forks {op : ClusterOp} {r : op.Res} {u : ClusterTask}
    (hu : u ∈ (cluster P nodeId workDir).forks op r) :
    ∃ jobId spec, u = .execution jobId spec := by
  cases op with
  | executor op =>
    cases op with
    | executeAsync jobId spec =>
      cases r with
      | true => exact ⟨jobId, spec, List.mem_singleton.mp hu⟩
      | false => cases hu
    | _ => cases hu
  | _ => cases hu

/-- **The master in the system**: its operations are those of the master, the tasks of
the master are calls of their own, and the threads of the agent call without a token. -/
def masterInside : Contains (master P) (cluster P nodeId workDir) where
  inj := .master
  ans _ r := r
  seen
    | .master op, r => some ⟨op, r⟩
    | _, _ => none
  state s := s.master
  env e := e.master
  opens
    | .master t => some t
    | _ => none
  calls _ t := ∃ call, call.isAgents = true ∧ t = .rpc [] call
  seen_inj _ _ := rfl
  seen_own
    | .master op, _, h => absurd rfl (h op)
    | .executor _, _, _ => rfl
    | .now, _, _ => rfl
  exec_inj _ _ _ := rfl
  exec_own
    | _, .master op, _, h => absurd rfl (h op)
    | _, .executor _, _, _ => rfl
    | _, .now, _, _ => rfl
  forks_inj _ _ := .nil
  opens_forks op r _ u hu := by
    obtain ⟨jobId, spec, rfl⟩ := execution_of_forks P nodeId workDir hu
    rfl

/-! ### The programs of the agent -/

section Programs

variable (t : ClusterTask)

theorem client_rpc (call : Rpc) (hcall : call.isAgents = true) :
    (masterInside P nodeId workDir).Client t (Agent.rpc P call) :=
  .of_serve (C := masterInside P nodeId workDir) (t := .rpc [] call) ⟨call, hcall, rfl⟩

theorem client_onExecutor {β : Type} (op : ExecutorOp) {f : op.Res → AgentProg β}
    (hf : ∀ r, (masterInside P nodeId workDir).Client t (f r)) :
    (masterInside P nodeId workDir).Client t (Agent.onExecutor op >>= f) :=
  .op_bind nofun hf

/-- A call after a look at the clock, as the agent's own calls are. -/
theorem client_stamped {β : Type} {call : ℤ → Rpc} (hcall : ∀ time, (call time).isAgents = true)
    {f : Reply → β} :
    (masterInside P nodeId workDir).Client t (do
      let time ← Agent.now
      let reply ← Agent.rpc P (call time)
      return f reply) :=
  .op_bind nofun fun time => (client_rpc P nodeId workDir t _ (hcall time)).bind fun _ => .ret _

theorem client_cancelAll (jids : List String) :
    (masterInside P nodeId workDir).Client t (Agent.cancelAll jids) := by
  induction jids with
  | nil => exact .ret ()
  | cons jid jids ih => exact client_onExecutor P nodeId workDir t _ fun _ => ih

theorem client_heartbeatRound :
    (masterInside P nodeId workDir).Client t (Agent.heartbeatRound P nodeId) := by
  refine client_onExecutor P nodeId workDir t _ fun runningJobs => ?_
  refine (client_stamped P nodeId workDir t fun _ => rfl).bind fun result => ?_
  cases result with
  | none => exact .ret ()
  | some jobsToCancel => exact client_cancelAll P nodeId workDir t jobsToCancel

theorem client_pollingRound :
    (masterInside P nodeId workDir).Client t (Agent.pollingRound P nodeId) := by
  refine ((client_rpc P nodeId workDir t _ rfl).bind fun reply => .ret _).bind fun spec => ?_
  cases spec with
  | none => exact .ret ()
  | some job => exact client_onExecutor P nodeId workDir t _ fun _ => .ret ()

theorem client_onCompleted (res : JobResult) :
    (masterInside P nodeId workDir).Client t (Agent.onCompleted P nodeId res) := by
  rw [Agent.onCompleted]
  split
  · exact (client_stamped P nodeId workDir t fun _ => rfl).bind fun _ => .ret ()
  · exact (client_stamped P nodeId workDir t fun _ => rfl).bind fun _ => .ret ()

theorem client_forkChild (jobId : String) (spec : JobSpec) :
    (masterInside P nodeId workDir).Client t (JobExecutor.forkChild Agent.onExecutor
      (Agent.onStarted P nodeId) (Agent.onCompleted P nodeId) workDir jobId spec) := by
  refine client_onExecutor P nodeId workDir t _ fun forked => ?_
  cases forked with
  | none => exact client_onCompleted P nodeId workDir t _
  | some pid =>
    refine client_onExecutor P nodeId workDir t _ fun _ => ?_
    refine ((client_stamped P nodeId workDir t fun _ => rfl).bind fun _ => .ret ()).bind
      fun _ => ?_
    refine client_onExecutor P nodeId workDir t _ fun chunks => ?_
    refine client_onExecutor P nodeId workDir t _ fun processEnd => ?_
    exact client_onExecutor P nodeId workDir t _ fun _ => client_onCompleted P nodeId workDir t _

theorem client_executionThread (jobId : String) (spec : JobSpec) :
    (masterInside P nodeId workDir).Client t
      (Agent.executionThread P nodeId workDir jobId spec) := by
  refine client_onExecutor P nodeId workDir t _ fun opened => ?_
  split
  · split
    · exact client_forkChild P nodeId workDir t jobId spec
    · exact client_onExecutor P nodeId workDir t _ fun _ =>
        client_forkChild P nodeId workDir t jobId spec
  · exact client_onCompleted P nodeId workDir t _

end Programs

/-- **The agent uses the master properly**: every handler it begins is run to its end. -/
theorem masterInside_proper : (masterInside P nodeId workDir).Proper where
  opened t' t h := by
    cases t' with
    | master t₀ =>
      obtain rfl := Option.some.inj h
      exact ⟨.ret, (Prog.bind_ret _).symm, fun a => .ret a⟩
    | _ => cases h
  other t' h := by
    cases t' with
    | master t => cases h
    | heartbeat => exact (client_heartbeatRound P nodeId workDir _).map
    | polling => exact (client_pollingRound P nodeId workDir _).map
    | execution jobId spec => exact (client_executionThread P nodeId workDir _ jobId spec).map

/-! ### The runs -/

variable {P nodeId workDir}

/-- **Fresh job identifiers**, in the whole system. -/
def freshClusterJobId (c : ClusterConfig Db Fs) : ClusterEvent → Bool
  | .did _ _ _ (.master (.job (.submitJob _ _ _))) jobId =>
    (c.state.master.jobMgr.jobs.lookup jobId).isNone
  | _ => true

/-- The wiring of the system is that of the server, for the part that is the master: a pass
of the scheduler is under way there just when one is here. -/
theorem masterInside_guards : (masterInside P nodeId workDir).Guards
    (fun c ev => clusterWired c ev = true ∧ freshClusterJobId c ev = true)
    (fun c ev => wired c ev = true ∧ freshJobId c ev = true) where
  opened c d t' t hcov ho hok := by
    cases t' with
    | master t₀ =>
      obtain rfl : t₀ = t := Option.some.inj ho
      refine ⟨wired_of_covered hcov (fun t' t h => ?_) ?_, rfl⟩
      · obtain ⟨call, -, rfl⟩ := h
        exact ⟨[], call, rfl⟩
      · cases t₀ with
        | rpc metadata call => exact Or.inl ⟨metadata, call, rfl⟩
        | schedulePass sort =>
          refine Or.inr ⟨sort, rfl, fun t' op p sort' hmem hopens => ?_⟩
          have hidle := List.all_eq_true.mp hok.1 _ hmem
          cases t' with
          | master u =>
            obtain rfl : u = .schedulePass sort' := Option.some.inj hopens
            cases hidle
          | _ => cases hopens
        | _ => cases hok.1
    | _ => cases ho
  called d t' t h := by
    obtain ⟨call, -, rfl⟩ := h
    exact ⟨rfl, rfl⟩
  did c d i j t' t e op r hstate hcov hok := by
    refine ⟨rfl, ?_⟩
    cases op with
    | job o =>
      cases o with
      | submitJob spec userId username =>
        simp only [freshJobId, hstate]
        exact hok.2
      | _ => rfl
    | _ => rfl

/-- A run of the system is a run of the master, under every guard that goes with one: with the
same operations and answers, and for the calls from outside and those of the agent. -/
theorem master_of_cluster {ok' : ClusterConfig Db Fs → ClusterEvent → Prop}
    {ok : MasterConfig Db Fs → MasterEvent → Prop}
    (g : (masterInside P nodeId workDir).Guards ok' ok) {db : Option Db} {adminDb : Db}
    {fairShare : Fs} {es : List ClusterEvent} {c : ClusterConfig Db Fs}
    (h : (cluster P nodeId workDir).Run ok' (clusterStart db adminDb fairShare) es c) :
    ∃ es' d, (master P).Run ok (masterStart db adminDb fairShare) es' d ∧
      d.state = c.state.master ∧
      es'.filterMap Event.step = es.filterMap (masterInside P nodeId workDir).seenEvent ∧
      ∀ t, .start t ∈ es' → .start (.master t) ∈ es ∨
        ∃ call : Rpc, call.isAgents = true ∧ t = .rpc [] call := by
  obtain ⟨es', d, hrun, hstate, hes, hserved⟩ :=
    Contains.run (masterInside_proper P nodeId workDir) g h
  refine ⟨es', d, hrun, hstate, Contains.steps_of_same hes, fun t ht => ?_⟩
  obtain ⟨th, hth, rfl⟩ := hrun.exists_thread ht
  obtain ⟨th', hth', hopens | hcall⟩ := hserved th hth
  · have hstarted := h.started_or_forked rfl th' hth'
    generalize th'.task = t' at hopens hstarted
    cases t' with
    | master t₀ =>
      obtain rfl := Option.some.inj hopens
      rcases hstarted with hstarted | ⟨op, r, hforks⟩
      · exact Or.inl hstarted
      · obtain ⟨jobId, spec, heq⟩ := execution_of_forks P nodeId workDir hforks
        cases heq
    | _ => cases hopens
  · exact Or.inr hcall

/-- **The system refines the master**: for the master, a run of the system as it is wired is
a run of the server as it is wired, to the same state, in which the same operations are
performed in the same order and get the same answers; and every call in it comes from
outside, or is one that the agent makes. -/
theorem cluster_refines_master {db : Option Db} {adminDb : Db} {fairShare : Fs}
    {es : List ClusterEvent} {c : ClusterConfig Db Fs}
    (h : (cluster P nodeId workDir).Run
      (fun c ev => clusterWired c ev = true ∧ freshClusterJobId c ev = true)
      (clusterStart db adminDb fairShare) es c) :
    ∃ es' d, (master P).Run (fun c ev => wired c ev = true ∧ freshJobId c ev = true)
        (masterStart db adminDb fairShare) es' d ∧ d.state = c.state.master ∧
      es'.filterMap Event.step = es.filterMap (masterInside P nodeId workDir).seenEvent ∧
      ∀ t, .start t ∈ es' → .start (.master t) ∈ es ∨
        ∃ call : Rpc, call.isAgents = true ∧ t = .rpc [] call :=
  master_of_cluster masterInside_guards h

/-- The law at work: the run in which a job is assigned, fetched and executed, seen from the
master; there the assignment is one event of many. -/
theorem cluster_refines_master_run :
    ∃ es c es' d, (cluster barePlatform "node-00000000" "/work").Run
        (fun c ev => clusterWired c ev = true ∧ freshClusterJobId c ev = true)
        (clusterStart none {} ()) es c ∧
      (master barePlatform).Run (fun c ev => wired c ev = true ∧ freshJobId c ev = true)
        (masterStart none {} ()) es' d ∧ d.state = c.state.master ∧
      es.countP (assigns "job-00000000") = 1 ∧ es.countP (forksJob "job-00000000") = 1 := by
  obtain ⟨es, c, hrun, hp⟩ := System.exists_trace
    (S := cluster barePlatform "node-00000000" "/work")
    (g := fun c ev => clusterWired c ev && freshClusterJobId c ev) (c := clusterStart none {} ())
    (p := fun es _ => es.countP (assigns "job-00000000") = 1 ∧
      es.countP (forksJob "job-00000000") = 1)
    runThenFetch (by decide +kernel)
  obtain ⟨hassigns, hforks⟩ := of_decide_eq_true hp
  have hrun' := hrun.mono fun c ev hg => (Bool.and_eq_true _ _).mp hg
  obtain ⟨es', d, hmaster, hstate, -⟩ := cluster_refines_master hrun'
  exact ⟨es, c, es', d, hrun', hmaster, hstate, hassigns, hforks⟩

/-! ### One assignment, one execution -/

/-- A wired system starts the threads of jobs by `execute_async` alone. -/
theorem startsNoExecution_of_wired {c : ClusterConfig Db Fs} {ev : ClusterEvent}
    (h : clusterWired c ev = true) : startsNoExecution ev = true := by
  cases ev with
  | start t =>
    cases t with
    | execution => cases h
    | _ => rfl
  | did => rfl

section Wired

variable {db : Option Db} {adminDb : Db} {fairShare : Fs} {j : String} {es : List ClusterEvent}
  {c : ClusterConfig Db Fs}

end Wired

end CertOS
