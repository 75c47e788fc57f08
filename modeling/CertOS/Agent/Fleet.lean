import CertOS.Agent.Daemon
import CertOS.Master.RegistryIdentity

/-!
# Several agents and one master

An agent knows which node it is from the answer to its registration, and the master
tells nodes apart by the host name and the address that they register with. The agents
do not find out what these are: every agent registers as `agent-host` at `127.0.0.1`.
So the master takes them all for the same machine and gives all of them the identifier
of the first (`CertOS.Fleet.Known`), and the jobs it assigns to that node are offered to
each of them.

Agents come and go in any order, and other things happen at the master in between
(`CertOS.FleetEvent`). They are different nodes in all states of a history just when no
two of them ever run at the same time (`CertOS.Fleet.separate_iff`), and
`CertOS.Fleet.two_agents_one_node` is the history of a cluster with two agents.
-/

namespace CertOS

open Interleave

variable {Db Fs : Type}

/-! ### The registration of an agent -/

/-- The part of the agent's configuration that is about the machine; `0` stands for a
value that is not configured. -/
structure AgentConfig where
  cpuCores : UInt32 := 0
  ramMb : UInt64 := 0
  gpuCount : UInt32 := 0

namespace Agent

/-- What an agent registers with. -/
def registration (cfg : AgentConfig) : RegisterNodeRequest where
  hostname := "agent-host"
  ipAddress := "127.0.0.1"
  port := 0
  totalResources :=
    { cpuCores := if cfg.cpuCores > 0 then cfg.cpuCores else 4
      ramMb := if cfg.ramMb > 0 then cfg.ramMb else 8192
      gpuCount := cfg.gpuCount }
  osInfo := "Linux (Agent)"

/-- The node in the registration of an agent, as the master passes it on. -/
def registeredNode (cfg : AgentConfig) : NodeInfo where
  hostname := (registration cfg).hostname
  ipAddress := (registration cfg).ipAddress
  port := (registration cfg).port
  osInfo := (registration cfg).osInfo
  totalResources := (registration cfg).totalResources

/-- The metadata of the registration. -/
def nodeToken : Metadata := [("authorization", "Bearer node-token")]

/-- What `AgentGrpcClient::register_node` makes of the reply. -/
def registered : Reply → Option String
  | .registered r => if r.success then some r.nodeId else none
  | _ => none

/-- The call in `AgentDaemon::start`: the identifier of the node, or nothing if the agent
has to give up. -/
def start (P : Platform Db Fs) (cfg : AgentConfig) : MasterProg (Option String) :=
  registered <$> serve P nodeToken (.registerNode (registration cfg))

/-- The job that `AgentGrpcClient::fetch_job` brings back to the agent of a node. -/
def offer (P : Platform Db Fs) (nodeId : String) (e : ℕ → Env) (s : MasterState Db Fs) :
    Option (String × JobSpec) :=
  fetched (runTask P
    (.rpc [] (.fetchJob { nodeId := nodeId, availableResources := fakeAvailable })) e s).1

end Agent

/-! ### Histories -/

/-- How far an agent has come. -/
inductive AgentPhase where
  /-- The master has registered it, and the answer is on its way. -/
  | registered (nodeId : String)
  /-- It runs as the node. -/
  | running (nodeId : String)
  /-- It does not run. -/
  | stopped
  deriving DecidableEq

namespace AgentPhase

/-- The identifier the master has answered with. -/
def answer : AgentPhase → Option String
  | .registered nodeId | .running nodeId => some nodeId
  | .stopped => none

/-- The node it runs as. -/
def node : AgentPhase → Option String
  | .running nodeId => some nodeId
  | _ => none

/-- The answer to the registration arrives. -/
def accept : AgentPhase → AgentPhase
  | .registered nodeId => .running nodeId
  | phase => phase

theorem answer_accept (phase : AgentPhase) : phase.accept.answer = phase.answer := by
  cases phase <;> rfl

theorem answer_of_node {phase : AgentPhase} {n : String} (h : phase.node = some n) :
    phase.answer = some n := by
  cases phase with
  | running nodeId => exact h
  | _ => cases h

end AgentPhase

/-- The operation neither registers a node nor removes one. -/
def keepsMachines : MasterOp → Bool
  | .node (.registerNode _) | .node (.unregisterNode _) => false
  | _ => true

/-- What happens. -/
inductive FleetEvent where
  /-- An agent starts, and the master handles its registration. -/
  | start (cfg : AgentConfig) (e : Env)
  /-- The answer to its registration arrives at agent `k`. -/
  | accept (k : ℕ)
  /-- Agent `k` stops, or its process ends. -/
  | stop (k : ℕ)
  /-- Something else happens at the master. -/
  | master (e : Env) (op : {op : MasterOp // keepsMachines op = true})

/-- The master, and the agents in the order in which they have registered. -/
structure Fleet (Db Fs : Type) where
  master : MasterState Db Fs
  agents : List AgentPhase := []

namespace Fleet

variable (P : Platform Db Fs)

/-- One event. -/
def step (s : Fleet Db Fs) : FleetEvent → Fleet Db Fs
  | .start cfg e =>
    let r := (Agent.start P cfg).run (MasterState.exec P) (fun _ => e) s.master
    { master := r.2
      agents := s.agents ++ [(r.1.map AgentPhase.registered).getD .stopped] }
  | .accept k => { s with agents := s.agents.modify k AgentPhase.accept }
  | .stop k => { s with agents := s.agents.modify k fun _ => .stopped }
  | .master e op => { s with master := (s.master.exec P e op.1).2 }

/-- The state after a history. -/
def run (evs : List FleetEvent) (s : Fleet Db Fs) : Fleet Db Fs := evs.foldl (step P) s

theorem run_concat (evs : List FleetEvent) (ev : FleetEvent) (s : Fleet Db Fs) :
    run P (evs ++ [ev]) s = (run P evs s).step P ev := by
  simp [run]

/-- The master as it starts, and no agents. -/
def start (db : Option Db) (adminDb : Db) (fairShare : Fs) : Fleet Db Fs where
  master := (masterStart db adminDb fairShare).state

/-- The node that agent `k` runs as, if it runs. -/
def nodeOf (s : Fleet Db Fs) (k : ℕ) : Option String := s.agents[k]?.bind AgentPhase.node

/-- **Different agents are different nodes**: no two agents that run have the same
identifier, and no job is offered to two of them. -/
structure Separate (s : Fleet Db Fs) : Prop where
  distinct : ∀ k l n, s.nodeOf k = some n → s.nodeOf l = some n → k = l
  offered : ∀ k l n m e e' j spec spec', s.nodeOf k = some n → s.nodeOf l = some m →
    Agent.offer P n e s.master = some (j, spec) → Agent.offer P m e' s.master = some (j, spec') →
    k = l

/-- **No two agents run**. -/
def Alone (s : Fleet Db Fs) : Prop :=
  ∀ k l n m, s.nodeOf k = some n → s.nodeOf l = some m → k = l

/-! ### One machine -/

/-- The machine that every agent says it is. -/
def IsAgentHost (a : NodeInfo) : Prop := a.hostname = "agent-host" ∧ a.ipAddress = "127.0.0.1"

/-- **An agent starts**: the registry answers, and that is its identifier. -/
theorem step_start (s : Fleet Db Fs) (cfg : AgentConfig) (e : Env) :
    s.step P (.start cfg e) =
      { master := { s.master with
          nodeRegistry := (s.master.nodeRegistry.registerNode e (Agent.registeredNode cfg)).2 }
        agents := s.agents ++
          [.registered (s.master.nodeRegistry.registerNode e (Agent.registeredNode cfg)).1] } := by
  rw [step, Agent.start, serve_eq_handle]
  rfl

variable {P}

/-- **The master knows one agent**: the identifier of every agent, whether it runs already
or not, is filed for the same machine. -/
structure Known (s : Fleet Db Fs) : Prop where
  identified : s.master.nodeRegistry.Identified
  jobs : s.master.jobMgr.Keyed
  agents : ∀ phase ∈ s.agents, ∀ n, phase.answer = some n →
    ∃ a, s.master.nodeRegistry.nodes.lookup n = some a ∧ IsAgentHost a

/-- All agents have the same identifier. -/
theorem Known.same {s : Fleet Db Fs} (h : Known s) {phase phase' : AgentPhase} {n m : String}
    (hp : phase ∈ s.agents) (hp' : phase' ∈ s.agents) (hn : phase.answer = some n)
    (hm : phase'.answer = some m) : n = m := by
  obtain ⟨a, ha, hosta⟩ := h.agents phase hp n hn
  obtain ⟨b, hb, hostb⟩ := h.agents phase' hp' m hm
  exact h.identified.unique n m a b ha hb
    ⟨hosta.1.trans hostb.1.symm, hosta.2.trans hostb.2.symm⟩

/-- Changing the phase of an agent, and not its identifier, keeps what the master
knows. -/
theorem Known.modify {s : Fleet Db Fs} (h : Known s) (k : ℕ) {f : AgentPhase → AgentPhase}
    (hf : ∀ phase n, (f phase).answer = some n → phase.answer = some n) :
    Known { s with agents := s.agents.modify k f } := by
  refine ⟨h.identified, h.jobs, fun phase hp n hn => ?_⟩
  obtain ⟨l, hl⟩ := List.getElem?_of_mem hp
  rw [List.getElem?_modify] at hl
  obtain ⟨phase', hl', rfl⟩ := Option.map_eq_some_iff.mp hl
  refine h.agents phase' (List.mem_of_getElem? hl') n ?_
  split at hn
  · exact hf phase' n hn
  · exact hn

/-- **One event** keeps what the master knows. -/
theorem Known.step {s : Fleet Db Fs} (h : Known s) (ev : FleetEvent) : Known (s.step P ev) := by
  cases ev with
  | start cfg e =>
    rw [step_start]
    refine ⟨h.identified.exec (.registerNode (Agent.registeredNode cfg)), h.jobs,
      fun phase hp n hn => ?_⟩
    obtain ⟨a, ha, hsame⟩ := NodeRegistry.lookup_registerNode (e := e)
      (m := s.master.nodeRegistry) (Agent.registeredNode cfg)
    rcases List.mem_append.mp hp with hp | hp
    · -- an agent that was there: the registration has found its entry
      obtain ⟨b, hb, hhost⟩ := h.agents phase hp n hn
      have hmachine : NodeRegistry.SameMachine b (Agent.registeredNode cfg) := hhost
      have hid := (h.identified.registerNode (e := e) hb hmachine).1
      exact ⟨a, hid ▸ ha, hsame⟩
    · obtain rfl := List.mem_singleton.mp hp
      obtain rfl : _ = n := Option.some.inj hn
      exact ⟨a, ha, hsame⟩
  | accept k =>
    refine h.modify k fun phase n hn => ?_
    rwa [AgentPhase.answer_accept] at hn
  | stop k => exact h.modify k fun phase n hn => nomatch hn
  | master e op =>
    obtain ⟨op, hop⟩ := op
    cases op with
    | node op =>
      refine ⟨h.identified.exec op, h.jobs, fun phase hp n hn => ?_⟩
      obtain ⟨a, ha, hhost⟩ := h.agents phase hp n hn
      -- registrations come from the agents, and nobody removes a node
      have hreg (info : NodeInfo) : op ≠ .registerNode info := by
        rintro rfl
        cases hop
      have hun (n : String) : op ≠ .unregisterNode n := by
        rintro rfl
        cases hop
      obtain ⟨a', ha', hsame⟩ := NodeRegistry.sameMachine_exec (e := e) hreg hun ha
      exact ⟨a', ha', hsame.1.trans hhost.1, hsame.2.trans hhost.2⟩
    | job op => exact ⟨h.identified, h.jobs.exec P.store e op, h.agents⟩
    | _ => exact ⟨h.identified, h.jobs, h.agents⟩

/-- After every history the master knows one agent. -/
theorem known_run (evs : List FleetEvent) (db : Option Db) (adminDb : Db) (fs : Fs) :
    Known (run P evs (start db adminDb fs)) := by
  induction evs using List.reverseRecOn with
  | nil =>
    refine ⟨⟨fun n k a b hn => ?_, fun n a hn => ?_⟩, fun j info hj => ?_, fun phase hp => ?_⟩
    · cases hn
    · cases hn
    · cases hj
    · cases hp
  | append_singleton evs ev ih =>
    rw [run_concat]
    exact ih.step ev

/-! ### Offers -/

/-- **What is offered is assigned**: a job that an agent fetches is assigned to the node
it fetches for. -/
theorem assigned_of_offer {n j : String} {spec : JobSpec} {e : ℕ → Env} {s : MasterState Db Fs}
    (hk : s.jobMgr.Keyed) (h : Agent.offer P n e s = some (j, spec)) :
    ∃ info, s.jobMgr.jobs.lookup j = some info ∧ info.assignedNodeId = n := by
  have hoffer : Agent.fetched
      (.fetched (AgentService.offered n (s.jobMgr.listJobs (e 0) .assigned))) = some (j, spec) := by
    rw [← h, Agent.offer, runTask, master_body_rpc]
    rfl
  rw [AgentService.offered] at hoffer
  split at hoffer
  · rename_i job hfind
    obtain ⟨rfl, -⟩ : job.jobId = j ∧ job.spec = spec := by simpa [Agent.fetched] using hoffer
    obtain ⟨⟨j', hj'⟩, -⟩ := (JobManager.mem_listJobs _ _).mp (List.mem_of_find?_eq_some hfind)
    have hid := hk j' job hj'
    refine ⟨job, ?_, by simpa using List.find?_some hfind⟩
    rw [hid]
    exact hj'
  · cases hoffer

/-- **Different identifiers keep the jobs apart.** -/
theorem separate_of_distinct {s : Fleet Db Fs} (hk : s.master.jobMgr.Keyed)
    (h : ∀ k l n, s.nodeOf k = some n → s.nodeOf l = some n → k = l) : Separate P s := by
  refine ⟨h, fun k l n m e e' j spec spec' hn hm ho ho' => ?_⟩
  obtain ⟨info, hinfo, rfl⟩ := assigned_of_offer hk ho
  obtain ⟨info', hinfo', rfl⟩ := assigned_of_offer hk ho'
  obtain rfl := Option.some.inj (hinfo.symm.trans hinfo')
  exact h k l _ hn hm

/-- An agent that runs has an identifier. -/
theorem exists_answer {s : Fleet Db Fs} {k : ℕ} {n : String} (h : s.nodeOf k = some n) :
    ∃ phase ∈ s.agents, phase.answer = some n := by
  obtain ⟨phase, hk, hn⟩ := Option.bind_eq_some_iff.mp h
  exact ⟨phase, List.mem_of_getElem? hk, AgentPhase.answer_of_node hn⟩

/-- **Different agents are different nodes**, in every state of a history, just when no
two of them ever run at the same time. -/
theorem separate_iff (P : Platform Db Fs) (evs : List FleetEvent) (db : Option Db) (adminDb : Db)
    (fs : Fs) :
    (∀ before, before <+: evs → Separate P (run P before (start db adminDb fs))) ↔
      ∀ before, before <+: evs → Alone (run P before (start db adminDb fs)) := by
  refine forall_congr' fun before => imp_congr_right fun _ => ?_
  have hknown := known_run (P := P) before db adminDb fs
  constructor
  · intro h k l n m hn hm
    obtain ⟨phase, hp, hpn⟩ := exists_answer hn
    obtain ⟨phase', hp', hpm⟩ := exists_answer hm
    obtain rfl := hknown.same hp hp' hpn hpm
    exact h.distinct k l n hn hm
  · intro h
    exact separate_of_distinct hknown.jobs fun k l n hn hm => h k l n n hn hm

/-! ### A cluster with two agents -/

/-- Two agents start and run, a job is submitted, and the master assigns it to the node it
knows. -/
def twoAgents : List FleetEvent :=
  [.start {} { now := 100 }, .accept 0, .start {} { now := 101, uuid := secondDraw }, .accept 1,
    .master { now := 102 } ⟨.job (.submitJob {} "alice" "alice"), rfl⟩,
    .master { now := 103 } ⟨.job (.updateJobStatus "job-00000000" .assigned "node-00000000"), rfl⟩]

/-- **Two agents are one node**: both run as `node-00000000`, and the job is offered to
whoever fetches for that node. -/
theorem two_agents_one_node :
    (run barePlatform twoAgents (start none {} ())).nodeOf 0 = some "node-00000000" ∧
      (run barePlatform twoAgents (start none {} ())).nodeOf 1 = some "node-00000000" ∧
      Agent.offer barePlatform "node-00000000" (fun _ => { now := 104 })
        (run barePlatform twoAgents (start none {} ())).master = some ("job-00000000", {}) ∧
      ¬ Separate barePlatform (run barePlatform twoAgents (start none {} ())) := by
  have hfirst : (run barePlatform twoAgents (start none {} ())).nodeOf 0 =
      some "node-00000000" := by
    decide
  have hsecond : (run barePlatform twoAgents (start none {} ())).nodeOf 1 =
      some "node-00000000" := by
    decide
  refine ⟨hfirst, hsecond, by decide, fun h => ?_⟩
  exact absurd (h.distinct 0 1 _ hfirst hsecond) (by decide)

end Fleet

end CertOS
