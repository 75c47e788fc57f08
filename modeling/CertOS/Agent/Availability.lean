import CertOS.Agent.Fleet
import CertOS.Master.Registration
import CertOS.Resources

/-!
# What an agent says is available

A node registers with what its configuration says it has, and all of it is available then.
After that an agent reports in its heartbeats what is available, and what it reports is not
measured: it is four cores and 8192 MB on every machine (`CertOS.Agent.fakeAvailable`). The
registry stores it as it comes.

So no node has more available than it has in all in the states of a run just when no heartbeat
comes from a node that has registered with less (`CertOS.NodeRegistry.withinTotal_iff`), and
agents that register with less are those whose configuration says so
(`CertOS.Agent.ample_iff`).
-/

namespace CertOS

namespace Agent

/-- A total that covers what the heartbeats report. -/
def Ample (total : ResourceSpec) : Prop := fits fakeAvailable total = true

instance (total : ResourceSpec) : Decidable (Ample total) := inferInstanceAs (Decidable (_ = _))

/-- **An agent registers with enough** if its configuration leaves cores and memory open, or
names enough of both. -/
theorem ample_iff (cfg : AgentConfig) :
    Ample (registeredNode cfg).totalResources ↔
      (cfg.cpuCores = 0 ∨ 4 ≤ cfg.cpuCores) ∧ (cfg.ramMb = 0 ∨ 8192 ≤ cfg.ramMb) := by
  have hcpu : (4 : UInt32) ≤ (if cfg.cpuCores > 0 then cfg.cpuCores else 4) ↔
      cfg.cpuCores = 0 ∨ 4 ≤ cfg.cpuCores := by
    split
    · rename_i hpos
      exact ⟨Or.inr, fun h => h.resolve_left (UInt32.pos_iff_ne_zero.mp hpos)⟩
    · rename_i hpos
      exact iff_of_true (UInt32.le_refl _) (Or.inl (by simpa using hpos))
  have hram : (8192 : UInt64) ≤ (if cfg.ramMb > 0 then cfg.ramMb else 8192) ↔
      cfg.ramMb = 0 ∨ 8192 ≤ cfg.ramMb := by
    split
    · rename_i hpos
      exact ⟨Or.inr, fun h => h.resolve_left (UInt64.pos_iff_ne_zero.mp hpos)⟩
    · rename_i hpos
      exact iff_of_true (UInt64.le_refl _) (Or.inl (by simpa using hpos))
  rw [← hcpu, ← hram]
  simp [Ample, fits, fakeAvailable, registeredNode, registration]

end Agent

namespace NodeRegistry

/-- A node has no more available than it has in all. -/
def Covered (a : NodeInfo) : Prop := fits a.availableResources a.totalResources = true

/-- **Availability never exceeds the total**, in any of the three resources. -/
def WithinTotal (m : NodeRegistry) : Prop :=
  ∀ n a, m.getNode n = some a →
    ∀ d, a.availableResources.amount d ≤ a.totalResources.amount d

theorem withinTotal_iff_covered {m : NodeRegistry} :
    m.WithinTotal ↔ ∀ n a, m.getNode n = some a → Covered a := by
  simp only [WithinTotal, Covered, fits_iff]

/-- The heartbeats are those of agents. -/
def fromAgent : NodeOp → Bool
  | .updateHeartbeat _ avail _ => avail = Agent.fakeAvailable
  | _ => true

/-- A heartbeat comes from a node that has registered with enough. -/
def reportsWithin (m : NodeRegistry) : NodeOp → Prop
  | .updateHeartbeat nodeId _ _ => ∀ a, m.getNode nodeId = some a → Agent.Ample a.totalResources
  | _ => True

variable {e : Env} {m : NodeRegistry}

/-- A heartbeat covers its node just when the node has registered with enough. -/
theorem covered_heartbeat {running : UInt32} {a : NodeInfo} :
    Covered (heartbeat e.now Agent.fakeAvailable running a) ↔ Agent.Ample a.totalResources :=
  Iff.rfl

theorem covered_timeOut {timeoutSec : UInt32} {a : NodeInfo} (h : Covered a) :
    Covered (timeOut e.now timeoutSec a) := by
  rw [timeOut]
  split
  · exact h
  · exact h

/-- **One call**: availability stays within the total just when a heartbeat comes from a node
that has registered with enough. -/
theorem withinTotal_exec_iff (h : m.WithinTotal) {op : NodeOp} (hop : fromAgent op = true) :
    (m.exec e op).2.WithinTotal ↔ m.reportsWithin op := by
  rw [withinTotal_iff_covered] at h ⊢
  constructor
  · intro hafter
    cases op with
    | updateHeartbeat nodeId avail running =>
      obtain rfl : avail = Agent.fakeAvailable := of_decide_eq_true hop
      intro a ha
      have hl := lookup_updateHeartbeat (e := e) (m := m) nodeId nodeId Agent.fakeAvailable running
      rw [if_pos rfl] at hl
      have hnode : (m.updateHeartbeat e nodeId Agent.fakeAvailable running).2.getNode nodeId =
          some (heartbeat e.now Agent.fakeAvailable running a) :=
        hl.trans (congrArg (Option.map _) ha)
      exact covered_heartbeat.mp (hafter nodeId _ hnode)
    | _ => trivial
  · intro hroom
    refine forall_exec (q := fun _ a => Covered a) (fun info _ => ?_)
      (fun n avail running a hbeat ha _ => ?_) (fun n a timeoutSec hcov => covered_timeOut hcov) h
    · obtain ⟨htotal, havail⟩ := registeredEntry_resources e m info
      rw [Covered, htotal, havail]
      exact fits_iff.mpr fun d => le_refl _
    · subst hbeat
      obtain rfl : avail = Agent.fakeAvailable := of_decide_eq_true hop
      exact covered_heartbeat.mpr (hroom a ha)

/-- **When availability never exceeds the total**: in all states of a run of registrations and
agents' heartbeats if and only if every heartbeat of it that is carried out comes from a node
that has registered with enough. For the registration of an agent that means: its
configuration leaves cores and memory open or names enough of both. -/
theorem withinTotal_iff {calls : List (Env × NodeOp)}
    (hcalls : ∀ call ∈ calls, fromAgent call.2 = true) :
    ((∀ before, before <+: calls → (run before {}).WithinTotal) ↔
      ∀ before call, before ++ [call] <+: calls → (run before {}).reportsWithin call.2) ∧
    ∀ cfg, Agent.Ample (Agent.registeredNode cfg).totalResources ↔
      (cfg.cpuCores = 0 ∨ 4 ≤ cfg.cpuCores) ∧ (cfg.ramMb = 0 ∨ 8192 ≤ cfg.ramMb) := by
  have hop {before : List (Env × NodeOp)} {call : Env × NodeOp} (h : before ++ [call] <+: calls) :
      fromAgent call.2 = true :=
    hcalls call (h.subset (List.mem_append_right _ List.mem_cons_self))
  refine ⟨⟨fun h before call hb => ?_, fun h before => ?_⟩, Agent.ample_iff⟩
  · have hbefore := h before ((List.prefix_append _ _).trans hb)
    have hafter := h _ hb
    rw [run_concat] at hafter
    exact (withinTotal_exec_iff hbefore (hop hb)).mp hafter
  · induction before using List.reverseRecOn with
    | nil =>
      intro _ n a hn
      cases hn
    | append_singleton before call ih =>
      intro hb
      rw [run_concat]
      exact (withinTotal_exec_iff (ih ((List.prefix_append _ _).trans hb)) (hop hb)).mpr
        (h before call hb)

/-- Where only nodes with enough register, there are only such nodes. -/
theorem ample_run {calls : List (Env × NodeOp)} (h : ∀ call ∈ calls, ∀ info,
    call.2 = .registerNode info → Agent.Ample info.totalResources) :
    ∀ n a, (run calls {}).getNode n = some a → Agent.Ample a.totalResources := by
  induction calls using List.reverseRecOn with
  | nil =>
    intro n a hn
    cases hn
  | append_singleton calls call ih =>
    rw [run_concat]
    refine forall_exec (q := fun _ a => Agent.Ample a.totalResources) (fun info hreg => ?_)
      (fun _ _ _ _ _ _ ha => ha) (fun n a timeoutSec ha => ?_)
      (ih fun c hc => h c (List.mem_append_left _ hc))
    · rw [(registeredEntry_resources _ _ info).1]
      exact h call (List.mem_append_right _ List.mem_cons_self) info hreg
    · rw [timeOut]
      split
      · exact ha
      · exact ha

/-- An agent with this configuration registers, and sends a heartbeat. -/
def startAndBeat (cfg : AgentConfig) : List (Env × NodeOp) :=
  [({ now := 100 }, .registerNode (Agent.registeredNode cfg)),
    ({ now := 105 }, .updateHeartbeat "node-00000000" Agent.fakeAvailable 0)]

/-- The law at work: an agent as it comes out of the box. -/
theorem withinTotal_default :
    (run (startAndBeat {}) {}).nodes.keys = ["node-00000000"] ∧
      (run (startAndBeat {}) {}).WithinTotal := by
  have hcalls : ∀ call ∈ startAndBeat {}, fromAgent call.2 = true := by decide
  have hreg : ∀ call ∈ startAndBeat {}, ∀ info, call.2 = .registerNode info →
      Agent.Ample info.totalResources := by
    intro call hc info hop
    simp only [startAndBeat, List.mem_cons, List.not_mem_nil, or_false] at hc
    rcases hc with rfl | rfl
    · obtain rfl := NodeOp.registerNode.inj hop
      decide
    · cases hop
  refine ⟨by decide, (withinTotal_iff hcalls).1.mpr (fun before call hb => ?_) _ List.prefix_rfl⟩
  have hnodes := ample_run fun c hc => hreg c (hb.subset (List.mem_append_left _ hc))
  cases hop : call.2 with
  | updateHeartbeat nodeId avail running => exact hnodes nodeId
  | _ => trivial

/-- **A machine with two cores has four available**, after its first heartbeat. -/
theorem two_cores_report_four :
    ((run (startAndBeat { cpuCores := 2 }) {}).getNode "node-00000000").map (fun a =>
        (a.availableResources.cpuCores, a.totalResources.cpuCores)) = some (4, 2) ∧
      ¬ (run (startAndBeat { cpuCores := 2 }) {}).WithinTotal := by
  refine ⟨by decide, fun h => ?_⟩
  have hle := h "node-00000000" (heartbeat 105 Agent.fakeAvailable 0
    (newNode 100 "node-00000000" (Agent.registeredNode { cpuCores := 2 }))) (by decide) .cpu
  exact absurd hle (by decide)

end NodeRegistry

end CertOS
