import CertOS.Master.RegistryIdentity

/-!
# What a registration leaves behind

A registration takes one of two paths: a machine that is not known gets a new entry, and the
entry of a machine that is known is updated in place. Both answer with the identifier of the
entry and leave the other entries alone, and both write the status, the total and the
availability (`CertOS.NodeRegistry.lookup_registerNode_self`).

The new entry is a copy of what was sent. The update sets its fields one at a time, and two
are missing: the port and the name of the operating system stay those of the first
registration. So what was registered is what is recorded if and only if a machine that comes
back has the port and the system it had (`CertOS.NodeRegistry.recordsRegistration_iff`).
-/

namespace CertOS

namespace NodeRegistry

variable (e : Env) (m : NodeRegistry) (info : NodeInfo)

/-- The entry of the machine that registers, as the search finds it. -/
def known : Option (String × NodeInfo) := (e.nodeOrder m.nodes.pairs).find? (sameMachine info)

/-- The entry a registration leaves behind under the identifier that it answers with. -/
def registeredEntry : NodeInfo :=
  match m.known e info with
  | some entry => reregister e.now info entry.2
  | none => newNode e.now (shortId "node-" e.uuid) info

/-- **The entry a registration answers with.** -/
theorem lookup_registerNode_self :
    (m.registerNode e info).2.getNode (m.registerNode e info).1 =
      some (m.registeredEntry e info) := by
  simp only [getNode, registerNode, registeredEntry, known]
  cases hfind : (e.nodeOrder m.nodes.pairs).find? (sameMachine info) with
  | some entry =>
    refine (Table.lookup_modify_self _ _ _).trans ?_
    rw [lookup_of_find hfind]
    rfl
  | none => exact AList.lookup_insert _

/-- A node as it was registered: online, with all of its room free. -/
structure Recorded (info a : NodeInfo) : Prop where
  status : a.status = .online
  hostname : a.hostname = info.hostname
  ipAddress : a.ipAddress = info.ipAddress
  port : a.port = info.port
  osInfo : a.osInfo = info.osInfo
  totalResources : a.totalResources = info.totalResources
  availableResources : a.availableResources = info.totalResources

/-- **A registration records what was registered**: under the identifier it answers with the
registry has the node as it was registered, and under any other identifier what it had. -/
structure RecordsRegistration : Prop where
  own : ∃ a, (m.registerNode e info).2.getNode (m.registerNode e info).1 = some a ∧
    Recorded info a
  others : ∀ n, n ≠ (m.registerNode e info).1 →
    (m.registerNode e info).2.getNode n = m.getNode n

variable {e m info}

/-- The entry found by the search is the machine that registers. -/
theorem sameMachine_of_known {entry : String × NodeInfo} (h : m.known e info = some entry) :
    SameMachine entry.2 info :=
  sameMachine_of_find h

/-- On both paths the total is the one that was sent, and all of it is available. -/
theorem registeredEntry_resources (e : Env) (m : NodeRegistry) (info : NodeInfo) :
    (m.registeredEntry e info).totalResources = info.totalResources ∧
      (m.registeredEntry e info).availableResources = info.totalResources := by
  rw [registeredEntry]
  split
  · exact ⟨rfl, rfl⟩
  · exact ⟨rfl, rfl⟩

/-- **The rule for the entries**: what holds of the entry a registration leaves behind, and is
kept by heartbeats and by the timeout, holds of all entries after the operation. -/
theorem forall_exec {q : String → NodeInfo → Prop} {op : NodeOp}
    (hreg : ∀ info, op = .registerNode info →
      q (m.registerNode e info).1 (m.registeredEntry e info))
    (hbeat : ∀ n avail running a, op = .updateHeartbeat n avail running → m.getNode n = some a →
      q n a → q n (heartbeat e.now avail running a))
    (htime : ∀ n a timeoutSec, q n a → q n (timeOut e.now timeoutSec a))
    (h : ∀ n a, m.getNode n = some a → q n a) :
    ∀ n a, (m.exec e op).2.getNode n = some a → q n a := by
  intro n a hn
  cases op with
  | registerNode info =>
    by_cases hid : (m.registerNode e info).1 = n
    · subst hid
      obtain rfl := Option.some.inj ((lookup_registerNode_self e m info).symm.trans hn)
      exact hreg info rfl
    · exact h n a ((lookup_registerNode_of_ne hid).symm.trans hn)
  | unregisterNode nodeId =>
    have hl := (lookup_unregisterNode nodeId n).symm.trans hn
    split at hl
    · cases hl
    · exact h n a hl
  | updateHeartbeat nodeId avail running =>
    have hl := (lookup_updateHeartbeat nodeId n avail running).symm.trans hn
    split at hl
    · rename_i hid
      subst hid
      obtain ⟨a₀, ha₀, rfl⟩ := Option.map_eq_some_iff.mp hl
      exact hbeat n avail running a₀ rfl ha₀ (h n a₀ ha₀)
    · exact h n a hl
  | getAllNodes => exact h n a hn
  | getNode nodeId => exact h n a hn
  | checkTimeouts timeoutSec =>
    obtain ⟨a₀, ha₀, rfl⟩ :=
      Option.map_eq_some_iff.mp ((Table.lookup_mapValues _ _ _).symm.trans hn)
    exact htime n a₀ timeoutSec (h n a₀ ha₀)

/-- The entry that is left behind is the node as it was registered if and only if the machine
is new, or has the port and the operating system it had. -/
theorem recorded_registeredEntry_iff :
    Recorded info (m.registeredEntry e info) ↔
      ∀ entry, m.known e info = some entry →
        entry.2.port = info.port ∧ entry.2.osInfo = info.osInfo := by
  rw [registeredEntry]
  cases hknown : m.known e info with
  | none =>
    refine iff_of_true ⟨rfl, rfl, rfl, rfl, rfl, rfl, rfl⟩ fun entry h => ?_
    cases h
  | some entry =>
    obtain ⟨hhost, hip⟩ := sameMachine_of_known hknown
    constructor
    · -- the update leaves port and system as they were
      intro hrec entry' h
      obtain rfl := Option.some.inj h
      exact ⟨hrec.port, hrec.osInfo⟩
    · intro h
      obtain ⟨hport, hos⟩ := h entry rfl
      exact ⟨rfl, hhost, hip, hport, hos, rfl, rfl⟩

/-- **When a registration records what was registered**, in any state of the registry and
whatever the generator draws: if and only if the entry of the machine, where there is one,
has the port and the operating system that are registered now. -/
theorem recordsRegistration_iff :
    RecordsRegistration e m info ↔
      ∀ entry, m.known e info = some entry →
        entry.2.port = info.port ∧ entry.2.osInfo = info.osInfo := by
  rw [← recorded_registeredEntry_iff]
  constructor
  · rintro ⟨⟨a, ha, hrec⟩, -⟩
    rw [lookup_registerNode_self] at ha
    rwa [Option.some.inj ha]
  · intro hrec
    exact ⟨⟨_, lookup_registerNode_self e m info, hrec⟩,
      fun n hn => lookup_registerNode_of_ne (Ne.symm hn)⟩

/-- A node as an agent registers it. -/
def firstNode : NodeInfo where
  hostname := "agent-host"
  ipAddress := "127.0.0.1"
  osInfo := "Linux (Agent)"
  totalResources := { cpuCores := 4, ramMb := 8192 }

/-- The same machine with another port and another system. -/
def sameNodeAgain : NodeInfo := { firstNode with port := 7000, osInfo := "Linux 6.8" }

/-- **A machine that comes back keeps its old port and system.** -/
theorem old_port_survives :
    let m : NodeRegistry := (registerNode {} firstNode {}).2
    (((m.registerNode {} sameNodeAgain).2.getNode "node-00000000").map fun a =>
        (a.port, a.osInfo)) = some (0, "Linux (Agent)") ∧
      ¬ RecordsRegistration {} m sameNodeAgain := by
  refine ⟨by decide, fun h => ?_⟩
  obtain ⟨hport, -⟩ := recordsRegistration_iff.mp h
    ("node-00000000", newNode 0 "node-00000000" firstNode) (by decide)
  exact absurd hport (by decide)

end NodeRegistry

end CertOS
