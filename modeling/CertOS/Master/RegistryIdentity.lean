import CertOS.Master.NodeRegistry
import Mathlib.Data.List.Induction

/-!
# The identity of a node

A machine is known to the registry by its host name and address, and an entry is
filed under an identifier drawn at random. The two agree: whatever the generator
draws, no two entries are the same machine, and every entry is filed under its own
identifier (`CertOS.NodeRegistry.Identified`). A draw that repeats an identifier
replaces an entry and does no harm to that, since the search before it has found no
entry for the machine that registers.
-/

namespace CertOS

namespace NodeRegistry

/-- The state after a sequence of calls, each in its own environment. -/
def run (calls : List (Env × NodeOp)) (m : NodeRegistry) : NodeRegistry :=
  calls.foldl (fun m call => (m.exec call.1 call.2).2) m

theorem run_concat (calls : List (Env × NodeOp)) (call : Env × NodeOp) (m : NodeRegistry) :
    run (calls ++ [call]) m = ((run calls m).exec call.1 call.2).2 := by
  simp [run]

/-- Two entries are the same machine. -/
def SameMachine (a b : NodeInfo) : Prop := a.hostname = b.hostname ∧ a.ipAddress = b.ipAddress

/-- **The identity invariant**: no two entries are the same machine, and every entry is
filed under its own identifier. -/
structure Identified (m : NodeRegistry) : Prop where
  unique : ∀ n k a b, m.nodes.lookup n = some a → m.nodes.lookup k = some b →
    SameMachine a b → n = k
  keyed : ∀ n a, m.nodes.lookup n = some a → a.nodeId = n

variable {e : Env} {m : NodeRegistry}

/-- The comparison of the search decides whether two entries are the same machine. -/
theorem sameMachine_iff {info : NodeInfo} {entry : String × NodeInfo} :
    sameMachine info entry = true ↔ SameMachine entry.2 info :=
  decide_eq_true_iff

/-- The entry a registration finds is the machine that registers. -/
theorem sameMachine_of_find {info : NodeInfo} {entry : String × NodeInfo}
    (h : (e.nodeOrder m.nodes.pairs).find? (sameMachine info) = some entry) :
    SameMachine entry.2 info :=
  sameMachine_iff.mp (List.find?_some h)

/-- If a registration finds no entry, there is none for the machine. -/
theorem not_sameMachine_of_find {info : NodeInfo}
    (h : (e.nodeOrder m.nodes.pairs).find? (sameMachine info) = none) {n : String} {a : NodeInfo}
    (hn : m.nodes.lookup n = some a) : ¬ SameMachine a info := by
  have hmem : (n, a) ∈ e.nodeOrder m.nodes.pairs :=
    e.nodeOrder.mem_iff.mpr (Table.mem_pairs.mpr hn)
  have hnot := List.find?_eq_none.mp h (n, a) hmem
  intro hsame
  exact hnot (sameMachine_iff.mpr hsame)

/-- Changing entries in place, and not their machines, keeps the invariant. -/
theorem Identified.of_map {m' : NodeRegistry} (h : Identified m) {f : String → NodeInfo → NodeInfo}
    (hf : ∀ n a, SameMachine (f n a) a ∧ (f n a).nodeId = a.nodeId)
    (hm : ∀ n, m'.nodes.lookup n = (m.nodes.lookup n).map (f n)) : Identified m' := by
  refine ⟨fun n k a b hn hk hab => ?_, fun n a hn => ?_⟩
  · rw [hm] at hn hk
    obtain ⟨a₀, ha₀, rfl⟩ := Option.map_eq_some_iff.mp hn
    obtain ⟨b₀, hb₀, rfl⟩ := Option.map_eq_some_iff.mp hk
    have ha := (hf n a₀).1
    have hb := (hf k b₀).1
    exact h.unique n k a₀ b₀ ha₀ hb₀
      ⟨ha.1.symm.trans (hab.1.trans hb.1), ha.2.symm.trans (hab.2.trans hb.2)⟩
  · rw [hm] at hn
    obtain ⟨a₀, ha₀, rfl⟩ := Option.map_eq_some_iff.mp hn
    exact (hf n a₀).2.trans (h.keyed n a₀ ha₀)

/-- A new machine under an identifier that may be taken. -/
theorem Identified.insert (h : Identified m) {info : NodeInfo} {nodeId : String}
    (hnew : ∀ n a, m.nodes.lookup n = some a → ¬ SameMachine a info) (hid : info.nodeId = nodeId) :
    Identified { m with nodes := m.nodes.insert nodeId info } := by
  refine ⟨fun n k a b hn hk hab => ?_, fun n a hn => ?_⟩
  · rw [Table.lookup_insert] at hn hk
    split at hn
    · obtain rfl := Option.some.inj hn
      split at hk
      · rename_i hn' hk'
        exact hn'.trans hk'.symm
      · exact absurd ⟨hab.1.symm, hab.2.symm⟩ (hnew k b hk)
    · split at hk
      · obtain rfl := Option.some.inj hk
        exact absurd hab (hnew n a hn)
      · exact h.unique n k a b hn hk hab
  · rw [Table.lookup_insert] at hn
    split at hn
    · rename_i hn'
      obtain rfl := Option.some.inj hn
      exact hid.trans hn'.symm
    · exact h.keyed n a hn

/-- **One call keeps the identity of the nodes**, whatever its environment. -/
theorem Identified.exec (h : Identified m) (op : NodeOp) : Identified (m.exec e op).2 := by
  cases op with
  | registerNode info =>
    simp only [NodeRegistry.exec, registerNode]
    split
    · -- the entry that is found keeps its machine and its identifier
      rename_i entry hfind
      refine h.of_map (f := fun n a => if n = entry.1 then reregister e.now info a else a) ?_
        fun n => Table.lookup_mapValues _ _ _
      intro n a
      split
      · exact ⟨⟨rfl, rfl⟩, rfl⟩
      · exact ⟨⟨rfl, rfl⟩, rfl⟩
    · -- no entry is this machine, so a new one may be added
      rename_i hfind
      exact h.insert (fun n a hn => not_sameMachine_of_find hfind hn) rfl
  | unregisterNode nodeId =>
    have hsub : ∀ n a, (m.unregisterNode nodeId).2.nodes.lookup n = some a →
        m.nodes.lookup n = some a := by
      intro n a hn
      have hl := (lookup_unregisterNode nodeId n).symm.trans hn
      split at hl
      · cases hl
      · exact hl
    exact ⟨fun n k a b hn hk => h.unique n k a b (hsub n a hn) (hsub k b hk),
      fun n a hn => h.keyed n a (hsub n a hn)⟩
  | updateHeartbeat nodeId avail running =>
    refine h.of_map
      (f := fun n a => if n = nodeId then heartbeat e.now avail running a else a) ?_ fun n => ?_
    · intro n a
      split
      · exact ⟨⟨rfl, rfl⟩, rfl⟩
      · exact ⟨⟨rfl, rfl⟩, rfl⟩
    · refine (lookup_updateHeartbeat nodeId n avail running).trans ?_
      split <;> simp
  | getAllNodes => exact h
  | getNode nodeId => exact h
  | checkTimeouts timeoutSec =>
    refine h.of_map (f := fun _ => timeOut e.now timeoutSec) ?_ fun n =>
      Table.lookup_mapValues _ _ _
    intro n a
    simp only [timeOut]
    split
    · exact ⟨⟨rfl, rfl⟩, rfl⟩
    · exact ⟨⟨rfl, rfl⟩, rfl⟩

/-- The invariant holds in every state of the registry. -/
theorem identified_run (calls : List (Env × NodeOp)) : Identified (run calls {}) := by
  induction calls using List.reverseRecOn with
  | nil =>
    refine ⟨fun n k a b hn => ?_, fun n a hn => ?_⟩
    · cases hn
    · cases hn
  | append_singleton calls call ih =>
    rw [run_concat]
    exact ih.exec call.2

/-- **A machine that is known registers again** under the same identifier, and the
registry gets no new entry. -/
theorem Identified.registerNode (h : Identified m) {info a : NodeInfo} {n : String}
    (hn : m.nodes.lookup n = some a) (hsame : SameMachine a info) :
    (m.registerNode e info).1 = n ∧ (m.registerNode e info).2.nodes.keys = m.nodes.keys := by
  simp only [NodeRegistry.registerNode]
  split
  · rename_i entry hfind
    have hentry := sameMachine_of_find hfind
    refine ⟨h.unique entry.1 n entry.2 a (lookup_of_find hfind) hn ?_, ?_⟩
    · exact ⟨hentry.1.trans hsame.1.symm, hentry.2.trans hsame.2.symm⟩
    · exact Table.keys_modify _ _ _
  · rename_i hfind
    exact absurd hsame (not_sameMachine_of_find hfind hn)

/-- **A registration answers with the machine's entry**, old or new. -/
theorem lookup_registerNode (info : NodeInfo) :
    ∃ a, (m.registerNode e info).2.nodes.lookup (m.registerNode e info).1 = some a ∧
      SameMachine a info := by
  simp only [NodeRegistry.registerNode]
  split
  · rename_i entry hfind
    have hsame := sameMachine_of_find hfind
    refine ⟨reregister e.now info entry.2, ?_, hsame⟩
    rw [Table.lookup_modify_self, lookup_of_find hfind]
    rfl
  · exact ⟨newNode e.now _ info, AList.lookup_insert _, rfl, rfl⟩

/-- The operations other than a registration and a removal keep the machine of every
entry. -/
theorem sameMachine_exec {op : NodeOp} (hreg : ∀ info, op ≠ .registerNode info)
    (hun : ∀ n, op ≠ .unregisterNode n) {n : String} {a : NodeInfo}
    (hn : m.nodes.lookup n = some a) :
    ∃ a', (m.exec e op).2.nodes.lookup n = some a' ∧ SameMachine a' a := by
  cases op with
  | registerNode info => exact absurd rfl (hreg info)
  | unregisterNode nodeId => exact absurd rfl (hun nodeId)
  | updateHeartbeat nodeId avail running =>
    have hl := lookup_updateHeartbeat (e := e) (m := m) nodeId n avail running
    rw [hn] at hl
    split at hl
    · exact ⟨_, hl, rfl, rfl⟩
    · exact ⟨a, hl, rfl, rfl⟩
  | getAllNodes => exact ⟨a, hn, rfl, rfl⟩
  | getNode nodeId => exact ⟨a, hn, rfl, rfl⟩
  | checkTimeouts timeoutSec =>
    refine ⟨timeOut e.now timeoutSec a, ?_, ?_⟩
    · refine (Table.lookup_mapValues _ _ _).trans ?_
      rw [hn]
      rfl
    · rw [timeOut]
      split
      · exact ⟨rfl, rfl⟩
      · exact ⟨rfl, rfl⟩

/-- **The registry knows every machine once**: after any sequence of calls, with any
draws of the identifier generator, no two entries are the same machine and every entry
is filed under its own identifier, so that a machine that is known registers again
under the same identifier and adds no entry. -/
theorem registry_identity (calls : List (Env × NodeOp)) :
    Identified (run calls {}) ∧
      ∀ (e : Env) (info a : NodeInfo) (n : String), (run calls {}).nodes.lookup n = some a →
        SameMachine a info →
        ((run calls {}).registerNode e info).1 = n ∧
          ((run calls {}).registerNode e info).2.nodes.keys = (run calls {}).nodes.keys :=
  ⟨identified_run calls, fun _ _ _ _ hn hsame => (identified_run calls).registerNode hn hsame⟩

end NodeRegistry

end CertOS
