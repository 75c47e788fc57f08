import CertOS.Common

/-!
# The node registry

`NodeRegistry` owns the table of the nodes that have registered. As in the job
manager, every method holds the registry's mutex for its whole duration, so the
methods are the atomic operations `CertOS.NodeOp` on `CertOS.NodeRegistry`.

The availability the scheduler reads is the field `availableResources` of an
entry. Two operations write it, a registration and a heartbeat, and both copy
what the agent sent.
-/

namespace CertOS

/-- `NodeRegistry`: the table of registered nodes. -/
structure NodeRegistry where
  /-- `nodes_`. -/
  nodes : Table String NodeInfo := ∅

namespace NodeRegistry

/-! ### The methods -/

/-- Whether an entry is the machine that registers: the same host name at the
same address. -/
def sameMachine (info : NodeInfo) (entry : String × NodeInfo) : Bool :=
  entry.2.hostname = info.hostname ∧ entry.2.ipAddress = info.ipAddress

/-- What a registration does to the entry of a machine that is already known. -/
def reregister (now : ℤ) (info existing : NodeInfo) : NodeInfo :=
  { existing with
    status := .online
    lastHeartbeat := now
    totalResources := info.totalResources
    availableResources := info.totalResources }

/-- The entry of a new machine. -/
def newNode (now : ℤ) (nodeId : String) (info : NodeInfo) : NodeInfo :=
  { info with
    nodeId := nodeId
    status := .online
    registeredAt := now
    lastHeartbeat := now
    availableResources := info.totalResources }

/-- `register_node`. -/
def registerNode (e : Env) (info : NodeInfo) (m : NodeRegistry) : String × NodeRegistry :=
  match (e.nodeOrder m.nodes.pairs).find? (sameMachine info) with
  | some entry => (entry.1, { m with nodes := m.nodes.modify entry.1 (reregister e.now info) })
  | none =>
    let nodeId := shortId "node-" e.uuid
    (nodeId, { m with nodes := m.nodes.insert nodeId (newNode e.now nodeId info) })

/-- `unregister_node`. -/
def unregisterNode (nodeId : String) (m : NodeRegistry) : Bool × NodeRegistry :=
  match m.nodes.lookup nodeId with
  | some _ => (true, { m with nodes := m.nodes.erase nodeId })
  | none => (false, m)

/-- What a heartbeat does to an entry; it also brings an offline node back. -/
def heartbeat (now : ℤ) (availableResources : ResourceSpec) (runningJobs : UInt32)
    (info : NodeInfo) : NodeInfo :=
  { info with
    lastHeartbeat := now
    status := .online
    availableResources := availableResources
    runningJobs := runningJobs }

/-- `update_heartbeat`. -/
def updateHeartbeat (e : Env) (nodeId : String) (availableResources : ResourceSpec)
    (runningJobs : UInt32) (m : NodeRegistry) : Bool × NodeRegistry :=
  match m.nodes.lookup nodeId with
  | some _ =>
    (true,
      { m with nodes := m.nodes.modify nodeId (heartbeat e.now availableResources runningJobs) })
  | none => (false, m)

/-- `get_all_nodes`. -/
def getAllNodes (e : Env) (m : NodeRegistry) : List NodeInfo :=
  (e.nodeOrder m.nodes.pairs).map Prod.snd

/-- `get_node`. -/
def getNode (nodeId : String) (m : NodeRegistry) : Option NodeInfo := m.nodes.lookup nodeId

/-- What `check_timeouts` does to an entry. -/
def timeOut (now : ℤ) (timeoutSec : UInt32) (info : NodeInfo) : NodeInfo :=
  if info.status = .online ∧ now - info.lastHeartbeat > timeoutSec.toNat then
    { info with status := .offline }
  else info

/-- `check_timeouts`. -/
def checkTimeouts (e : Env) (timeoutSec : UInt32) (m : NodeRegistry) : NodeRegistry :=
  { m with nodes := m.nodes.mapValues fun _ => timeOut e.now timeoutSec }

end NodeRegistry

/-! ### The operations -/

/-- The methods of the registry as operations. -/
inductive NodeOp where
  | registerNode (info : NodeInfo)
  | unregisterNode (nodeId : String)
  | updateHeartbeat (nodeId : String) (availableResources : ResourceSpec) (runningJobs : UInt32)
  | getAllNodes
  | getNode (nodeId : String)
  | checkTimeouts (timeoutSec : UInt32)
  deriving DecidableEq

/-- What the methods return. -/
@[reducible] def NodeOp.Res : NodeOp → Type
  | .registerNode _ => String
  | .unregisterNode _ | .updateHeartbeat .. => Bool
  | .getAllNodes => List NodeInfo
  | .getNode _ => Option NodeInfo
  | .checkTimeouts _ => Unit

namespace NodeRegistry

/-- The meaning of the operations. -/
def exec (e : Env) : (op : NodeOp) → NodeRegistry → op.Res × NodeRegistry
  | .registerNode info, m => m.registerNode e info
  | .unregisterNode nodeId, m => m.unregisterNode nodeId
  | .updateHeartbeat nodeId avail running, m => m.updateHeartbeat e nodeId avail running
  | .getAllNodes, m => (m.getAllNodes e, m)
  | .getNode nodeId, m => (m.getNode nodeId, m)
  | .checkTimeouts timeoutSec, m => ((), m.checkTimeouts e timeoutSec)

variable {e : Env} {m : NodeRegistry}

/-! ### What the operations do to one entry -/

theorem mem_getAllNodes {info : NodeInfo} :
    info ∈ m.getAllNodes e ↔ ∃ n, m.nodes.lookup n = some info := by
  simp only [getAllNodes, List.mem_map, Reorder.mem_iff, Prod.exists, exists_eq_right]
  exact exists_congr fun n => Table.mem_pairs

/-- The machine a registration finds is an entry of the table. -/
theorem lookup_of_find {info : NodeInfo} {entry : String × NodeInfo}
    (h : (e.nodeOrder m.nodes.pairs).find? (sameMachine info) = some entry) :
    m.nodes.lookup entry.1 = some entry.2 :=
  Table.mem_pairs.mp ((e.nodeOrder.mem_iff).mp (List.mem_of_find?_eq_some h))

/-- A registration leaves every entry alone but the one it answers with. -/
theorem lookup_registerNode_of_ne {info : NodeInfo} {n : String}
    (h : (m.registerNode e info).1 ≠ n) :
    (m.registerNode e info).2.nodes.lookup n = m.nodes.lookup n := by
  simp only [registerNode] at h ⊢
  split
  · rename_i entry hf
    rw [hf] at h
    exact Table.lookup_modify_of_ne (Ne.symm h) _ _
  · rename_i hf
    rw [hf] at h
    exact AList.lookup_insert_ne (Ne.symm h)

/-- A heartbeat keeps the resources a node registered with. -/
theorem lookup_updateHeartbeat (nodeId n : String) (avail : ResourceSpec) (running : UInt32) :
    (m.updateHeartbeat e nodeId avail running).2.nodes.lookup n =
      if n = nodeId then (m.nodes.lookup n).map (heartbeat e.now avail running)
      else m.nodes.lookup n := by
  simp only [updateHeartbeat]
  split
  · rw [Table.lookup_modify]
    split
    · rename_i hn
      rw [hn]
    · rfl
  · rename_i hn
    split
    · rename_i h
      rw [h, hn]
      rfl
    · rfl

/-- A removal takes out the entry with the identifier, if there is one. -/
theorem lookup_unregisterNode (nodeId n : String) :
    (m.unregisterNode nodeId).2.nodes.lookup n =
      if n = nodeId then none else m.nodes.lookup n := by
  simp only [unregisterNode]
  by_cases hn : n = nodeId
  · subst hn
    rw [if_pos rfl]
    split
    · exact AList.lookup_erase _ _
    · rename_i hnot
      simpa using hnot
  · rw [if_neg hn]
    split
    · exact AList.lookup_erase_ne hn
    · rfl

/-- Every entry is filed under its own identifier, and no identifier is
empty. -/
def Keyed (m : NodeRegistry) : Prop :=
  ∀ n info, m.nodes.lookup n = some info → info.nodeId = n ∧ n ≠ ""

theorem shortId_ne_empty (d : UuidDraw) : shortId "node-" d ≠ "" := by
  intro h
  have hlen := congrArg String.toList h
  simp [shortId] at hlen

/-- An operation that changes the entries in place keeps them under their
identifiers. -/
theorem Keyed.of_map {m m' : NodeRegistry} (hk : m.Keyed) {f : String → NodeInfo → NodeInfo}
    (hf : ∀ n info, (f n info).nodeId = info.nodeId)
    (h : ∀ n, m'.nodes.lookup n = (m.nodes.lookup n).map (f n)) : m'.Keyed := by
  intro n info hn
  rw [h] at hn
  obtain ⟨info₀, h₀, rfl⟩ := Option.map_eq_some_iff.mp hn
  rw [hf]
  exact hk n info₀ h₀

/-- The operations keep the entries under their identifiers. -/
theorem Keyed.exec (hk : m.Keyed) (op : NodeOp) : (m.exec e op).2.Keyed := by
  cases op with
  | registerNode info =>
    simp only [NodeRegistry.exec, registerNode]
    split
    · rename_i entry _
      refine hk.of_map (f := fun n i => if n = entry.1 then reregister e.now info i else i) ?_ ?_
      · intro n i
        split <;> rfl
      · exact fun n => Table.lookup_mapValues _ _ _
    · intro n i hn
      rw [Table.lookup_insert] at hn
      split at hn
      · rename_i h
        obtain rfl := Option.some.inj hn
        exact ⟨h.symm, h ▸ shortId_ne_empty e.uuid⟩
      · exact hk n i hn
  | unregisterNode nodeId =>
    intro n i hn
    have hl := (lookup_unregisterNode nodeId n).symm.trans hn
    split at hl
    · cases hl
    · exact hk n i hl
  | updateHeartbeat nodeId avail running =>
    refine hk.of_map (f := fun n i => if n = nodeId then heartbeat e.now avail running i else i)
      ?_ ?_
    · intro n i
      split <;> rfl
    · intro n
      refine (lookup_updateHeartbeat nodeId n avail running).trans ?_
      split <;> simp
  | getAllNodes => exact hk
  | getNode nodeId => exact hk
  | checkTimeouts timeoutSec =>
    refine hk.of_map (f := fun _ => timeOut e.now timeoutSec) ?_ fun n =>
      Table.lookup_mapValues _ _ _
    intro n i
    simp only [timeOut]
    split <;> rfl

/-- The nodes of a snapshot have different identifiers. -/
theorem Keyed.nodup_getAllNodes (hk : m.Keyed) : ((m.getAllNodes e).map NodeInfo.nodeId).Nodup := by
  have hfst : (e.nodeOrder m.nodes.pairs).map (fun p => p.2.nodeId) =
      (e.nodeOrder m.nodes.pairs).map Prod.fst := by
    refine List.map_congr_left fun p hp => ?_
    exact (hk p.1 p.2 (Table.mem_pairs.mp (e.nodeOrder.mem_iff.mp hp))).1
  have hkeys : m.nodes.pairs.map Prod.fst = m.nodes.keys := by
    simp [Table.pairs, AList.keys, List.keys]
  rw [getAllNodes, List.map_map]
  refine (hfst ▸ ?_ : ((e.nodeOrder m.nodes.pairs).map fun p => p.2.nodeId).Nodup)
  refine ((e.nodeOrder.perm m.nodes.pairs).map Prod.fst).nodup_iff.mpr ?_
  rw [hkeys]
  exact m.nodes.keys_nodup

/-- **A node keeps its size**: only a registration that answers with the node,
or its removal, changes the resources it registered with. -/
theorem exec_keeps_total {op : NodeOp} {n : String} {info : NodeInfo}
    (hn : m.nodes.lookup n = some info)
    (hreg : ∀ i, op = .registerNode i → (m.registerNode e i).1 ≠ n)
    (hun : op ≠ .unregisterNode n) :
    ∃ info', (m.exec e op).2.nodes.lookup n = some info' ∧
      info'.totalResources = info.totalResources := by
  cases op with
  | registerNode i => exact ⟨info, (lookup_registerNode_of_ne (hreg i rfl)).trans hn, rfl⟩
  | unregisterNode nodeId =>
    have hne : n ≠ nodeId := by
      rintro rfl
      exact hun rfl
    refine ⟨info, (lookup_unregisterNode nodeId n).trans ?_, rfl⟩
    rw [if_neg hne]
    exact hn
  | updateHeartbeat nodeId avail running =>
    have h := lookup_updateHeartbeat (e := e) (m := m) nodeId n avail running
    split at h
    · rw [hn] at h
      exact ⟨heartbeat e.now avail running info, h, rfl⟩
    · exact ⟨info, h.trans hn, rfl⟩
  | getAllNodes => exact ⟨info, hn, rfl⟩
  | getNode nodeId => exact ⟨info, hn, rfl⟩
  | checkTimeouts timeoutSec =>
    refine ⟨timeOut e.now timeoutSec info, ?_, ?_⟩
    · refine (Table.lookup_mapValues _ _ _).trans ?_
      rw [hn]
      rfl
    · rw [timeOut]
      split <;> rfl

end NodeRegistry

/-! ### Which operations hear of a node -/

/-- The operation hears of a node: the node registers, or its heartbeat is
acknowledged. -/
def NodeOp.hears (n : String) : (op : NodeOp) → op.Res → Bool
  | .registerNode _, nodeId => nodeId = n
  | .updateHeartbeat nodeId _ _, ok => nodeId = n && ok
  | _, _ => false

/-- The operation neither removes a node nor marks one as offline. -/
def NodeOp.keepsOnline : NodeOp → Bool
  | .unregisterNode _ | .checkTimeouts _ => false
  | _ => true

namespace NodeRegistry

variable {e : Env} {m : NodeRegistry}

/-- An operation that hears of a node leaves it online, heard of just now. -/
theorem exec_of_hears {op : NodeOp} {n : String} (h : op.hears n (m.exec e op).1 = true) :
    ∃ node, (m.exec e op).2.nodes.lookup n = some node ∧ node.status = .online ∧
      node.lastHeartbeat = e.now := by
  cases op with
  | registerNode info =>
    obtain rfl : (m.registerNode e info).1 = n := of_decide_eq_true h
    simp only [exec, registerNode]
    split
    · rename_i entry hf
      refine ⟨reregister e.now info entry.2, ?_, rfl, rfl⟩
      rw [Table.lookup_modify_self, lookup_of_find hf]
      rfl
    · exact ⟨newNode e.now _ info, AList.lookup_insert _, rfl, rfl⟩
  | updateHeartbeat nodeId avail running =>
    obtain ⟨rfl, hok⟩ : nodeId = n ∧ (m.updateHeartbeat e nodeId avail running).1 = true := by
      simpa [NodeOp.hears, exec] using h
    have hl := lookup_updateHeartbeat (e := e) (m := m) nodeId nodeId avail running
    rw [if_pos rfl] at hl
    cases hn : m.nodes.lookup nodeId with
    | none =>
      rw [updateHeartbeat, hn] at hok
      cases hok
    | some node =>
      rw [hn] at hl
      exact ⟨heartbeat e.now avail running node, hl, rfl, rfl⟩
  | _ => cases h

/-- The other operations leave its entry alone, as long as they keep the nodes
online. -/
theorem exec_of_not_hears {op : NodeOp} {n : String} (hk : op.keepsOnline = true)
    (h : op.hears n (m.exec e op).1 = false) :
    (m.exec e op).2.nodes.lookup n = m.nodes.lookup n := by
  cases op with
  | registerNode info => exact lookup_registerNode_of_ne (of_decide_eq_false h)
  | updateHeartbeat nodeId avail running =>
    refine (lookup_updateHeartbeat nodeId n avail running).trans ?_
    split
    · -- the heartbeat of a node that is not known
      rename_i hn
      subst hn
      have hok : (m.updateHeartbeat e n avail running).1 = false := by
        simpa [NodeOp.hears, exec] using h
      cases hn : m.nodes.lookup n with
      | none => rfl
      | some node =>
        rw [updateHeartbeat, hn] at hok
        cases hok
    · rfl
  | getAllNodes => rfl
  | getNode nodeId => rfl
  | _ => cases hk

end NodeRegistry

end CertOS
