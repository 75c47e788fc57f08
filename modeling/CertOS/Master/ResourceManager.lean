import CertOS.Resources
import CertOS.Table
import Mathlib.Data.List.Induction

/-!
# The resource manager

`ResourceManager` keeps for each node what it has and what is allocated of it. Its
methods hold one mutex, so a run is a sequence of calls
(`CertOS.ResourceManager.run`).

What is free is a difference of unsigned numbers. It is the true difference as long
as no more is allocated than there is, and then an allocation that is granted keeps
it so. `set_node_capacity` is the exception: it replaces the total, keeps the
allocation and compares neither with the other. The accounts are sound in all states
of a run just when no such call goes below what is allocated
(`CertOS.ResourceManager.sound_iff`).
-/

namespace CertOS

/-- `NodeCapacity`. -/
structure NodeCapacity where
  total : ResourceSpec := {}
  allocated : ResourceSpec := {}
  deriving DecidableEq

namespace NodeCapacity

/-- What the methods take for free, with the subtractions of the source. -/
def free (cap : NodeCapacity) : ResourceSpec where
  cpuCores := cap.total.cpuCores - cap.allocated.cpuCores
  ramMb := cap.total.ramMb - cap.allocated.ramMb
  gpuCount := cap.total.gpuCount - cap.allocated.gpuCount

/-- The account after a request is granted. -/
def grant (req : ResourceSpec) (cap : NodeCapacity) : NodeCapacity :=
  { cap with
    allocated :=
      { cap.allocated with
        cpuCores := cap.allocated.cpuCores + req.cpuCores
        ramMb := cap.allocated.ramMb + req.ramMb
        gpuCount := cap.allocated.gpuCount + req.gpuCount } }

/-- The account after a request is given back; what would be negative is 0. -/
def giveBack (req : ResourceSpec) (cap : NodeCapacity) : NodeCapacity :=
  { cap with
    allocated :=
      { cap.allocated with
        cpuCores :=
          if cap.allocated.cpuCores > req.cpuCores then cap.allocated.cpuCores - req.cpuCores else 0
        ramMb := if cap.allocated.ramMb > req.ramMb then cap.allocated.ramMb - req.ramMb else 0
        gpuCount :=
          if cap.allocated.gpuCount > req.gpuCount then cap.allocated.gpuCount - req.gpuCount
          else 0 } }

end NodeCapacity

/-- `ResourceManager`: the accounts of the nodes. -/
structure ResourceManager where
  /-- `capacities_`. -/
  capacities : Table String NodeCapacity := ∅

/-- The methods of the resource manager as operations. -/
inductive ResourceOp where
  | setNodeCapacity (nodeId : String) (total : ResourceSpec)
  | allocate (nodeId : String) (req : ResourceSpec)
  | deallocate (nodeId : String) (req : ResourceSpec)
  | getAvailable (nodeId : String)
  | canAccommodate (nodeId : String) (req : ResourceSpec)
  deriving DecidableEq

/-- What the methods return. -/
@[reducible] def ResourceOp.Res : ResourceOp → Type
  | .setNodeCapacity .. | .deallocate .. => Unit
  | .allocate .. | .canAccommodate .. => Bool
  | .getAvailable _ => ResourceSpec

namespace ResourceManager

/-! ### The methods -/

/-- `set_node_capacity`; the allocation is kept. -/
def setNodeCapacity (nodeId : String) (total : ResourceSpec) (m : ResourceManager) :
    ResourceManager :=
  let cap := (m.capacities.lookup nodeId).getD {}
  { m with capacities := m.capacities.insert nodeId { cap with total := total } }

/-- `allocate`. -/
def allocate (nodeId : String) (req : ResourceSpec) (m : ResourceManager) :
    Bool × ResourceManager :=
  match m.capacities.lookup nodeId with
  | none => (false, m)
  | some cap =>
    if fits req cap.free then
      (true, { m with capacities := m.capacities.insert nodeId (cap.grant req) })
    else (false, m)

/-- `deallocate`. -/
def deallocate (nodeId : String) (req : ResourceSpec) (m : ResourceManager) : ResourceManager :=
  match m.capacities.lookup nodeId with
  | none => m
  | some cap => { m with capacities := m.capacities.insert nodeId (cap.giveBack req) }

/-- `get_available`. -/
def getAvailable (nodeId : String) (m : ResourceManager) : ResourceSpec :=
  match m.capacities.lookup nodeId with
  | none => {}
  | some cap => cap.free

/-- `can_accommodate`. -/
def canAccommodate (nodeId : String) (req : ResourceSpec) (m : ResourceManager) : Bool :=
  match m.capacities.lookup nodeId with
  | none => false
  | some cap => fits req cap.free

/-- The meaning of the operations. -/
def exec : (op : ResourceOp) → ResourceManager → op.Res × ResourceManager
  | .setNodeCapacity nodeId total, m => ((), m.setNodeCapacity nodeId total)
  | .allocate nodeId req, m => m.allocate nodeId req
  | .deallocate nodeId req, m => ((), m.deallocate nodeId req)
  | .getAvailable nodeId, m => (m.getAvailable nodeId, m)
  | .canAccommodate nodeId req, m => (m.canAccommodate nodeId req, m)

/-- The state after a sequence of calls. -/
def run (ops : List ResourceOp) (m : ResourceManager) : ResourceManager :=
  ops.foldl (fun m op => (m.exec op).2) m

theorem run_concat (ops : List ResourceOp) (op : ResourceOp) (m : ResourceManager) :
    run (ops ++ [op]) m = ((run ops m).exec op).2 := by
  simp [run]

end ResourceManager

/-! ### One account -/

namespace NodeCapacity

variable {cap : NodeCapacity} {req : ResourceSpec}

/-- No more is allocated than there is. -/
def Bounded (cap : NodeCapacity) : Prop := fits cap.allocated cap.total = true

/-- **What is free is the true difference** in a bounded account. -/
theorem Bounded.amount_free (h : cap.Bounded) (d : Dimension) :
    cap.free.amount d + cap.allocated.amount d = cap.total.amount d := by
  have hsub := amount_deduct h d
  cases d <;> exact hsub

/-- **What is granted is added exactly** in a bounded account. -/
theorem Bounded.amount_grant (h : cap.Bounded) (hreq : fits req cap.free = true) (d : Dimension) :
    (cap.grant req).allocated.amount d = cap.allocated.amount d + req.amount d := by
  have hfree := h.amount_free d
  have hle := fits_iff.mp hreq d
  cases d with
  | cpu =>
    have hlt := cap.total.cpuCores.toNat_lt
    simp only [ResourceSpec.amount] at hfree hle
    simp only [ResourceSpec.amount, grant, UInt32.toNat_add]
    exact Nat.mod_eq_of_lt (by omega)
  | ram =>
    have hlt := cap.total.ramMb.toNat_lt
    simp only [ResourceSpec.amount] at hfree hle
    simp only [ResourceSpec.amount, grant, UInt64.toNat_add]
    exact Nat.mod_eq_of_lt (by omega)
  | gpu =>
    have hlt := cap.total.gpuCount.toNat_lt
    simp only [ResourceSpec.amount] at hfree hle
    simp only [ResourceSpec.amount, grant, UInt32.toNat_add]
    exact Nat.mod_eq_of_lt (by omega)

/-- A request that is granted fits in what is really free. -/
theorem Bounded.fits_free_iff (h : cap.Bounded) :
    fits req cap.free = true ↔
      ∀ d, cap.allocated.amount d + req.amount d ≤ cap.total.amount d := by
  rw [fits_iff]
  refine forall_congr' fun d => ?_
  have hfree := h.amount_free d
  constructor
  · intro hle
    omega
  · intro hle
    omega

theorem Bounded.grant (h : cap.Bounded) (hreq : fits req cap.free = true) :
    (cap.grant req).Bounded := by
  refine fits_iff.mpr fun d => ?_
  rw [h.amount_grant hreq d]
  exact h.fits_free_iff.mp hreq d

/-- A difference that is 0 where it would be negative is that of the natural numbers. -/
theorem toNat_sub_or_zero {w : ℕ} (a b : BitVec w) :
    (if b < a then a - b else 0#w).toNat = a.toNat - b.toNat := by
  split
  · rename_i hlt
    rw [BitVec.toNat_sub_of_le (BitVec.le_of_lt hlt)]
  · rename_i hnot
    have hle : a.toNat ≤ b.toNat := BitVec.not_lt.mp hnot
    rw [Nat.sub_eq_zero_of_le hle]
    exact BitVec.toNat_zero

/-- **What is given back is subtracted**, down to zero. -/
theorem amount_giveBack (cap : NodeCapacity) (req : ResourceSpec) (d : Dimension) :
    (cap.giveBack req).allocated.amount d = cap.allocated.amount d - req.amount d := by
  cases d with
  | cpu =>
    exact (congrArg BitVec.toNat (apply_ite UInt32.toBitVec _ _ _)).trans
      (toNat_sub_or_zero cap.allocated.cpuCores.toBitVec req.cpuCores.toBitVec)
  | ram =>
    exact (congrArg BitVec.toNat (apply_ite UInt64.toBitVec _ _ _)).trans
      (toNat_sub_or_zero cap.allocated.ramMb.toBitVec req.ramMb.toBitVec)
  | gpu =>
    exact (congrArg BitVec.toNat (apply_ite UInt32.toBitVec _ _ _)).trans
      (toNat_sub_or_zero cap.allocated.gpuCount.toBitVec req.gpuCount.toBitVec)

theorem Bounded.giveBack (h : cap.Bounded) (req : ResourceSpec) : (cap.giveBack req).Bounded :=
  fits_iff.mpr fun d => by
    rw [amount_giveBack]
    exact (Nat.sub_le _ _).trans (fits_iff.mp h d)

end NodeCapacity

namespace ResourceManager

/-! ### All accounts -/

variable {m : ResourceManager}

/-- All accounts are bounded. -/
def Bounded (m : ResourceManager) : Prop :=
  ∀ n cap, m.capacities.lookup n = some cap → cap.Bounded

/-- **The accounts are sound**: no more is allocated than there is, what is reported as
available is the true difference, and a request is granted just when it fits in what is
really free. -/
structure Sound (m : ResourceManager) : Prop where
  allocated_le : ∀ n cap, m.capacities.lookup n = some cap →
    ∀ d, cap.allocated.amount d ≤ cap.total.amount d
  available : ∀ n cap, m.capacities.lookup n = some cap →
    ∀ d, (m.getAvailable n).amount d + cap.allocated.amount d = cap.total.amount d
  allocate_iff : ∀ n cap req, m.capacities.lookup n = some cap →
    ((m.allocate n req).1 = true ↔
      ∀ d, cap.allocated.amount d + req.amount d ≤ cap.total.amount d)
  accommodate_iff : ∀ n cap req, m.capacities.lookup n = some cap →
    (m.canAccommodate n req = true ↔
      ∀ d, cap.allocated.amount d + req.amount d ≤ cap.total.amount d)

/-- Accounts are sound just when they are bounded. -/
theorem sound_iff_bounded : Sound m ↔ Bounded m := by
  constructor
  · intro h n cap hn
    exact fits_iff.mpr (h.allocated_le n cap hn)
  · intro h
    refine ⟨fun n cap hn => fits_iff.mp (h n cap hn), fun n cap hn d => ?_,
      fun n cap req hn => ?_, fun n cap req hn => ?_⟩
    · rw [getAvailable, hn]
      exact (h n cap hn).amount_free d
    · rw [← (h n cap hn).fits_free_iff, allocate, hn]
      dsimp only
      split
      · rename_i hreq
        exact iff_of_true rfl hreq
      · rename_i hreq
        exact iff_of_false Bool.false_ne_true hreq
    · rw [← (h n cap hn).fits_free_iff, canAccommodate, hn]

/-- A new capacity does not go below what is allocated. -/
def roomFor (m : ResourceManager) : ResourceOp → Prop
  | .setNodeCapacity nodeId total =>
    ∀ cap, m.capacities.lookup nodeId = some cap → fits cap.allocated total = true
  | _ => True

/-- An account that is replaced by a bounded one. -/
theorem Bounded.insert (h : Bounded m) (nodeId : String) {cap : NodeCapacity} (hcap : cap.Bounded) :
    Bounded { m with capacities := m.capacities.insert nodeId cap } := by
  intro n cap' hn
  rw [Table.lookup_insert] at hn
  split at hn
  · obtain rfl := Option.some.inj hn
    exact hcap
  · exact h n cap' hn

/-- **One call**: bounded accounts stay bounded just when a new capacity does not go
below what is allocated. -/
theorem bounded_exec_iff (h : Bounded m) (op : ResourceOp) :
    Bounded (m.exec op).2 ↔ m.roomFor op := by
  cases op with
  | setNodeCapacity nodeId total =>
    have hnew : (m.setNodeCapacity nodeId total).capacities.lookup nodeId =
        some { (m.capacities.lookup nodeId).getD {} with total := total } :=
      AList.lookup_insert _
    constructor
    · -- the account of the node keeps its allocation, and has the new total
      intro hb cap hcap
      have hnode := hb nodeId _ hnew
      rw [hcap] at hnode
      exact hnode
    · intro hroom
      refine h.insert nodeId ?_
      cases hl : m.capacities.lookup nodeId with
      | none => exact fits_iff.mpr fun d => by cases d <;> exact Nat.zero_le _
      | some cap => exact hroom cap hl
  | allocate nodeId req =>
    refine iff_of_true ?_ trivial
    simp only [exec, allocate]
    cases hl : m.capacities.lookup nodeId with
    | none => exact h
    | some cap =>
      dsimp only
      split
      · rename_i hreq
        exact h.insert nodeId ((h nodeId cap hl).grant hreq)
      · exact h
  | deallocate nodeId req =>
    refine iff_of_true ?_ trivial
    simp only [exec, deallocate]
    cases hl : m.capacities.lookup nodeId with
    | none => exact h
    | some cap => exact h.insert nodeId ((h nodeId cap hl).giveBack req)
  | getAvailable nodeId => exact iff_of_true h trivial
  | canAccommodate nodeId req => exact iff_of_true h trivial

/-- **The accounts are sound in every state of a run** just when no call in it sets the
capacity of a node below what is allocated on the node at that time. -/
theorem sound_iff (ops : List ResourceOp) :
    (∀ before, before <+: ops → Sound (run before {})) ↔
      ∀ before op, before ++ [op] <+: ops → (run before {}).roomFor op := by
  constructor
  · intro h before op hop
    have hbefore := sound_iff_bounded.mp (h before ((List.prefix_append _ _).trans hop))
    have hafter := sound_iff_bounded.mp (h _ hop)
    rw [run_concat] at hafter
    exact (bounded_exec_iff hbefore op).mp hafter
  · intro h before
    induction before using List.reverseRecOn with
    | nil =>
      intro _
      refine sound_iff_bounded.mpr fun n cap hn => ?_
      cases hn
    | append_singleton before op ih =>
      intro hop
      have hbefore := sound_iff_bounded.mp (ih ((List.prefix_append _ _).trans hop))
      rw [run_concat, sound_iff_bounded]
      exact (bounded_exec_iff hbefore op).mpr (h before op hop)

/-- **A full node with room again**: four cores are allocated, the capacity is set to two,
and the node reports 2^32 - 2 free cores and grants them. -/
theorem capacity_below_allocation :
    let ops : List ResourceOp :=
      [.setNodeCapacity "node-00000000" { cpuCores := 4 },
        .allocate "node-00000000" { cpuCores := 4 },
        .setNodeCapacity "node-00000000" { cpuCores := 2 }]
    ¬ Sound (run ops {}) ∧
      (run ops {}).getAvailable "node-00000000" = { cpuCores := 4294967294 } ∧
      ((run ops {}).allocate "node-00000000" { cpuCores := 4294967294 }).1 = true := by
  refine ⟨fun h => ?_, by decide, by decide⟩
  have hle := h.allocated_le "node-00000000" ⟨{ cpuCores := 2 }, { cpuCores := 4 }⟩ (by decide) .cpu
  exact absurd hle (by decide)

end ResourceManager

end CertOS
