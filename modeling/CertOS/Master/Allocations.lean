import CertOS.Ledger
import CertOS.Master.ResourceManager

/-!
# The outstanding requests

The resource manager keeps one number for each resource of a node where there are really many
requests: `allocate` adds a request to it, `deallocate` subtracts one, at 0 if the result would
be negative, and both compute with a fixed width. Nothing remembers which requests were
granted; that is up to the callers.

If they give back only what they were granted and have not given back yet, and no capacity is
set below what is allocated, nothing is lost: the numbers are the sums of the outstanding
requests, and a request is granted just when it fits beside them
(`CertOS.ResourceManager.accounts_exact`).
-/

namespace CertOS

namespace ResourceManager

/-! ### What is outstanding -/

/-- What a call does to the outstanding requests, given what it returns. -/
def settle : (op : ResourceOp) → op.Res → Multiset (String × ResourceSpec) →
    Multiset (String × ResourceSpec)
  | .allocate nodeId req, granted, out => if granted then (nodeId, req) ::ₘ out else out
  | .deallocate nodeId req, _, out => out.erase (nodeId, req)
  | _, _, out => out

/-- The manager with the requests that are outstanding. -/
def settleAll (ops : List ResourceOp) : ResourceManager × Multiset (String × ResourceSpec) :=
  ops.foldl (fun s op => ((s.1.exec op).2, settle op (s.1.exec op).1 s.2)) ({}, 0)

/-- **The outstanding requests** after a sequence of calls: those that were granted and have
not been given back. -/
def outstanding (ops : List ResourceOp) : Multiset (String × ResourceSpec) := (settleAll ops).2

/-- How much of a resource of a node the outstanding requests ask for. -/
def asked (n : String) (d : Dimension) (out : Multiset (String × ResourceSpec)) : ℕ :=
  Ledger.share (fun req : ResourceSpec => req.amount d) n out

/-- The capacity that was set for a node last. -/
def capacitySet (n : String) (ops : List ResourceOp) : Option ResourceSpec :=
  ops.foldl (fun c op => match op with
    | .setNodeCapacity nodeId total => if n = nodeId then some total else c
    | _ => c) none

/-- **A call as it should be**: no capacity is set below what is allocated, and nothing is
given back that is not outstanding. -/
def proper (m : ResourceManager) (out : Multiset (String × ResourceSpec)) : ResourceOp → Prop
  | .setNodeCapacity nodeId total =>
    ∀ cap, m.capacities.lookup nodeId = some cap → fits cap.allocated total = true
  | .deallocate nodeId req => (nodeId, req) ∈ out
  | _ => True

/-- What is allocated on a node; nothing, if the node is not known. -/
def allocatedOn (m : ResourceManager) (d : Dimension) (n : String) : ℕ :=
  ((m.capacities.lookup n).getD {}).allocated.amount d

/-- **The accounts are exact**: they are bounded, and the counters are the sums of the
outstanding requests. -/
structure Exact (m : ResourceManager) (out : Multiset (String × ResourceSpec)) : Prop where
  bounded : Bounded m
  tracks : ∀ d, Ledger.Tracks (fun req : ResourceSpec => req.amount d) out (m.allocatedOn d)

theorem settleAll_fst (ops : List ResourceOp) : (settleAll ops).1 = run ops {} := by
  induction ops using List.reverseRecOn with
  | nil => rfl
  | append_singleton ops op ih =>
    rw [run_concat, ← ih]
    simp [settleAll]

theorem outstanding_concat (ops : List ResourceOp) (op : ResourceOp) :
    outstanding (ops ++ [op]) = settle op ((run ops {}).exec op).1 (outstanding ops) := by
  rw [← settleAll_fst]
  simp [outstanding, settleAll]

variable {m : ResourceManager} {out : Multiset (String × ResourceSpec)}

/-- An account that is replaced, as the counters see it. -/
theorem allocatedOn_insert (n k : String) (cap : NodeCapacity) (d : Dimension) :
    allocatedOn { m with capacities := m.capacities.insert k cap } d n =
      if n = k then cap.allocated.amount d else m.allocatedOn d n := by
  rw [allocatedOn, Table.lookup_insert]
  split
  · rfl
  · rfl

/-- **One call** as it should be keeps the accounts exact. -/
theorem Exact.exec (h : Exact m out) {op : ResourceOp} (hop : m.proper out op) :
    Exact (m.exec op).2 (settle op (m.exec op).1 out) := by
  have hroom : m.roomFor op := by
    cases op with
    | setNodeCapacity nodeId total => exact hop
    | _ => trivial
  refine ⟨(bounded_exec_iff h.bounded op).mpr hroom, fun d => ?_⟩
  cases op with
  | setNodeCapacity nodeId total =>
    -- the new account keeps the allocation of the old one
    intro n
    refine ((allocatedOn_insert n nodeId _ d).trans ?_).trans (h.tracks d n)
    split
    · rename_i hn
      rw [hn]
      rfl
    · rfl
  | allocate nodeId req =>
    simp only [ResourceManager.exec, allocate]
    cases hl : m.capacities.lookup nodeId with
    | none => exact h.tracks d
    | some cap =>
      dsimp only
      split
      · rename_i hreq
        have hcap : m.allocatedOn d nodeId = cap.allocated.amount d := by
          rw [allocatedOn, hl]
          rfl
        refine (h.tracks d).grant ?_ fun n hn => ?_
        · rw [allocatedOn_insert, if_pos rfl, (h.bounded nodeId cap hl).amount_grant hreq d, hcap]
          exact add_comm _ _
        · rw [allocatedOn_insert, if_neg hn]
      · exact h.tracks d
  | deallocate nodeId req =>
    have hle : req.amount d ≤ m.allocatedOn d nodeId := by
      have hshare := Ledger.share_erase (μ := fun req : ResourceSpec => req.amount d)
        (n := nodeId) hop
      rw [if_pos rfl, ← h.tracks d nodeId] at hshare
      omega
    simp only [ResourceManager.exec, deallocate, settle]
    cases hl : m.capacities.lookup nodeId with
    | none =>
      -- what is outstanding on a node that is not known asks for nothing
      have hzero : m.allocatedOn d nodeId = 0 := by
        rw [allocatedOn, hl]
        cases d <;> rfl
      refine (h.tracks d).release hop ?_ fun n _ => rfl
      dsimp only
      omega
    | some cap =>
      have hcap : m.allocatedOn d nodeId = cap.allocated.amount d := by
        rw [allocatedOn, hl]
        rfl
      refine (h.tracks d).release hop ?_ fun n hn => ?_
      · rw [allocatedOn_insert, if_pos rfl, NodeCapacity.amount_giveBack, hcap]
        exact Nat.add_sub_cancel' (hcap ▸ hle)
      · rw [allocatedOn_insert, if_neg hn]
  | getAvailable nodeId => exact h.tracks d
  | canAccommodate nodeId req => exact h.tracks d

/-- The capacity of a node is the one that was set last. -/
theorem total_run (n : String) (ops : List ResourceOp) :
    ((run ops {}).capacities.lookup n).map NodeCapacity.total = capacitySet n ops := by
  induction ops using List.reverseRecOn with
  | nil => rfl
  | append_singleton ops op ih =>
    have hset : capacitySet n (ops ++ [op]) = (match op with
        | .setNodeCapacity nodeId total => if n = nodeId then some total else capacitySet n ops
        | _ => capacitySet n ops) := by
      simp [capacitySet]
    rw [run_concat, hset, ← ih]
    generalize run ops {} = m
    -- a call that replaces an account by one with the same total
    have hsame {nodeId : String} {cap cap' : NodeCapacity}
        (hl : m.capacities.lookup nodeId = some cap) (ht : cap'.total = cap.total) :
        ((m.capacities.insert nodeId cap').lookup n).map NodeCapacity.total =
          (m.capacities.lookup n).map NodeCapacity.total := by
      rw [Table.lookup_insert]
      split
      · rename_i hn
        rw [hn, hl, Option.map_some, Option.map_some, ht]
      · rfl
    cases op with
    | setNodeCapacity nodeId total =>
      refine (congrArg (Option.map NodeCapacity.total) (Table.lookup_insert _ _ _ _)).trans ?_
      dsimp only
      split
      · rfl
      · rfl
    | allocate nodeId req =>
      simp only [exec, allocate]
      cases hl : m.capacities.lookup nodeId with
      | none => rfl
      | some cap =>
        dsimp only
        split
        · exact hsame hl rfl
        · rfl
    | deallocate nodeId req =>
      simp only [exec, deallocate]
      cases hl : m.capacities.lookup nodeId with
      | none => rfl
      | some cap => exact hsame hl rfl
    | getAvailable nodeId => rfl
    | canAccommodate nodeId req => rfl

/-- The accounts are exact after any sequence of calls as they should be. -/
theorem exact_run {ops : List ResourceOp}
    (h : ∀ before op, before ++ [op] <+: ops → (run before {}).proper (outstanding before) op) :
    Exact (run ops {}) (outstanding ops) := by
  induction ops using List.reverseRecOn with
  | nil =>
    refine ⟨fun n cap hn => ?_, fun d n => ?_⟩
    · cases hn
    · cases d <;> rfl
  | append_singleton ops op ih =>
    rw [run_concat, outstanding_concat]
    exact (ih fun before op' hb => h before op' (hb.trans (List.prefix_append _ _))).exec
      (h ops op List.prefix_rfl)

/-- **The allocation accounts are exact.** If no capacity is set below what is allocated, and
nothing is given back that is not outstanding, what is allocated on each node is the sum of the
outstanding requests, and a request is granted just when the capacity of the node has been set
and covers it beside that sum. -/
theorem accounts_exact {ops : List ResourceOp}
    (h : ∀ before op, before ++ [op] <+: ops → (run before {}).proper (outstanding before) op)
    (n : String) :
    (∀ cap, (run ops {}).capacities.lookup n = some cap →
      ∀ d, cap.allocated.amount d = asked n d (outstanding ops)) ∧
    ∀ req, ((run ops {}).allocate n req).1 = true ↔
      ∃ total, capacitySet n ops = some total ∧
        ∀ d, asked n d (outstanding ops) + req.amount d ≤ total.amount d := by
  have hexact := exact_run h
  have hsum (cap : NodeCapacity) (hl : (run ops {}).capacities.lookup n = some cap)
      (d : Dimension) : cap.allocated.amount d = asked n d (outstanding ops) := by
    have htracks := hexact.tracks d n
    rw [allocatedOn, hl] at htracks
    exact htracks
  refine ⟨hsum, fun req => ?_⟩
  rw [← total_run]
  cases hl : (run ops {}).capacities.lookup n with
  | none =>
    rw [allocate, hl]
    refine iff_of_false Bool.false_ne_true fun hset => ?_
    obtain ⟨total, htotal, -⟩ := hset
    cases htotal
  | some cap =>
    rw [(sound_iff_bounded.mpr hexact.bounded).allocate_iff n cap req hl]
    simp only [hsum cap hl, Option.map_some, Option.some.injEq, exists_eq_left']

/-- Two requests are granted, and the first one is given back. -/
def twoGrants : List ResourceOp :=
  [.setNodeCapacity "node-00000000" { cpuCores := 4 },
    .allocate "node-00000000" { cpuCores := 1 },
    .allocate "node-00000000" { cpuCores := 2 },
    .deallocate "node-00000000" { cpuCores := 1 }]

/-- The law at work: two of four cores are allocated, so two more are granted and not three. -/
theorem accounts_exact_twoGrants :
    asked "node-00000000" .cpu (outstanding twoGrants) = 2 ∧
      ((run twoGrants {}).allocate "node-00000000" { cpuCores := 2 }).1 = true ∧
      ((run twoGrants {}).allocate "node-00000000" { cpuCores := 3 }).1 = false := by
  have hproper : ∀ before op, before ++ [op] <+: twoGrants →
      (run before {}).proper (outstanding before) op := by
    rintro before op ⟨after, hops⟩
    rcases before with _ | ⟨a, _ | ⟨b, _ | ⟨c, _ | ⟨d, before⟩⟩⟩⟩
    · obtain ⟨rfl, -⟩ := List.cons.inj hops
      intro cap hcap
      cases hcap
    · simp only [twoGrants, List.cons_append, List.nil_append, List.cons.injEq] at hops
      obtain ⟨rfl, rfl, -⟩ := hops
      trivial
    · simp only [twoGrants, List.cons_append, List.nil_append, List.cons.injEq] at hops
      obtain ⟨rfl, rfl, rfl, -⟩ := hops
      trivial
    · simp only [twoGrants, List.cons_append, List.nil_append, List.cons.injEq] at hops
      obtain ⟨rfl, rfl, rfl, rfl, -⟩ := hops
      exact (by decide : ("node-00000000", ({ cpuCores := 1 } : ResourceSpec)) ∈
        outstanding (twoGrants.take 3))
    · have hlen := congrArg List.length hops
      simp [twoGrants] at hlen
  obtain ⟨-, hgrant⟩ := accounts_exact hproper "node-00000000"
  refine ⟨by decide, (hgrant _).mpr ⟨{ cpuCores := 4 }, by decide, fun d => ?_⟩, ?_⟩
  · cases d <;> decide
  · decide

end ResourceManager

end CertOS
