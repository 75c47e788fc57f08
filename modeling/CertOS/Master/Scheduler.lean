import CertOS.Master.Operations
import CertOS.Resources

/-!
# One pass of the scheduler

`SchedulerEngine::schedule_pass` takes a snapshot of the queued jobs, sorts it,
takes a snapshot of the online nodes, and then walks the jobs once: each job
goes to the first node of the snapshot with room for it, and the room is
deducted from the snapshot (`CertOS.place`). Only the new status of the job is
written back to the master; the deduction stays in the pass.

The sort is by effective priority, in floating point, with ties broken by the
time of submission; here it is any rearrangement of the snapshot, and what is
proved about the pass holds for every one.
-/

namespace CertOS

open Interleave

/-- A node of the snapshot after a job was placed on it. -/
def takeFrom (req : ResourceSpec) (node : NodeInfo) : NodeInfo :=
  { node with availableResources := deduct req node.availableResources }

/-- The inner loop: the first node of the snapshot with room for the request,
and the snapshot after the deduction. -/
def place (req : ResourceSpec) : List NodeInfo → Option (NodeInfo × List NodeInfo)
  | [] => none
  | node :: nodes =>
    if fits req node.availableResources then some (node, takeFrom req node :: nodes)
    else (place req nodes).map fun r => (r.1, node :: r.2)

/-- The outer loop: place one job after the other, and write the assignments. -/
def assignAll : List JobInfo → List NodeInfo → MasterProg Unit
  | [], _ => return ()
  | job :: jobs, nodes =>
    match place job.spec.resources nodes with
    | some r => do
      let _ ← Call.updateJobStatus job.jobId .assigned r.1.nodeId
      assignAll jobs r.2
    | none => assignAll jobs nodes

/-- The nodes of a snapshot that are online. -/
def onlineNodes (nodes : List NodeInfo) : List NodeInfo :=
  nodes.filter fun node => node.status = .online

/-- `schedule_pass`, with what `std::sort` made of the snapshot. -/
def schedulePass (sort : Reorder JobInfo) : MasterProg Unit := do
  let pendingJobs ← Call.getPendingJobs
  if pendingJobs = [] then
    return ()
  else
    let _ ← Call.applyDecay
    let nodes ← Call.getAllNodes
    if onlineNodes nodes = [] then
      return ()
    else
      assignAll (sort pendingJobs) (onlineNodes nodes)

/-- The walk of a pass over its two snapshots. -/
def passWalk (sort : Reorder JobInfo) (jobs : List JobInfo) (nodes : List NodeInfo) :
    MasterProg Unit :=
  if onlineNodes nodes = [] then .ret () else assignAll (sort jobs) (onlineNodes nodes)

theorem schedulePass_eq (sort : Reorder JobInfo) :
    schedulePass sort = .call (.job (.listJobs .queued)) fun jobs =>
      if jobs = [] then .ret ()
      else .call .applyDecay fun _ => .call (.node .getAllNodes) (passWalk sort jobs) := rfl

/-! ### Where the jobs go -/

/-- **Where a job goes**: the chosen node is in the snapshot and has room, and
only its entry changes. -/
theorem place_eq_some {req : ResourceSpec} {nodes : List NodeInfo} {r : NodeInfo × List NodeInfo}
    (h : place req nodes = some r) :
    ∃ before after, nodes = before ++ r.1 :: after ∧ r.2 = before ++ takeFrom req r.1 :: after ∧
      fits req r.1.availableResources = true := by
  induction nodes generalizing r with
  | nil => simp [place] at h
  | cons node nodes ih =>
    simp only [place] at h
    split at h
    · rename_i hf
      obtain rfl : (node, takeFrom req node :: nodes) = r := by simpa using h
      exact ⟨[], nodes, rfl, rfl, hf⟩
    · obtain ⟨r', hr', rfl⟩ := Option.map_eq_some_iff.mp h
      obtain ⟨before, after, hn, hr, hf⟩ := ih hr'
      exact ⟨node :: before, after, by simp [hn], by simp [hr], hf⟩

/-- The nodes of the snapshot stay what they are. -/
theorem nodeIds_of_place {req : ResourceSpec} {nodes : List NodeInfo}
    {r : NodeInfo × List NodeInfo} (h : place req nodes = some r) :
    r.2.map NodeInfo.nodeId = nodes.map NodeInfo.nodeId := by
  obtain ⟨before, after, rfl, hr, -⟩ := place_eq_some h
  simp [hr, takeFrom]

/-- The operation assigns one of the jobs to one of the nodes. -/
def AssignsOne (jobs : List JobInfo) (ids : List String) (op : MasterOp) : Prop :=
  ∃ job ∈ jobs, ∃ n ∈ ids, op = .job (.updateJobStatus job.jobId .assigned n)

/-- **All that the outer loop writes** are assignments of jobs of the list to nodes of
the snapshot. -/
theorem only_assignsOne (jobs : List JobInfo) (nodes : List NodeInfo) :
    (assignAll jobs nodes).Only (AssignsOne jobs (nodes.map NodeInfo.nodeId)) := by
  induction jobs generalizing nodes with
  | nil => trivial
  | cons job jobs ih =>
    have hmono (op : MasterOp) (h : AssignsOne jobs (nodes.map NodeInfo.nodeId) op) :
        AssignsOne (job :: jobs) (nodes.map NodeInfo.nodeId) op := by
      obtain ⟨job', hjob', n, hn, hop⟩ := h
      exact ⟨job', List.mem_cons_of_mem _ hjob', n, hn, hop⟩
    rw [assignAll]
    split
    · rename_i r hp
      have hids := nodeIds_of_place hp
      obtain ⟨before, after, hnodes, -, -⟩ := place_eq_some hp
      have hmem : r.1.nodeId ∈ nodes.map NodeInfo.nodeId :=
        List.mem_map_of_mem (by simp [hnodes])
      refine .op_bind ⟨job, List.mem_cons_self, r.1.nodeId, hmem, rfl⟩ fun _ => ?_
      exact (hids ▸ ih r.2).mono hmono
    · exact (ih nodes).mono hmono

/-- What is left of the outer loop is either nothing or an assignment of a job
of the list to a node of the snapshot with room, and the loop on a later part
of the list. -/
theorem assignAll_cases : ∀ (jobs : List JobInfo) (nodes : List NodeInfo),
    assignAll jobs nodes = .ret () ∨
      ∃ job jobs' r, job ∈ jobs ∧ (∀ j ∈ jobs', j ∈ jobs) ∧
        place job.spec.resources nodes = some r ∧
        assignAll jobs nodes =
          .call (.job (.updateJobStatus job.jobId .assigned r.1.nodeId)) fun _ =>
            assignAll jobs' r.2
  | [], _ => Or.inl rfl
  | job :: jobs, nodes => by
    cases hp : place job.spec.resources nodes with
    | none =>
      have hskip : assignAll (job :: jobs) nodes = assignAll jobs nodes := by
        rw [assignAll, hp]
      rw [hskip]
      rcases assignAll_cases jobs nodes with h | ⟨j, jobs', r, hj, hjs, hr, h⟩
      · exact Or.inl h
      · exact Or.inr ⟨j, jobs', r, List.mem_cons_of_mem _ hj,
          fun x hx => List.mem_cons_of_mem _ (hjs x hx), hr, h⟩
    | some r =>
      refine Or.inr
        ⟨job, jobs, r, List.mem_cons_self, fun x hx => List.mem_cons_of_mem _ hx, hp, ?_⟩
      rw [assignAll, hp]
      rfl

end CertOS
