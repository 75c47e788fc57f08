import CertOS.FirstFit
import CertOS.Master.Scheduler

/-!
# What one pass decides

The two loops of `schedule_pass` are first fit (`CertOS.FirstFit`) with the jobs of
the sorted snapshot as items and the online nodes of the other snapshot as bins. The
only effect of the loops is to write the assignments, in the order of the jobs:
`CertOS.assignAll_eq` is the outer loop with the decisions taken out.

Since every deduction is exact, what the jobs of a node ask for and what is left of
the node add up to what it had (`CertOS.pass_within_capacity`), and since a node only
gets smaller, the pass respects the order of the jobs and leaves no room unused
(`CertOS.pass_respects_order`).
-/

namespace CertOS

open Interleave

/-! ### The decisions -/

/-- Whether a job fits on a node of the snapshot. -/
def jobFits (job : JobInfo) (node : NodeInfo) : Bool :=
  fits job.spec.resources node.availableResources

/-- The node of the snapshot after it was given a job. -/
def takeJob (job : JobInfo) (node : NodeInfo) : NodeInfo := takeFrom job.spec.resources node

/-- For each job the place in the snapshot of the node it is assigned to. -/
def passChoices (jobs : List JobInfo) (nodes : List NodeInfo) : List (Option ℕ) :=
  FirstFit.choices jobFits takeJob jobs nodes

/-- The snapshot of the nodes after the pass. -/
def passLeft (jobs : List JobInfo) (nodes : List NodeInfo) : List NodeInfo :=
  FirstFit.left jobFits takeJob jobs nodes

/-- The jobs given to the node at place `i`. -/
def passGiven (i : ℕ) (jobs : List JobInfo) (nodes : List NodeInfo) : List JobInfo :=
  FirstFit.given jobFits takeJob i jobs nodes

/-- The assignments the pass writes: the identifiers of job and node. -/
def passWrites (jobs : List JobInfo) (nodes : List NodeInfo) : List (String × String) :=
  (jobs.zip (passChoices jobs nodes)).filterMap fun p =>
    p.2.bind fun i => nodes[i]?.map fun node => (p.1.jobId, node.nodeId)

/-- The writes of a pass, one after the other. -/
def writeAll : List (String × String) → MasterProg Unit
  | [] => return ()
  | (jobId, nodeId) :: ws => do
    let _ ← Call.updateJobStatus jobId .assigned nodeId
    writeAll ws

/-! ### The loops -/

/-- The inner loop finds the first node with room and deducts the request there. -/
theorem place_eq (job : JobInfo) (nodes : List NodeInfo) :
    place job.spec.resources nodes =
      (nodes.findIdx? (jobFits job)).bind fun i =>
        nodes[i]?.map fun node => (node, nodes.modify i (takeJob job)) := by
  induction nodes with
  | nil => rfl
  | cons node nodes ih =>
    rw [place, List.findIdx?_cons]
    by_cases hf : fits job.spec.resources node.availableResources = true
    · have hf' : jobFits job node = true := hf
      rw [if_pos hf, if_pos hf']
      rfl
    · have hf' : ¬ jobFits job node = true := hf
      rw [if_neg hf, if_neg hf', ih]
      cases nodes.findIdx? (jobFits job) with
      | none => rfl
      | some i =>
        simp only [Option.bind_some, Option.map_some, List.getElem?_cons_succ, Option.map_map]
        rfl

@[simp] theorem takeJob_nodeId (job : JobInfo) (node : NodeInfo) :
    (takeJob job node).nodeId = node.nodeId := rfl

/-- The writes of a pass: that for the first job, and those for the other jobs on
what is left of the nodes. -/
theorem passWrites_cons (job : JobInfo) (jobs : List JobInfo) (nodes : List NodeInfo) :
    passWrites (job :: jobs) nodes =
      ((nodes.findIdx? (jobFits job)).bind fun i =>
        nodes[i]?.map fun node => (job.jobId, node.nodeId)).toList ++
      passWrites jobs (FirstFit.put jobFits takeJob job nodes) := by
  have hids : (FirstFit.put jobFits takeJob job nodes).map NodeInfo.nodeId =
      nodes.map NodeInfo.nodeId := FirstFit.map_put takeJob_nodeId job nodes
  have hnode (jobId : String) (i : ℕ) :
      (nodes[i]?.map fun node => (jobId, node.nodeId)) =
        (FirstFit.put jobFits takeJob job nodes)[i]?.map fun node => (jobId, node.nodeId) := by
    have h := congrArg (fun ids => ids[i]?.map fun id => (jobId, id)) hids
    simpa [Function.comp_def] using h.symm
  simp only [passWrites, passChoices, FirstFit.choices, List.zip_cons_cons, List.filterMap_cons,
    hnode]
  cases nodes.findIdx? (jobFits job) with
  | none => rfl
  | some i =>
    simp only [Option.bind_some]
    cases (FirstFit.put jobFits takeJob job nodes)[i]? <;> rfl

/-- **What the outer loop does for the first jobs** is to write its decisions in
their order; it goes on with the other jobs on what is left of the nodes. -/
theorem assignAll_append (jobs rest : List JobInfo) (nodes : List NodeInfo) :
    assignAll (jobs ++ rest) nodes =
      writeAll (passWrites jobs nodes) >>= fun _ => assignAll rest (passLeft jobs nodes) := by
  induction jobs generalizing nodes with
  | nil => rfl
  | cons job jobs ih =>
    rw [List.cons_append, assignAll, place_eq, passWrites_cons]
    cases hfind : nodes.findIdx? (jobFits job) with
    | none =>
      -- the job is passed over: nothing is written and nothing deducted
      have hput : FirstFit.put jobFits takeJob job nodes = nodes := by
        simp only [FirstFit.put, hfind]
      have hleft : passLeft (job :: jobs) nodes = passLeft jobs nodes := by
        rw [passLeft, FirstFit.left, hput, passLeft]
      rw [hput, hleft]
      exact ih nodes
    | some i =>
      obtain ⟨hlt, -, -⟩ := List.findIdx?_eq_some_iff_getElem.mp hfind
      have hput : FirstFit.put jobFits takeJob job nodes = nodes.modify i (takeJob job) := by
        simp only [FirstFit.put, hfind]
      have hleft : passLeft (job :: jobs) nodes = passLeft jobs (nodes.modify i (takeJob job)) := by
        rw [passLeft, FirstFit.left, hput, passLeft]
      rw [hput, hleft]
      simp only [Option.bind_some, List.getElem?_eq_getElem hlt, Option.map_some, ih]
      rfl

/-! ### Capacity -/

/-- A job is deducted exactly from the node it is put on. -/
theorem amount_takeJob {job : JobInfo} {node : NodeInfo} (h : jobFits job node = true)
    (d : Dimension) :
    (takeJob job node).availableResources.amount d + job.spec.resources.amount d =
      node.availableResources.amount d :=
  amount_deduct h d

/-- **A pass stays within the capacity.** Whatever the jobs, their order and the
availabilities in the snapshot are, the pass decides once about every job, every node
it chooses is in the snapshot and online, and at every moment of the pass what a node
was given so far and what is left of it are exactly what it had, in each of the three
resources. -/
theorem pass_within_capacity (jobs : List JobInfo) (nodes : List NodeInfo) :
    (passChoices jobs (onlineNodes nodes)).length = jobs.length ∧
      (∀ i, some i ∈ passChoices jobs (onlineNodes nodes) →
        ∃ node ∈ nodes, (onlineNodes nodes)[i]? = some node ∧ node.status = .online) ∧
      ∀ k, (assignAll jobs (onlineNodes nodes) =
          writeAll (passWrites (jobs.take k) (onlineNodes nodes)) >>= fun _ =>
            assignAll (jobs.drop k) (passLeft (jobs.take k) (onlineNodes nodes))) ∧
        passChoices (jobs.take k) (onlineNodes nodes) =
          (passChoices jobs (onlineNodes nodes)).take k ∧
        (passLeft (jobs.take k) (onlineNodes nodes)).length = (onlineNodes nodes).length ∧
        ∀ (i : ℕ) (node node' : NodeInfo), (onlineNodes nodes)[i]? = some node →
          (passLeft (jobs.take k) (onlineNodes nodes))[i]? = some node' →
          ∀ d, node'.availableResources.amount d +
            ((passGiven i (jobs.take k) (onlineNodes nodes)).map fun job =>
              job.spec.resources.amount d).sum = node.availableResources.amount d := by
  refine ⟨FirstFit.length_choices _ _, ?_, fun k => ⟨?_, ?_, ?_, ?_⟩⟩
  · intro i hi
    have hlt := FirstFit.lt_length_of_chosen hi
    obtain ⟨hmem, hon⟩ := List.mem_filter.mp (List.getElem_mem hlt)
    exact ⟨_, hmem, List.getElem?_eq_getElem hlt, of_decide_eq_true hon⟩
  · -- the pass after the first `k` jobs
    conv_lhs => rw [← List.take_append_drop k jobs]
    exact assignAll_append _ _ _
  · exact FirstFit.choices_take k jobs (onlineNodes nodes)
  · exact FirstFit.length_left _ _
  · intro i node node' hi hi' d
    exact FirstFit.left_add_given (μ := fun node => node.availableResources.amount d)
      (fun job node hf => amount_takeJob hf d) (jobs.take k) hi hi'

/-! ### Order -/

/-- A job that fits after a deduction has fitted before it. -/
theorem jobFits_of_takeJob (job other : JobInfo) (node : NodeInfo)
    (hother : jobFits other node = true) (h : jobFits job (takeJob other node) = true) :
    jobFits job node = true := by
  refine fits_iff.mpr fun d => ?_
  have hafter := fits_iff.mp h d
  have hsum := amount_takeJob hother d
  omega

/-- A job that asks for no more than another fits wherever that one does. -/
theorem jobFits_of_le {h l : JobInfo}
    (hle : ∀ d, h.spec.resources.amount d ≤ l.spec.resources.amount d) (node : NodeInfo)
    (hl : jobFits l node = true) : jobFits h node = true :=
  fits_iff.mpr fun d => (hle d).trans (fits_iff.mp hl d)

/-- **A pass respects the order of the jobs and conserves work.** If a job stands
before another one that asks for no less, and the later one is assigned, so is the
earlier one; and a job that is not assigned fits on none of the nodes as the pass
leaves them. -/
theorem pass_respects_order (jobs : List JobInfo) (nodes : List NodeInfo) :
    (∀ rest, assignAll (jobs ++ rest) (onlineNodes nodes) =
      writeAll (passWrites jobs (onlineNodes nodes)) >>= fun _ =>
        assignAll rest (passLeft jobs (onlineNodes nodes))) ∧
      (∀ (j k i : ℕ) (h l : JobInfo), j < k → jobs[j]? = some h → jobs[k]? = some l →
        (∀ d, h.spec.resources.amount d ≤ l.spec.resources.amount d) →
        (passChoices jobs (onlineNodes nodes))[k]? = some (some i) →
        ∃ i', (passChoices jobs (onlineNodes nodes))[j]? = some (some i')) ∧
      ∀ (k : ℕ) (job : JobInfo), jobs[k]? = some job →
        (passChoices jobs (onlineNodes nodes))[k]? = some none →
        ∀ node ∈ passLeft jobs (onlineNodes nodes),
          ∃ d, node.availableResources.amount d < job.spec.resources.amount d := by
  refine ⟨fun rest => assignAll_append jobs rest _, ?_, ?_⟩
  · intro j k i h l hjk hj hk hle hchosen
    exact FirstFit.chosen_of_le jobFits_of_takeJob (jobFits_of_le hle) jobs hjk hj hk hchosen
  · intro k job hk hleft node hnode
    have hnot := FirstFit.not_fits_of_left_out jobFits_of_takeJob jobs hk hleft node hnode
    by_contra hall
    push Not at hall
    have hfits : jobFits job node = true := fits_iff.mpr hall
    rw [hnot] at hfits
    cases hfits

end CertOS
