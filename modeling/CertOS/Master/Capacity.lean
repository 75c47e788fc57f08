import CertOS.Master.Server

/-!
# The capacity of a node

A node ought never to be promised to more jobs than it has room for:
`CertOS.committed`, the sum of what its assigned and running jobs ask for,
should stay below the resources it registered with.

The scheduler keeps that bound within one pass, by deducting every job it
places from its own snapshot of the nodes. Across passes it relies on the
registry: what the registry shows as available must already be reduced by what
earlier passes have placed. Nothing in the master reduces it. A registration
and a heartbeat copy what the agent says, and the agent says that its whole
machine is free.

`CertOS.upToDate` is the condition on which the scheduler relies, and
`CertOS.committed_le_total` the bound for the runs that meet it at every
snapshot. `CertOS.second_pass_overcommits` is a run that does not, in which two
jobs are given the same four cores.
-/

namespace CertOS

open Interleave

variable {Db Fs : Type} {P : Platform Db Fs}

/-! ### What the jobs hold -/

/-- What a job holds of a node. -/
def share (n : String) (d : Dimension) (info : JobInfo) : ℕ :=
  if holdsOn n info then info.spec.resources.amount d else 0

/-- What all jobs together hold of a node, as an unbounded number. -/
def committed (n : String) (d : Dimension) (s : MasterState Db Fs) : ℕ :=
  Table.total (share n d) s.jobMgr.jobs

/-- The node a status update leaves a job on. -/
def nodeAfter (nodeId : String) (info : JobInfo) : String :=
  if nodeId = "" then info.assignedNodeId else nodeId

theorem holdsOn_setStatus (n : String) (now : ℤ) (status : JobStatus) (nodeId : String)
    (info : JobInfo) :
    holdsOn n (JobManager.setStatus now status nodeId info) =
      (status.isActive && nodeAfter nodeId info = n) := by
  rw [holdsOn, JobManager.setStatus_status, JobManager.setStatus_assignedNodeId, nodeAfter]
  by_cases hn : nodeId = "" <;> cases status.isActive <;> simp [hn]

theorem share_of_not_holdsOn {n : String} {info : JobInfo} (h : holdsOn n info = false)
    (d : Dimension) : share n d info = 0 := by
  rw [share, h]
  rfl

theorem share_le {n : String} {info info' : JobInfo} (hs : info'.spec = info.spec)
    (h : holdsOn n info' = true → holdsOn n info = true) (d : Dimension) :
    share n d info' ≤ share n d info := by
  cases h' : holdsOn n info' with
  | false =>
    rw [share_of_not_holdsOn h']
    exact Nat.zero_le _
  | true => rw [share, share, h', h h', hs]

/-! ### The conditions -/

/-- **The node registers once**: no registration answers with a node that is
already there, and the node is not removed. -/
def registersOnce (n : String) (c : MasterConfig Db Fs) : MasterEvent → Bool
  | .did _ _ _ (.node (.registerNode _)) nodeId =>
    nodeId ≠ n || (c.state.nodeRegistry.nodes.lookup n).isNone
  | .did _ _ _ (.node (.unregisterNode nodeId)) _ => nodeId ≠ n
  | _ => true

/-- The three resources in a row. -/
def Dimension.all : List Dimension := [.cpu, .ram, .gpu]

theorem Dimension.mem_all (d : Dimension) : d ∈ Dimension.all := by cases d <;> decide

/-- **The registry is up to date**: when the scheduler takes its snapshot of the
nodes, an online node does not show more than its jobs leave over. -/
def upToDate (n : String) (c : MasterConfig Db Fs) : MasterEvent → Bool
  | .did _ (.schedulePass _) _ (.node .getAllNodes) _ =>
    match c.state.nodeRegistry.nodes.lookup n with
    | some info => info.status ≠ .online || Dimension.all.all fun d =>
        committed n d c.state + info.availableResources.amount d ≤ info.totalResources.amount d
    | none => true
  | _ => true

/-- **Reports are about what was placed**: an update from outside the scheduler
that leaves a job assigned to the node or running on it finds it so. -/
def reportsPlaced (n : String) (c : MasterConfig Db Fs) : MasterEvent → Bool
  | .did _ (.schedulePass _) _ _ _ => true
  | .did _ _ _ (.job (.updateJobStatus jobId status nodeId)) _ =>
    match c.state.jobMgr.jobs.lookup jobId with
    | some info => !(status.isActive && nodeAfter nodeId info = n) || holdsOn n info
    | none => true
  | _ => true

/-- The conditions together, with the wiring of the server. -/
def capacityKept (n : String) (c : MasterConfig Db Fs) (ev : MasterEvent) : Bool :=
  wired c ev && freshJobId c ev && registersOnce n c ev && upToDate n c ev && reportsPlaced n c ev

theorem capacityKept_iff {n : String} {c : MasterConfig Db Fs} {ev : MasterEvent} :
    capacityKept n c ev = true ↔ wired c ev = true ∧ freshJobId c ev = true ∧
      registersOnce n c ev = true ∧ upToDate n c ev = true ∧ reportsPlaced n c ev = true := by
  simp [capacityKept, and_assoc]

/-! ### Steps that place nothing on the node -/

/-- What every step keeps: the specification of each job, and the size of the
node. -/
structure Kept (n : String) (s s' : MasterState Db Fs) : Prop where
  specs : ∀ j info, s.jobMgr.jobs.lookup j = some info →
    ∃ info', s'.jobMgr.jobs.lookup j = some info' ∧ info'.spec = info.spec
  totals : ∀ info, s.nodeRegistry.nodes.lookup n = some info →
    ∃ info', s'.nodeRegistry.nodes.lookup n = some info' ∧
      info'.totalResources = info.totalResources

theorem Kept.of_step {n : String} {c : MasterConfig Db Fs} {i : ℕ} {t : Task} {e : Env}
    {op : MasterOp} (hf : freshJobId c (.did i t e op (c.state.exec P e op).1) = true)
    (hr : registersOnce n c (.did i t e op (c.state.exec P e op).1) = true) :
    Kept n c.state (c.state.exec P e op).2 where
  specs j info hj := by
    rcases lookup_of_freshJobId hf hj with h | ⟨o, rfl, -, h⟩
    · exact ⟨info, h, rfl⟩
    · exact ⟨_, h, (JobManager.touch_keeps e.now o j info).2⟩
  totals info hn := by
    by_cases ho : ∃ o, op = .node o
    · obtain ⟨o, rfl⟩ := ho
      refine NodeRegistry.exec_keeps_total hn ?_ ?_
      · rintro i rfl
        rcases (Bool.or_eq_true _ _).mp hr with h | h
        · exact of_decide_eq_true h
        · rw [hn] at h
          cases h
      · rintro rfl
        simp [registersOnce] at hr
    · rw [MasterState.exec_nodeRegistry P e c.state fun o h => ho ⟨o, h⟩]
      exact ⟨info, hn, rfl⟩

/-- A sweep raises no share, unless it is an update that puts the job on the
node. -/
theorem share_touch_le {n : String} {now : ℤ} {o : JobOp} {j : String} {info : JobInfo}
    (hu : ∀ status nodeId, o = .updateJobStatus j status nodeId → status.isActive = true →
      nodeAfter nodeId info = n → holdsOn n info = true) (d : Dimension) :
    share n d (o.touch now j info) ≤ share n d info := by
  refine share_le (JobManager.touch_keeps now o j info).2 (fun h => ?_) d
  cases o with
  | updateJobStatus jobId status nodeId =>
    rw [JobOp.touch] at h
    split at h
    · rename_i hj
      subst hj
      rw [holdsOn_setStatus] at h
      obtain ⟨hs, hn⟩ : status.isActive = true ∧ nodeAfter nodeId info = n := by simpa using h
      exact hu status nodeId rfl hs hn
    · exact h
  | failJobsOnNode nodeId =>
    rw [JobOp.touch, JobManager.failOnNode] at h
    split at h
    · simp [holdsOn, JobStatus.isActive] at h
    · exact h
  | cancelJob jobId =>
    rw [JobOp.touch] at h
    split at h
    · rw [JobManager.cancel] at h
      split at h
      · exact h
      · simp [holdsOn, JobStatus.isActive] at h
    · exact h
  | _ => exact h

/-- **A step of a client or an agent places nothing**: unless an update puts a
job on the node that was not there, the sum does not grow. -/
theorem committed_exec_le {n : String} {c : MasterConfig Db Fs} {i : ℕ} {t : Task} {e : Env}
    {op : MasterOp} (hf : freshJobId c (.did i t e op (c.state.exec P e op).1) = true)
    (hu : ∀ j status nodeId info, op = .job (.updateJobStatus j status nodeId) →
      c.state.jobMgr.jobs.lookup j = some info → status.isActive = true →
      nodeAfter nodeId info = n → holdsOn n info = true) (d : Dimension) :
    committed n d (c.state.exec P e op).2 ≤ committed n d c.state := by
  by_cases ho : ∃ o, op = .job o
  · obtain ⟨o, rfl⟩ := ho
    cases hs : o.isSubmit with
    | false =>
      have hjobs := JobManager.exec_jobs P.store e c.state.jobMgr hs
      rw [committed, MasterState.exec_job, hjobs]
      refine Table.total_mapValues_le fun j info hj => share_touch_le (fun status nodeId h => ?_) d
      exact hu j status nodeId info (congrArg MasterOp.job h) hj
    | true =>
      cases o with
      | submitJob spec userId username =>
        -- the new record is queued, so it holds nothing
        have hnone : (c.state.jobMgr.jobs.lookup (shortId "job-" e.uuid)).isNone = true := hf
        rw [committed, MasterState.exec_job, JobManager.exec_submitJob_jobs,
          Table.total_insert (by simpa using hnone), share_of_not_holdsOn rfl, Nat.zero_add]
        exact le_rfl
      | _ => cases hs
  · rw [committed, MasterState.exec_jobMgr P e c.state fun o h => ho ⟨o, h⟩]
    exact le_rfl

/-- **An assignment adds what the job asks for** to the node it names, and
nothing to any other. -/
theorem committed_assign_le {n m : String} {e : Env} {s : MasterState Db Fs} {job info : JobInfo}
    (hm : m ≠ "") (hj : s.jobMgr.jobs.lookup job.jobId = some info) (hspec : info.spec = job.spec)
    (d : Dimension) :
    committed n d (s.exec P e (.job (.updateJobStatus job.jobId .assigned m))).2 ≤
      committed n d s + if m = n then job.spec.resources.amount d else 0 := by
  have hjobs : (s.exec P e (.job (.updateJobStatus job.jobId .assigned m))).2.jobMgr.jobs =
      s.jobMgr.jobs.modify job.jobId (JobManager.setStatus e.now .assigned m) :=
    JobManager.exec_jobs P.store e s.jobMgr rfl
  have htotal := Table.total_modify hj (share n d) (JobManager.setStatus e.now .assigned m)
  have hshare : share n d (JobManager.setStatus e.now .assigned m info) ≤
      if m = n then job.spec.resources.amount d else 0 := by
    rw [share, holdsOn_setStatus, nodeAfter, if_neg hm,
      (JobManager.setStatus_keeps e.now .assigned m info).2, hspec]
    by_cases hn : m = n <;> simp [hn, JobStatus.isActive]
  rw [committed, committed, hjobs]
  omega

/-! ### A pass under way -/

/-- Jobs of a snapshot as the table still has them: they may have another
status by now, but they ask for the same. -/
def Agree (s : MasterState Db Fs) (jobs : List JobInfo) : Prop :=
  ∀ job ∈ jobs, ∃ info, s.jobMgr.jobs.lookup job.jobId = some info ∧ info.spec = job.spec

theorem Agree.kept {n : String} {s s' : MasterState Db Fs} {jobs : List JobInfo}
    (h : Agree s jobs) (hk : Kept n s s') : Agree s' jobs := by
  intro job hjob
  obtain ⟨info, hj, hspec⟩ := h job hjob
  obtain ⟨info', hj', hspec'⟩ := hk.specs _ _ hj
  exact ⟨info', hj', hspec'.trans hspec⟩

/-- A snapshot of nodes, after the deductions so far, shows at most what the
jobs leave over. -/
structure Room (n : String) (s : MasterState Db Fs) (nodes : List NodeInfo) : Prop where
  distinct : (nodes.map NodeInfo.nodeId).Nodup
  named : ∀ node ∈ nodes, node.nodeId ≠ ""
  left : ∀ node ∈ nodes, node.nodeId = n → ∃ info, s.nodeRegistry.nodes.lookup n = some info ∧
    ∀ d, committed n d s + node.availableResources.amount d ≤ info.totalResources.amount d

theorem Room.nil (n : String) (s : MasterState Db Fs) : Room n s [] where
  distinct := List.nodup_nil
  named _ h := absurd h List.not_mem_nil
  left _ h := absurd h List.not_mem_nil

theorem Room.kept {n : String} {s s' : MasterState Db Fs} {nodes : List NodeInfo}
    (h : Room n s nodes) (hk : Kept n s s') (hc : ∀ d, committed n d s' ≤ committed n d s) :
    Room n s' nodes where
  distinct := h.distinct
  named := h.named
  left node hnode hn := by
    obtain ⟨info, hi, hleft⟩ := h.left node hnode hn
    obtain ⟨info', hi', htotal⟩ := hk.totals _ hi
    refine ⟨info', hi', fun d => ?_⟩
    rw [htotal]
    exact (Nat.add_le_add_right (hc d) _).trans (hleft d)

/-- **The deduction pays for the assignment**: after a job was placed, the
snapshot still shows at most what the jobs leave over. -/
theorem Room.place {n : String} {s s' : MasterState Db Fs} {nodes : List NodeInfo}
    {req : ResourceSpec} {r : NodeInfo × List NodeInfo} (h : Room n s nodes)
    (hp : place req nodes = some r) (hk : Kept n s s')
    (hc : ∀ d, committed n d s' ≤ committed n d s + if r.1.nodeId = n then req.amount d else 0) :
    Room n s' r.2 := by
  have hids := nodeIds_of_place hp
  obtain ⟨before, after, rfl, hr, hfits⟩ := place_eq_some hp
  refine ⟨hids ▸ h.distinct, fun node hnode => ?_, fun node hnode hn => ?_⟩
  · have hmem : node.nodeId ∈ (before ++ r.1 :: after).map NodeInfo.nodeId :=
      hids ▸ List.mem_map_of_mem hnode
    obtain ⟨node', hnode', heq⟩ := List.mem_map.mp hmem
    exact heq ▸ h.named node' hnode'
  · rw [hr] at hnode
    by_cases hthis : node = takeFrom req r.1
    · -- the node that was chosen gave up exactly what the job asks for
      subst hthis
      obtain ⟨info, hi, hleft⟩ := h.left r.1 (by simp) hn
      obtain ⟨info', hi', htotal⟩ := hk.totals _ hi
      refine ⟨info', hi', fun d => ?_⟩
      have hd := amount_deduct hfits d
      have hcd := hc d
      rw [if_pos (show r.1.nodeId = n from hn)] at hcd
      have hld := hleft d
      rw [htotal, takeFrom]
      dsimp only
      omega
    · -- another node: the job went elsewhere, for the identifiers are distinct
      have hmem : node ∈ before ++ after := by
        rcases List.mem_append.mp hnode with hb | ha
        · exact List.mem_append_left _ hb
        · rcases List.mem_cons.mp ha with ha | ha
          · exact absurd ha hthis
          · exact List.mem_append_right _ ha
      have hne : r.1.nodeId ≠ n := by
        have hnd := h.distinct
        rw [List.map_append, List.map_cons, List.nodup_middle, List.nodup_cons,
          ← List.map_append] at hnd
        exact fun hr1 => hnd.1 (hr1.trans hn.symm ▸ List.mem_map_of_mem hmem)
      have hold : node ∈ before ++ r.1 :: after := by
        rcases List.mem_append.mp hmem with hb | ha
        · exact List.mem_append_left _ hb
        · exact List.mem_append_right _ (List.mem_cons_of_mem _ ha)
      obtain ⟨info, hi, hleft⟩ := h.left node hold hn
      obtain ⟨info', hi', htotal⟩ := hk.totals _ hi
      refine ⟨info', hi', fun d => ?_⟩
      have hcd := hc d
      rw [if_neg hne] at hcd
      rw [htotal]
      exact (Nat.add_le_add_right hcd _).trans (hleft d)

/-- **Where a pass can be**: in front of one of its three reads, or in its walk
with what is left of the two snapshots. -/
inductive PassAt (n : String) (s : MasterState Db Fs) : MasterProg Unit → Prop
  | jobs (sort : Reorder JobInfo) : PassAt n s (schedulePass sort)
  | decay (sort : Reorder JobInfo) {jobs : List JobInfo} (hj : Agree s jobs) :
      PassAt n s (.call .applyDecay fun _ => .call (.node .getAllNodes) (passWalk sort jobs))
  | nodes (sort : Reorder JobInfo) {jobs : List JobInfo} (hj : Agree s jobs) :
      PassAt n s (.call (.node .getAllNodes) (passWalk sort jobs))
  | walk {jobs : List JobInfo} {nodes : List NodeInfo} (hj : Agree s jobs)
      (hr : Room n s nodes) : PassAt n s (assignAll jobs nodes)

theorem PassAt.done (n : String) (s : MasterState Db Fs) : PassAt n s (.ret ()) :=
  show PassAt n s (assignAll [] []) from
    .walk (fun _ h => absurd h List.not_mem_nil) (Room.nil n s)

theorem PassAt.kept {n : String} {s s' : MasterState Db Fs} {p : MasterProg Unit}
    (h : PassAt n s p) (hk : Kept n s s') (hc : ∀ d, committed n d s' ≤ committed n d s) :
    PassAt n s' p := by
  cases h with
  | jobs sort => exact .jobs sort
  | decay sort hj => exact .decay sort (hj.kept hk)
  | nodes sort hj => exact .nodes sort (hj.kept hk)
  | walk hj hr => exact .walk (hj.kept hk) (hr.kept hk hc)

/-! ### One step -/

/-- The invariant: the tables are filed under their identifiers, the jobs of the
node fit into it, and there is at most one pass under way, at a place where it
can be. -/
structure Sound (n : String) (c : MasterConfig Db Fs) : Prop where
  jobs : c.state.jobMgr.Keyed
  nodes : c.state.nodeRegistry.Keyed
  within : ∀ info, c.state.nodeRegistry.nodes.lookup n = some info →
    ∀ d, committed n d c.state ≤ info.totalResources.amount d
  absent : c.state.nodeRegistry.nodes.lookup n = none → ∀ d, committed n d c.state = 0
  onePass : OnePass c
  passes : ∀ (i : ℕ) (th : Thread MasterOp.Res Task Reply) (sort : Reorder JobInfo),
    c.threads[i]? = some th → th.task = .schedulePass sort →
    ∃ p, th.prog = (fun _ => Reply.done) <$> p ∧ PassAt n c.state p

/-- What a step may do to the sum: it does not grow, or it stays within the size
of the node. -/
def Bounded (n : String) (s s' : MasterState Db Fs) : Prop :=
  ∀ d, committed n d s' ≤ committed n d s ∨
    ∃ info, s.nodeRegistry.nodes.lookup n = some info ∧
      committed n d s' ≤ info.totalResources.amount d

/-- The snapshot of the online nodes, taken where the registry is up to date, shows
at most what the jobs leave over. -/
theorem Sound.room_of_upToDate {n : String} {c : MasterConfig Db Fs} (hs : Sound n c) {i : ℕ}
    {sort : Reorder JobInfo} {e : Env} {r : List NodeInfo}
    (hu : upToDate n c (.did i (.schedulePass sort) e (.node .getAllNodes) r) = true) :
    Room n c.state (onlineNodes (c.state.nodeRegistry.getAllNodes e)) := by
  refine ⟨?_, fun node hnode => ?_, fun node hnode hn => ?_⟩
  · exact (hs.nodes.nodup_getAllNodes (e := e)).sublist (List.filter_sublist.map _)
  · obtain ⟨m, hm⟩ := NodeRegistry.mem_getAllNodes.mp (List.mem_filter.mp hnode).1
    obtain ⟨hid, hne⟩ := hs.nodes m node hm
    exact hid ▸ hne
  · obtain ⟨hall, honline⟩ := List.mem_filter.mp hnode
    obtain ⟨m, hm⟩ := NodeRegistry.mem_getAllNodes.mp hall
    obtain rfl : m = n := (hs.nodes m node hm).1.symm.trans hn
    refine ⟨node, hm, fun d => ?_⟩
    simp only [upToDate, hm] at hu
    rcases (Bool.or_eq_true _ _).mp hu with hoff | hroom
    · exact absurd (of_decide_eq_true honline) (of_decide_eq_true hoff)
    · exact of_decide_eq_true (List.all_eq_true.mp hroom d (Dimension.mem_all d))

/-- A job that is placed stays within the size of its node. -/
theorem bounded_of_place {n : String} {s s' : MasterState Db Fs} {nodes : List NodeInfo}
    {req : ResourceSpec} {r : NodeInfo × List NodeInfo} (h : Room n s nodes)
    (hp : place req nodes = some r)
    (hc : ∀ d, committed n d s' ≤ committed n d s + if r.1.nodeId = n then req.amount d else 0) :
    Bounded n s s' := by
  intro d
  have hcd := hc d
  by_cases hn : r.1.nodeId = n
  · -- what is committed on the node before and what the job asks for both fit
    obtain ⟨before, after, hnodes, -, hfits⟩ := place_eq_some hp
    obtain ⟨node, hnode, hleft⟩ := h.left r.1 (by simp [hnodes]) hn
    refine Or.inr ⟨node, hnode, ?_⟩
    rw [if_pos hn] at hcd
    have hd := amount_deduct hfits d
    have hld := hleft d
    omega
  · rw [if_neg hn] at hcd
    exact Or.inl hcd

/-- **A step of a pass** takes it to the next place, and stays within the size
of the node. -/
theorem PassAt.step {n : String} {c : MasterConfig Db Fs} {i : ℕ} {sort : Reorder JobInfo} {e : Env}
    {op : MasterOp} {k : op.Res → MasterProg Unit} {p : MasterProg Unit} (hs : Sound n c)
    (hp : PassAt n c.state p) (hcall : p = .call op k)
    (hk : Kept n c.state (c.state.exec P e op).2)
    (hu : upToDate n c (.did i (.schedulePass sort) e op (c.state.exec P e op).1) = true) :
    PassAt n (c.state.exec P e op).2 (k (c.state.exec P e op).1) ∧
      Bounded n c.state (c.state.exec P e op).2 := by
  cases hp with
  | jobs sort' =>
    rw [schedulePass_eq] at hcall
    cases hcall
    refine ⟨?_, fun d => Or.inl le_rfl⟩
    dsimp only
    split
    · exact PassAt.done n _
    · -- every queued job of the snapshot is in the table, under its identifier
      refine PassAt.decay sort' fun job hjob => ?_
      obtain ⟨⟨j, hj⟩, -⟩ := (JobManager.mem_listJobs _ _).mp hjob
      exact ⟨job, (hs.jobs j job hj).symm ▸ hj, rfl⟩
  | decay sort' hj =>
    cases hcall
    exact ⟨PassAt.nodes sort' (hj.kept hk), fun d => Or.inl le_rfl⟩
  | nodes sort' hj =>
    rename_i jobs
    cases hcall
    refine ⟨?_, fun d => Or.inl le_rfl⟩
    simp only [passWalk]
    split
    · exact PassAt.done n _
    · -- the snapshot is where the pass relies on the registry
      exact PassAt.walk (fun job hjob => hj job ((sort'.mem_iff).mp hjob)) (hs.room_of_upToDate hu)
  | walk hj hr =>
    rename_i jobs nodes
    rcases assignAll_cases jobs nodes with h | ⟨job, jobs', r, hjob, hjobs', hplace, h⟩
    · rw [h] at hcall
      cases hcall
    · rw [h] at hcall
      cases hcall
      -- the job that is assigned is in the table as the snapshot shows it, so the
      -- operation commits what the walk has deducted
      obtain ⟨info, hinfo, hspec⟩ := hj job hjob
      obtain ⟨before, after, hnodes, -, -⟩ := place_eq_some hplace
      have hmem : r.1 ∈ nodes := by simp [hnodes]
      have hc := fun d => committed_assign_le (P := P) (n := n) (e := e) (hr.named r.1 hmem) hinfo
        hspec d
      have hrest : Agree c.state jobs' := fun j h => hj j (hjobs' j h)
      exact ⟨PassAt.walk (hrest.kept hk) (hr.place hplace hk hc), bounded_of_place hr hplace hc⟩

/-- A step that keeps the sizes and stays bounded keeps the sum within them. -/
theorem Sound.within_of_bounded {n : String} {c : MasterConfig Db Fs} {s' : MasterState Db Fs}
    (hs : Sound n c) (hk : Kept n c.state s') (hb : Bounded n c.state s') :
    (∀ info, s'.nodeRegistry.nodes.lookup n = some info →
      ∀ d, committed n d s' ≤ info.totalResources.amount d) ∧
    (s'.nodeRegistry.nodes.lookup n = none → ∀ d, committed n d s' = 0) := by
  -- where the node was not registered nothing is committed on it
  have habsent (hl : c.state.nodeRegistry.nodes.lookup n = none) (d : Dimension) :
      committed n d s' = 0 := by
    have hzero := hs.absent hl d
    rcases hb d with hle | ⟨info, hi, -⟩
    · omega
    · rw [hl] at hi
      cases hi
  refine ⟨fun info' hi' d => ?_, fun hnone d => ?_⟩
  · cases hl : c.state.nodeRegistry.nodes.lookup n with
    | none =>
      rw [habsent hl d]
      exact Nat.zero_le _
    | some info =>
      obtain ⟨info'', hi'', htotal⟩ := hk.totals info hl
      obtain rfl := Option.some.inj (hi'.symm.trans hi'')
      rw [htotal]
      rcases hb d with hle | ⟨info₁, hi₁, hle⟩
      · exact hle.trans (hs.within info hl d)
      · obtain rfl := Option.some.inj (hl.symm.trans hi₁)
        exact hle
  · cases hl : c.state.nodeRegistry.nodes.lookup n with
    | none => exact habsent hl d
    | some info =>
      obtain ⟨info', hi', -⟩ := hk.totals info hl
      rw [hnone] at hi'
      cases hi'

/-- **One step** under the conditions keeps the invariant. -/
theorem Sound.step {n : String} {c c' : MasterConfig Db Fs} {ev : MasterEvent} (hs : Sound n c)
    (hg : capacityKept n c ev = true) (hstep : (master P).Step c ev c') : Sound n c' := by
  obtain ⟨hw, hf, hr, hu, hp⟩ := capacityKept_iff.mp hg
  have hone := hs.onePass.step hw hstep
  cases hstep with
  | start t =>
    refine ⟨hs.jobs, hs.nodes, hs.within, hs.absent, hone, fun i th sort hth htask => ?_⟩
    rcases System.getElem?_start hth with hth | ⟨-, rfl⟩
    · exact hs.passes i th sort hth htask
    · obtain rfl : t = .schedulePass sort := htask
      exact ⟨_, rfl, PassAt.jobs sort⟩
  | did i t e op cont hi =>
    have hk : Kept n c.state (c.state.exec P e op).2 := Kept.of_step hf hr
    obtain ⟨hkj, hkn⟩ := keyed_exec (P := P) e op hs.jobs hs.nodes
    by_cases ht : ∃ sort, t = .schedulePass sort
    · -- the pass moves; every other pass is over
      obtain ⟨sort, rfl⟩ := ht
      obtain ⟨p, hprog, hp'⟩ := hs.passes i _ sort hi rfl
      obtain ⟨k, hcall, hcont⟩ := Prog.map_eq_call hprog.symm
      obtain ⟨hnext, hb⟩ := hp'.step hs hcall hk hu
      obtain ⟨hwithin, habsent⟩ := hs.within_of_bounded hk hb
      refine ⟨hkj, hkn, hwithin, habsent, hone, fun j th sort' hth htask => ?_⟩
      rcases getElem?_after_master hth with ⟨-, rfl⟩ | ⟨hne, hth⟩
      · exact ⟨_, congrFun hcont _, hnext⟩
      · obtain ⟨p₂, hprog₂, -⟩ := hs.passes j th sort' hth htask
        cases p₂ with
        | ret a => exact ⟨_, hprog₂, PassAt.done n _⟩
        | call op₂ k₂ =>
          refine absurd (hs.onePass j i th _ hth hi ?_ rfl) hne
          rw [isPass, htask, hprog₂]
          rfl
    · -- somebody else moves, and places nothing
      have hc : ∀ d, committed n d (c.state.exec P e op).2 ≤ committed n d c.state := by
        refine committed_exec_le hf fun j status nodeId info hop hj hact hafter => ?_
        subst hop
        cases t with
        | schedulePass sort => exact absurd ⟨sort, rfl⟩ ht
        | _ => simpa [reportsPlaced, hj, hact, hafter] using hp
      obtain ⟨hwithin, habsent⟩ := hs.within_of_bounded hk fun d => Or.inl (hc d)
      refine ⟨hkj, hkn, hwithin, habsent, hone, fun j th sort hth htask => ?_⟩
      rcases getElem?_after_master hth with ⟨-, rfl⟩ | ⟨-, hth⟩
      · exact absurd ⟨sort, htask⟩ ht
      · obtain ⟨p, hprog, hat⟩ := hs.passes j th sort hth htask
        exact ⟨p, hprog, hat.kept hk hc⟩

theorem Sound.start (n : String) (db : Option Db) (adminDb : Db) (fs : Fs) :
    Sound n (masterStart db adminDb fs) where
  jobs _ _ h := by cases h
  nodes _ _ h := by cases h
  within _ h := by cases h
  absent _ _ := rfl
  onePass _ _ _ _ h := by cases h
  passes _ _ _ h := by cases h

/-! ### Every run -/

/-- **No over-commit**: in a run of the server from its start in which the node
registers once, the registry is up to date at every snapshot, and reports are
about what was placed, the jobs of the node ask for at most what it registered
with, in each of the three resources. -/
theorem committed_le_total {n : String} {db : Option Db} {adminDb : Db} {fs : Fs}
    {c : MasterConfig Db Fs} {es : List MasterEvent}
    (h : (master P).Run (fun c ev => capacityKept n c ev = true) (masterStart db adminDb fs) es c)
    {info : NodeInfo} (hn : c.state.nodeRegistry.nodes.lookup n = some info) (d : Dimension) :
    committed n d c.state ≤ info.totalResources.amount d := by
  have hs : Sound n c := h.config_invariant (Sound.start n db adminDb fs)
    fun _ _ _ hs hg hstep => hs.step hg hstep
  exact hs.within info hn d

/-- A node with four cores registers, a job for one core is assigned to it and
starts, the node says that three cores are left, and a job for three cores is
assigned to it. -/
def honestSchedule : List (Choice Env Task) :=
  performs 0 (.rpc [] (.registerNode agentRegistration)) { now := 100 } 1 ++
  performs 1 (.rpc [] (.submitJob { resources := { cpuCores := 1, ramMb := 1024 } }))
    { now := 101 } 2 ++
  performs 2 (.schedulePass .id) { now := 102 } 4 ++
  performs 3 (.rpc [] (.reportJobStarted { nodeId := "node-00000000", jobId := "job-00000000" }))
    { now := 103 } 1 ++
  performs 4 (.rpc [] (.sendHeartbeat
    { nodeId := "node-00000000", availableResources := { cpuCores := 3, ramMb := 7168 } }))
    { now := 104 } 2 ++
  performs 5 (.rpc [] (.submitJob { resources := { cpuCores := 3, ramMb := 1024 } }))
    { now := 105, uuid := secondDraw } 2 ++
  performs 6 (.schedulePass .id) { now := 106 } 4

/-- The bound at work: a run that meets the conditions and fills the node. -/
theorem committed_le_total_honest :
    ∃ es c info, (master barePlatform).Run (fun c ev => capacityKept "node-00000000" c ev = true)
        (masterStart none {} ()) es c ∧
      c.state.nodeRegistry.nodes.lookup "node-00000000" = some info ∧
      committed "node-00000000" .cpu c.state = 4 ∧
      committed "node-00000000" .cpu c.state ≤ info.totalResources.amount .cpu := by
  obtain ⟨es, c, h, hc⟩ := System.exists_run (S := master barePlatform)
    (g := capacityKept "node-00000000") (c := masterStart none {} ())
    (p := fun c => (c.state.nodeRegistry.nodes.lookup "node-00000000").isSome ∧
      committed "node-00000000" .cpu c.state = 4)
    honestSchedule (by decide)
  obtain ⟨hsome, hfour⟩ := of_decide_eq_true hc
  obtain ⟨info, hn⟩ := Option.isSome_iff_exists.mp hsome
  exact ⟨es, c, info, h, hn, hfour, committed_le_total h hn .cpu⟩

/-- A node with four cores registers, a job for four cores is submitted and
assigned to it, the node sends the heartbeat of an agent out of the box, and a
second job for four cores goes the same way. -/
def twoPasses : List (Choice Env Task) :=
  performs 0 (.rpc [] (.registerNode agentRegistration)) { now := 100 } 1 ++
  performs 1 (.rpc [] (.submitJob { resources := { cpuCores := 4, ramMb := 1024 } }))
    { now := 101 } 2 ++
  performs 2 (.schedulePass .id) { now := 102 } 4 ++
  performs 3 (.rpc [] (.sendHeartbeat
    { nodeId := "node-00000000", availableResources := { cpuCores := 4, ramMb := 8192 } }))
    { now := 103 } 2 ++
  performs 4 (.rpc [] (.submitJob { resources := { cpuCores := 4, ramMb := 1024 } }))
    { now := 104, uuid := secondDraw } 2 ++
  performs 5 (.schedulePass .id) { now := 105 } 4

/-- **Two passes give away the same cores**: in a run of the server that meets
every condition but that of the up-to-date registry, jobs for eight cores are
assigned to a node that has four. -/
theorem second_pass_overcommits :
    ∃ es c info, (master barePlatform).Run
        (fun c ev => (wired c ev && freshJobId c ev && registersOnce "node-00000000" c ev &&
          reportsPlaced "node-00000000" c ev) = true)
        (masterStart none {} ()) es c ∧
      c.state.nodeRegistry.nodes.lookup "node-00000000" = some info ∧
      info.totalResources.amount .cpu = 4 ∧ committed "node-00000000" .cpu c.state = 8 := by
  obtain ⟨es, c, h, hc⟩ := System.exists_run (S := master barePlatform)
    (g := fun c ev => wired c ev && freshJobId c ev && registersOnce "node-00000000" c ev &&
      reportsPlaced "node-00000000" c ev)
    (c := masterStart none {} ())
    (p := fun c => (c.state.nodeRegistry.nodes.lookup "node-00000000").any (fun info =>
      info.totalResources.amount .cpu = 4) ∧ committed "node-00000000" .cpu c.state = 8)
    twoPasses (by decide)
  obtain ⟨hany, height⟩ := of_decide_eq_true hc
  cases hn : c.state.nodeRegistry.nodes.lookup "node-00000000" with
  | none => simp [hn] at hany
  | some info => exact ⟨es, c, info, h, hn, by simpa [hn] using hany, height⟩

end CertOS
