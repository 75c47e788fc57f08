import CertOS.Master.Server

/-!
# The jobs of a dead node

`check_timeouts` marks the nodes that have been silent for too long as offline, and
leaves it to the scheduler to take their jobs back. The scheduler looks at queued jobs
and at online nodes, and so never at these jobs; the routine that would end them,
`fail_jobs_on_node`, is called by nobody.

What a pass does to the tables is said once, in `CertOS.PassWrote`. It follows that the
jobs of dead nodes are released by a round of both routines just when there were none
to release (`CertOS.released_iff`), and `CertOS.job_stays_on_dead_node` is a round
after which a job is still assigned to a node that is gone.
-/

namespace CertOS

open Interleave

variable {Db Fs : Type} {P : Platform Db Fs}

/-! ### What a pass does -/

/-- **What a pass does to the tables**: the registry is untouched, and a job has the
record it had, unless it was queued and is now assigned to a node that is online. -/
structure PassWrote (s s' : MasterState Db Fs) : Prop where
  registry : s'.nodeRegistry = s.nodeRegistry
  record : ∀ j, s'.jobMgr.jobs.lookup j = s.jobMgr.jobs.lookup j ∨
    ∃ info info' node, s.jobMgr.jobs.lookup j = some info ∧ info.status = .queued ∧
      s'.jobMgr.jobs.lookup j = some info' ∧ info'.status = .assigned ∧
      s.nodeRegistry.nodes.lookup info'.assignedNodeId = some node ∧ node.status = .online

theorem PassWrote.refl (s : MasterState Db Fs) : PassWrote s s := ⟨rfl, fun _ => Or.inl rfl⟩

/-- One assignment of a queued job to an online node. -/
theorem PassWrote.assign {s s' : MasterState Db Fs} (h : PassWrote s s') {e : Env} {j n : String}
    {info : JobInfo} {node : NodeInfo} (hj : s.jobMgr.jobs.lookup j = some info)
    (hq : info.status = .queued) (hn : s.nodeRegistry.nodes.lookup n = some node)
    (hon : node.status = .online) (hne : n ≠ "") :
    PassWrote s (s'.exec P e (.job (.updateJobStatus j .assigned n))).2 := by
  refine ⟨h.registry, fun k => ?_⟩
  by_cases hk : k = j
  · subst hk
    have hsome : ∃ info', s'.jobMgr.jobs.lookup k = some info' := by
      rcases h.record k with hr | ⟨-, info', -, -, -, hr, -⟩
      · exact ⟨info, hr.trans hj⟩
      · exact ⟨info', hr⟩
    obtain ⟨info', hinfo'⟩ := hsome
    -- the pass may have assigned the job before: then it is only assigned again
    have hl := JobManager.lookup_updateJobStatus P.store e s'.jobMgr .assigned n k
    rw [hinfo'] at hl
    have hnode : (JobManager.setStatus e.now .assigned n info').assignedNodeId = n := by
      rw [JobManager.setStatus_assignedNodeId, if_pos ⟨rfl, hne⟩]
    refine Or.inr ⟨info, _, node, hj, hq, hl, ?_, ?_, hon⟩
    · exact JobManager.setStatus_status _ _ _ _
    · rw [hnode]
      exact hn
  · have hsame : (s'.exec P e (.job (.updateJobStatus j .assigned n))).2.jobMgr.jobs.lookup k =
        s'.jobMgr.jobs.lookup k :=
      JobManager.lookup_updateJobStatus_of_ne P.store e s'.jobMgr .assigned n hk
    rw [hsame]
    exact h.record k

/-- **A pass that runs alone** does no more than that to the tables. -/
theorem passWrote (sort : Reorder JobInfo) (e : ℕ → Env) {s : MasterState Db Fs}
    (hj : s.jobMgr.Keyed) (hn : s.nodeRegistry.Keyed) :
    PassWrote s (runTask P (.schedulePass sort) e s).2 := by
  rw [runTask, master_body_schedulePass, Prog.run_map, schedulePass_eq]
  dsimp only
  rw [Prog.run_call]
  split
  · exact .refl s
  · rw [Prog.run_call, Prog.run_call, passWalk]
    split
    · exact ⟨rfl, fun _ => Or.inl rfl⟩
    · -- both lists are those of the tables at the start, which nobody else writes
      refine (only_assignsOne _ _).run (J := PassWrote s) ?_ ⟨rfl, fun _ => Or.inl rfl⟩
      rintro e' op s' ⟨job, hjob, n, hn', rfl⟩ hs'
      obtain ⟨⟨j, hl⟩, hq⟩ := (JobManager.mem_listJobs _ _).mp ((sort.mem_iff).mp hjob)
      obtain ⟨node, hnode, rfl⟩ := List.mem_map.mp hn'
      obtain ⟨hall, hon⟩ := List.mem_filter.mp hnode
      obtain ⟨m, hm⟩ := NodeRegistry.mem_getAllNodes.mp hall
      obtain ⟨hid, hne⟩ := hn m node hm
      have hqueued : job.status = .queued := by simpa using hq
      have hjob' : s.jobMgr.jobs.lookup job.jobId = some job := (hj j job hl).symm ▸ hl
      have hnode' : s.nodeRegistry.nodes.lookup node.nodeId = some node := hid.symm ▸ hm
      exact hs'.assign hjob' hqueued hnode' (of_decide_eq_true hon) (hid.symm ▸ hne)

/-! ### Release -/

/-- **No job is left on a dead node**: a job that is assigned or running is not on a node
that is offline. -/
def Released (s : MasterState Db Fs) : Prop :=
  ∀ j info node, s.jobMgr.jobs.lookup j = some info → info.status.isActive = true →
    s.nodeRegistry.nodes.lookup info.assignedNodeId = some node → node.status ≠ .offline

/-- A pass releases nothing, and puts nothing on a dead node. -/
theorem PassWrote.released_congr {s s' : MasterState Db Fs} (h : PassWrote s s') :
    Released s' ↔ Released s := by
  constructor
  · intro hs' j info node hj hact hnode
    have hkept : s'.jobMgr.jobs.lookup j = some info := by
      rcases h.record j with hr | ⟨info₀, -, -, h₀, hq, -⟩
      · exact hr.trans hj
      · -- a job that is active is not queued, so the pass does not see it
        obtain rfl := Option.some.inj (hj.symm.trans h₀)
        rw [hq] at hact
        cases hact
    exact hs' j info node hkept hact (by rw [h.registry]; exact hnode)
  · intro hs j info node hj hact hnode
    rw [h.registry] at hnode
    rcases h.record j with hr | ⟨-, info', node', -, -, hr, -, hon, hst⟩
    · exact hs j info node (hr.symm.trans hj) hact hnode
    · obtain rfl := Option.some.inj (hj.symm.trans hr)
      obtain rfl := Option.some.inj (hnode.symm.trans hon)
      rw [hst]
      exact nofun

/-- When an entry is offline after `check_timeouts`. -/
theorem timeOut_status_ne_offline {now : ℤ} {timeoutSec : UInt32} {node : NodeInfo} :
    (NodeRegistry.timeOut now timeoutSec node).status ≠ .offline ↔
      node.status ≠ .offline ∧
        ¬ (node.status = .online ∧ now - node.lastHeartbeat > timeoutSec.toNat) := by
  rw [NodeRegistry.timeOut]
  split
  · rename_i h
    simp [h]
  · rename_i h
    simp [h]

/-- **The jobs of dead nodes are released** by `check_timeouts` and a pass after it just
when there is nothing to release: in every state that a run of the master reaches, no
job is assigned to or running on a node that is offline or that times out now. -/
theorem released_iff {db : Option Db} {adminDb : Db} {fs : Fs}
    {ok : MasterConfig Db Fs → MasterEvent → Prop} {c : MasterConfig Db Fs}
    {es : List MasterEvent} (h : (master P).Run ok (masterStart db adminDb fs) es c)
    (timeoutSec : UInt32) (sort : Reorder JobInfo) (e e' : ℕ → Env) :
    Released (runTask P (.schedulePass sort) e'
        (runTask P (.checkTimeouts timeoutSec) e c.state).2).2 ↔
      ∀ j info node, c.state.jobMgr.jobs.lookup j = some info → info.status.isActive = true →
        c.state.nodeRegistry.nodes.lookup info.assignedNodeId = some node →
        node.status ≠ .offline ∧
          ¬ (node.status = .online ∧ (e 0).now - node.lastHeartbeat > timeoutSec.toNat) := by
  obtain ⟨hj, hn⟩ := keyed_of_start h
  obtain ⟨hj', hn'⟩ := keyed_exec (P := P) (e 0) (.node (.checkTimeouts timeoutSec)) hj hn
  have hlookup (m : String) :
      (runTask P (.checkTimeouts timeoutSec) e c.state).2.nodeRegistry.nodes.lookup m =
        (c.state.nodeRegistry.nodes.lookup m).map (NodeRegistry.timeOut (e 0).now timeoutSec) :=
    Table.lookup_mapValues _ _ _
  rw [(passWrote (P := P) sort e' (s := (runTask P (.checkTimeouts timeoutSec) e c.state).2)
    hj' hn').released_congr]
  constructor
  · intro hs j info node hinfo hact hnode
    refine timeOut_status_ne_offline.mp (hs j info _ hinfo hact ?_)
    rw [hlookup, hnode]
    rfl
  · intro hs j info node hinfo hact hnode
    rw [hlookup] at hnode
    obtain ⟨node₀, hnode₀, rfl⟩ := Option.map_eq_some_iff.mp hnode
    exact timeOut_status_ne_offline.mpr (hs j info node₀ hinfo hact hnode₀)

/-! ### A job that stays -/

/-- The two routines one after the other: `check_timeouts` at the time `now`, and a pass
right after it. -/
def checkThenPass (P : Platform Db Fs) (timeoutSec : UInt32) (now : ℤ) (s : MasterState Db Fs) :
    MasterState Db Fs :=
  (runTask P (.schedulePass .id) (fun _ => { now := now })
    (runTask P (.checkTimeouts timeoutSec) (fun _ => { now := now }) s).2).2

/-- The node on which the job of `assignSchedule` is, if the job holds anything of it. -/
def activeNode (s : MasterState Tables Unit) : Option NodeInfo :=
  (s.jobMgr.jobs.lookup "job-00000000").bind fun info =>
    if info.status.isActive then s.nodeRegistry.nodes.lookup info.assignedNodeId else none

/-- The law at work: the job of `assignSchedule` is on a node that has been silent for
900 seconds, and a round of the two routines at time 1000 does not release it. -/
theorem released_iff_silent :
    ∃ es c,
      (master barePlatform).Run (fun c ev => wired c ev = true) (masterStart none {} ()) es c ∧
      (activeNode c.state).map NodeInfo.lastHeartbeat = some 100 ∧
      ¬ Released (checkThenPass barePlatform 15 1000 c.state) := by
  obtain ⟨es, c, hrun, hc⟩ := System.exists_run (S := master barePlatform)
    (g := wired) (c := masterStart none {} ())
    (p := fun c => (activeNode c.state).map NodeInfo.lastHeartbeat = some 100 ∧
      (activeNode c.state).map NodeInfo.status = some .online)
    assignSchedule (by decide)
  obtain ⟨hlast, hon⟩ := of_decide_eq_true hc
  refine ⟨es, c, hrun, hlast, fun hreleased => ?_⟩
  obtain ⟨node, hnode, hlast'⟩ := Option.map_eq_some_iff.mp hlast
  rw [hnode, Option.map_some] at hon
  obtain ⟨info, hj, hact⟩ := Option.bind_eq_some_iff.mp hnode
  have hiff := released_iff hrun 15 .id (fun _ => { now := 1000 }) (fun _ => { now := 1000 })
  split at hact
  · rename_i hactive
    have hgone := (hiff.mp hreleased _ info node hj hactive hact).2
    rw [hlast'] at hgone
    exact hgone ⟨Option.some.inj hon, by decide⟩
  · cases hact

/-- **A job stays on a dead node**: in a run of the server a job is assigned to a node
that is then not heard of for 900 seconds; `check_timeouts` marks the node as offline,
and after the pass that follows the job is still assigned to it. -/
theorem job_stays_on_dead_node :
    ∃ es c,
      (master barePlatform).Run (fun c ev => wired c ev = true) (masterStart none {} ()) es c ∧
      ∃ info node,
        (checkThenPass barePlatform 15 1000 c.state).jobMgr.jobs.lookup "job-00000000" = some info ∧
        info.status = .assigned ∧ info.assignedNodeId = "node-00000000" ∧
        (checkThenPass barePlatform 15 1000 c.state).nodeRegistry.nodes.lookup "node-00000000" =
          some node ∧
        node.status = .offline := by
  obtain ⟨es, c, hrun, hc⟩ := System.exists_run (S := master barePlatform)
    (g := wired) (c := masterStart none {} ())
    (p := fun c =>
      ((checkThenPass barePlatform 15 1000 c.state).jobMgr.jobs.lookup "job-00000000").any
        (fun info => info.status = .assigned && info.assignedNodeId = "node-00000000") ∧
      ((checkThenPass barePlatform 15 1000 c.state).nodeRegistry.nodes.lookup "node-00000000").any
        fun node => node.status = .offline)
    assignSchedule (by decide)
  obtain ⟨hjob, hnode⟩ := of_decide_eq_true hc
  obtain ⟨info, hinfo, hi⟩ := (Option.any_eq_true _ _).mp hjob
  obtain ⟨node, hn, hoff⟩ := (Option.any_eq_true _ _).mp hnode
  obtain ⟨hst, hid⟩ : info.status = .assigned ∧ info.assignedNodeId = "node-00000000" := by
    simpa using hi
  exact ⟨es, c, hrun, info, node, hinfo, hst, hid, hn, of_decide_eq_true hoff⟩

end CertOS
