import CertOS.Master.Scheduler
import CertOS.Master.Service

/-!
# The master as a system of threads

`MasterServer` runs one thread for every call that arrives and one for the
scheduler. `CertOS.master` is that system in the sense of
`Interleave.System`: its tasks are calls, passes of the scheduler, and the two
maintenance routines of the components that no thread of the server calls.

Which tasks are started when is a condition on runs. `CertOS.wired` is the
condition that `MasterServer::start` establishes: calls at any time, passes one
after the other, and nothing else.
-/

namespace CertOS

open Interleave

/-- A task of the master. -/
inductive Task where
  /-- A call with its metadata. -/
  | rpc (metadata : Metadata) (rpc : Rpc)
  /-- A pass of the scheduler, with what `std::sort` makes of its snapshot. -/
  | schedulePass (sort : Reorder JobInfo)
  /-- `JobManager::fail_jobs_on_node`. -/
  | failJobsOnNode (nodeId : String)
  /-- `NodeRegistry::check_timeouts`. -/
  | checkTimeouts (timeoutSec : UInt32)

variable {Db Fs : Type}

/-- **The master**: its operations and the programs of its tasks. -/
def master (P : Platform Db Fs) : System MasterOp.Res Env (MasterState Db Fs) Task Reply where
  exec e op s := s.exec P e op
  body
    | .rpc metadata rpc => serve P metadata rpc
    | .schedulePass sort => (fun _ => .done) <$> schedulePass sort
    | .failJobsOnNode nodeId => (fun _ => .done) <$> Call.failJobsOnNode nodeId
    | .checkTimeouts timeoutSec => (fun _ => .done) <$> Call.checkTimeouts timeoutSec

/-- A configuration of the master. -/
abbrev MasterConfig (Db Fs : Type) := Config MasterOp.Res (MasterState Db Fs) Task Reply

/-- An event of the master. -/
abbrev MasterEvent := Event MasterOp.Res Env Task

/-- The master when it starts: no jobs, no nodes, no threads, and whatever the
databases hold. -/
def masterStart (db : Option Db) (adminDb : Db) (fairShare : Fs) : MasterConfig Db Fs where
  state :=
    { jobMgr := { jobs := ∅, db := db }
      nodeRegistry := { nodes := ∅ }
      adminDb := adminDb
      fairShare := fairShare }
  threads := []

@[simp] theorem master_exec (P : Platform Db Fs) (e : Env) (op : MasterOp) (s : MasterState Db Fs) :
    (master P).exec e op s = s.exec P e op := rfl

@[simp] theorem master_forks (P : Platform Db Fs) (op : MasterOp) (r : op.Res) :
    (master P).forks op r = [] := rfl

@[simp] theorem master_body_rpc (P : Platform Db Fs) (metadata : Metadata) (rpc : Rpc) :
    (master P).body (.rpc metadata rpc) = rpc.handle P.json metadata :=
  serve_eq_handle P metadata rpc

@[simp] theorem master_body_schedulePass (P : Platform Db Fs) (sort : Reorder JobInfo) :
    (master P).body (.schedulePass sort) = (fun _ => .done) <$> schedulePass sort := rfl

/-- **A task that runs alone**, from its start to its end: its `n`-th step sees the
environment `e n`. -/
def runTask (P : Platform Db Fs) (t : Task) (e : ℕ → Env) (s : MasterState Db Fs) :
    Reply × MasterState Db Fs :=
  ((master P).body t).run (MasterState.exec P) e s

/-- No operation of the master starts a thread, so after a step there are the
thread that has moved and the threads that have not. -/
theorem getElem?_after_master {P : Platform Db Fs} {c : MasterConfig Db Fs} {i j : ℕ} {t : Task}
    {e : Env} {op : MasterOp} {cont : op.Res → MasterProg Reply}
    {th : Thread MasterOp.Res Task Reply}
    (h : ((master P).after c i t e op cont).threads[j]? = some th) :
    (j = i ∧ th = ⟨t, cont (c.state.exec P e op).1⟩) ∨ (j ≠ i ∧ c.threads[j]? = some th) := by
  rcases System.getElem?_after h with h | h | ⟨-, u, hu, -⟩
  · exact Or.inl h
  · exact Or.inr h
  · cases hu

/-! ### The tables and their keys -/

/-- The operations keep both tables under their identifiers. -/
theorem keyed_exec {P : Platform Db Fs} {s : MasterState Db Fs} (e : Env) (op : MasterOp)
    (hj : s.jobMgr.Keyed) (hn : s.nodeRegistry.Keyed) :
    (s.exec P e op).2.jobMgr.Keyed ∧ (s.exec P e op).2.nodeRegistry.Keyed := by
  cases op with
  | job o => exact ⟨hj.exec P.store e o, hn⟩
  | node o => exact ⟨hj, hn.exec o⟩
  | _ => exact ⟨hj, hn⟩

theorem keyed_of_run {P : Platform Db Fs} {ok : MasterConfig Db Fs → MasterEvent → Prop}
    {c c' : MasterConfig Db Fs} {es : List MasterEvent} (h : (master P).Run ok c es c')
    (hk : c.state.jobMgr.Keyed) : c'.state.jobMgr.Keyed := by
  refine h.state_invariant (J := fun s => s.jobMgr.Keyed) hk fun c i t e op _ hk => ?_
  cases op with
  | job o => exact hk.exec P.store e o
  | _ => exact hk

/-- In every run from the start both tables are under their identifiers. -/
theorem keyed_of_start {P : Platform Db Fs} {ok : MasterConfig Db Fs → MasterEvent → Prop}
    {db : Option Db} {adminDb : Db} {fs : Fs} {c : MasterConfig Db Fs} {es : List MasterEvent}
    (h : (master P).Run ok (masterStart db adminDb fs) es c) :
    c.state.jobMgr.Keyed ∧ c.state.nodeRegistry.Keyed := by
  refine h.state_invariant (J := fun s => s.jobMgr.Keyed ∧ s.nodeRegistry.Keyed) ⟨?_, ?_⟩
    fun c i t e op _ hk => keyed_exec e op hk.1 hk.2
  · intro j info hj
    cases hj
  · intro n info hn
    cases hn

/-! ### Exhibiting runs -/

/-- A platform with the ideal store and nothing else that works: no request has
a JSON text and no token is valid. -/
def barePlatform : Platform Tables Unit where
  store := idealStore
  json := ⟨fun _ => none, fun _ => none⟩
  validateToken _ := none
  applyDecay _ fs := fs

/-- The schedule of a task that becomes thread `i` and performs its next `n`
operations one after the other in the environment `e`. -/
def performs (i : ℕ) (t : Task) (e : Env) (n : ℕ) : List (Choice Env Task) :=
  .start t :: List.replicate n (.move i e)

/-- The registration of an agent as it comes out of the box. -/
def agentRegistration : RegisterNodeRequest where
  hostname := "agent-host"
  ipAddress := "127.0.0.1"
  totalResources := { cpuCores := 4, ramMb := 8192 }

/-- A node registers, a job is submitted and assigned to it, and the node fetches
it. -/
def assignSchedule : List (Choice Env Task) :=
  performs 0 (.rpc [] (.registerNode agentRegistration)) { now := 100 } 1 ++
  performs 1 (.rpc [] (.submitJob { resources := { cpuCores := 1, ramMb := 1024 } }))
    { now := 101 } 2 ++
  performs 2 (.schedulePass .id) { now := 102 } 4 ++
  performs 3 (.rpc [] (.fetchJob { nodeId := "node-00000000" })) { now := 103 } 1

/-! ### Conditions on runs -/

/-- Whether a thread is a pass of the scheduler that has not come to its
end. -/
def isPass (th : Thread MasterOp.Res Task Reply) : Bool :=
  match th.task, th.prog with
  | .schedulePass _, .call _ _ => true
  | _, _ => false

/-- **The wiring of the server**: calls arrive at any time, the scheduler
starts a pass when the last one is over, and nothing else is started. -/
def wired (c : MasterConfig Db Fs) : MasterEvent → Bool
  | .start (.rpc _ _) => true
  | .start (.schedulePass _) => c.threads.all fun th => !isPass th
  | .start _ => false
  | .did .. => true

/-- There is at most one pass under way. -/
def OnePass (c : MasterConfig Db Fs) : Prop :=
  ∀ (i k : ℕ) (a b : Thread MasterOp.Res Task Reply), c.threads[i]? = some a →
    c.threads[k]? = some b → isPass a = true → isPass b = true → i = k

/-- A thread that is a pass under way after its step was one before. -/
theorem isPass_of_call {t : Task} {op : MasterOp} {k : op.Res → MasterProg Reply}
    {p : MasterProg Reply} (h : isPass ⟨t, p⟩ = true) : isPass ⟨t, .call op k⟩ = true := by
  cases t with
  | schedulePass sort => rfl
  | _ => cases p <;> cases h

/-- The wiring of the server keeps the passes apart. -/
theorem OnePass.step {P : Platform Db Fs} {c c' : MasterConfig Db Fs} {ev : MasterEvent}
    (h : OnePass c) (hw : wired c ev = true) (hstep : (master P).Step c ev c') : OnePass c' := by
  cases hstep with
  | start t =>
    intro i k a b ha hb hpa hpb
    have hnew (x : Thread MasterOp.Res Task Reply) {j : ℕ} (hx : c.threads[j]? = some x)
        (hpx : isPass x = true) (ht : isPass ((master P).spawn t) = true) : False := by
      cases t with
      | schedulePass sort =>
        have hnone := List.all_eq_true.mp hw x (List.mem_of_getElem? hx)
        simp [hpx] at hnone
      | rpc metadata rpc => simp [isPass, System.spawn] at ht
      | _ => cases hw
    rcases System.getElem?_start ha with ha | ⟨rfl, rfl⟩
    · rcases System.getElem?_start hb with hb | ⟨rfl, rfl⟩
      · exact h i k a b ha hb hpa hpb
      · exact (hnew a ha hpa hpb).elim
    · rcases System.getElem?_start hb with hb | ⟨rfl, rfl⟩
      · exact (hnew b hb hpb hpa).elim
      · rfl
  | did i₀ t e op cont hi =>
    have hold (j : ℕ) (x : Thread MasterOp.Res Task Reply)
        (hx : ((master P).after c i₀ t e op cont).threads[j]? = some x) (hpx : isPass x = true) :
        ∃ y, c.threads[j]? = some y ∧ isPass y = true := by
      rcases getElem?_after_master hx with ⟨rfl, rfl⟩ | ⟨-, hx⟩
      · exact ⟨_, hi, isPass_of_call hpx⟩
      · exact ⟨x, hx, hpx⟩
    intro i k a b ha hb hpa hpb
    obtain ⟨a', ha', hpa'⟩ := hold i a ha hpa
    obtain ⟨b', hb', hpb'⟩ := hold k b hb hpb
    exact h i k a' b' ha' hb' hpa' hpb'

/-- **Fresh job identifiers**: a submission draws one that no job has. -/
def freshJobId (c : MasterConfig Db Fs) : MasterEvent → Bool
  | .did _ _ _ (.job (.submitJob _ _ _)) jobId => (c.state.jobMgr.jobs.lookup jobId).isNone
  | _ => true

/-- The step is a submission that draws the identifier `j`. -/
def drawsJob (j : String) : MasterEvent → Bool
  | .did _ _ _ (.job (.submitJob _ _ _)) jobId => jobId = j
  | _ => false

/-- A fresh identifier is none that a job has. -/
theorem not_drawsJob_of_freshJobId {c : MasterConfig Db Fs} {ev : MasterEvent} {j : String}
    {info : JobInfo} (hf : freshJobId c ev = true)
    (hj : c.state.jobMgr.jobs.lookup j = some info) : drawsJob j ev = false := by
  cases ev with
  | start t => rfl
  | did i t e op r =>
    cases op with
    | job o =>
      cases o with
      | submitJob spec userId username =>
        refine decide_eq_false ?_
        rintro rfl
        have hnone : (c.state.jobMgr.jobs.lookup r).isNone = true := hf
        rw [hj] at hnone
        cases hnone
      | _ => rfl
    | _ => rfl

/-- A step that does not draw the identifier of a job leaves the job alone, or sweeps over
it. -/
theorem lookup_of_not_drawsJob {P : Platform Db Fs} {c : MasterConfig Db Fs} {i : ℕ} {t : Task}
    {e : Env} {op : MasterOp} {j : String} {info : JobInfo}
    (hd : drawsJob j (.did i t e op (c.state.exec P e op).1) = false)
    (hj : c.state.jobMgr.jobs.lookup j = some info) :
    (c.state.exec P e op).2.jobMgr.jobs.lookup j = some info ∨
      ∃ o, op = .job o ∧ o.isSubmit = false ∧
        (c.state.exec P e op).2.jobMgr.jobs.lookup j = some (o.touch e.now j info) := by
  cases op with
  | job o =>
    cases hs : o.isSubmit with
    | false =>
      refine Or.inr ⟨o, rfl, hs, ?_⟩
      rw [MasterState.exec_job, JobManager.lookup_exec _ _ _ hs, hj]
      rfl
    | true =>
      refine Or.inl ?_
      cases o with
      | submitJob spec userId username =>
        have hne : j ≠ shortId "job-" e.uuid := fun h => of_decide_eq_false hd h.symm
        rw [MasterState.exec_job]
        exact (JobManager.lookup_submitJob_of_ne _ _ _ _ _ _ hne).trans hj
      | _ => cases hs
  | node o => exact Or.inl hj
  | store o => exact Or.inl hj
  | applyDecay => exact Or.inl hj
  | now => exact Or.inl hj
  | rand => exact Or.inl hj

/-- The same under `freshJobId`. -/
theorem lookup_of_freshJobId {P : Platform Db Fs} {c : MasterConfig Db Fs} {i : ℕ} {t : Task}
    {e : Env} {op : MasterOp} {j : String} {info : JobInfo}
    (hf : freshJobId c (.did i t e op (c.state.exec P e op).1) = true)
    (hj : c.state.jobMgr.jobs.lookup j = some info) :
    (c.state.exec P e op).2.jobMgr.jobs.lookup j = some info ∨
      ∃ o, op = .job o ∧ o.isSubmit = false ∧
        (c.state.exec P e op).2.jobMgr.jobs.lookup j = some (o.touch e.now j info) :=
  lookup_of_not_drawsJob (not_drawsJob_of_freshJobId hf hj) hj

end CertOS
