import CertOS.Master.Confined
import Mathlib.Data.Option.Basic

/-!
# Who may call what

A call that is not public ought to store or show something only if its metadata
carries a token that is accepted, and the role of the token has the permission
of the method. The interceptor validates the token and hands the call on in any
case, since "the service method can check context"; no handler does.

So a call is authorised only if it has nothing to change and nothing to show, or
if its caller happens to be entitled. `CertOS.authorised_iff` says that for every
call, every state and every choice of permissions, and whatever other threads do
between any two steps of the call; `CertOS.Idle` spells out for each method when
there is nothing to change and to show. The store is the one that pastes names and
passwords into its SQL texts, over any engine: where a query for a name that
leaves its literal finds a row, `CreateUser` takes the account for one that exists.
`CertOS.anyone_creates_admin` is a call without any token that creates an
administrator.
-/

namespace CertOS

open Interleave

variable {Db Fs : Type}

/-! ### What a call does -/

/-- **The state is the same**: every job, every node, both databases and the fair-share table.
The order in which a hash map holds its entries does not count. -/
structure MasterState.Same (s s' : MasterState Tables Fs) : Prop where
  jobs : ∀ j, s'.jobMgr.jobs.lookup j = s.jobMgr.jobs.lookup j
  jobsDb : Option.Rel Tables.Same s.jobMgr.db s'.jobMgr.db
  nodes : ∀ n, s'.nodeRegistry.nodes.lookup n = s.nodeRegistry.nodes.lookup n
  adminDb : s.adminDb.Same s'.adminDb
  fairShare : s'.fairShare = s.fairShare

theorem MasterState.Same.refl (s : MasterState Tables Fs) : s.Same s where
  jobs _ := rfl
  jobsDb := by
    cases s.jobMgr.db with
    | none => exact .none
    | some db => exact .some (.refl db)
  nodes _ := rfl
  adminDb := .refl _
  fairShare := rfl

/-- A step on the table of jobs alone. -/
theorem MasterState.same_of_jobs {s : MasterState Tables Fs} {t : Table String JobInfo} :
    s.Same { s with jobMgr := { s.jobMgr with jobs := t } } ↔
      ∀ j, t.lookup j = s.jobMgr.jobs.lookup j :=
  ⟨fun h => h.jobs, fun h => { MasterState.Same.refl s with jobs := h }⟩

/-- The reply shows data of jobs, nodes, users or requests. -/
def Reply.reveals : Reply → Bool
  | .error _ | .status _ | .done => false
  | .authToken _ | .userInfo _ | .jobInfo _ | .registered _ => true
  | .users us => !us.isEmpty
  | .jobs r => !r.jobs.isEmpty
  | .nodes ns => !ns.isEmpty
  | .requests rs => !rs.isEmpty
  | .heartbeat r => !r.jobsToCancel.isEmpty
  | .fetched r => r.hasJob

/-- A step of a call among other threads: the operations they have performed since its last
step, and what the step sees of its environment. -/
structure Moment where
  others : List (Env × MasterOp) := []
  env : Env := {}

/-- The state the step meets. -/
def Moment.met (P : Platform Db Fs) (m : Moment) (s : MasterState Db Fs) : MasterState Db Fs :=
  m.others.foldl (fun s o => (s.exec P o.1 o.2).2) s

/-- **What a call does from here on**, its steps at the moments `ms`: one of them changes the
state, or the reply shows something. -/
def Acts (P : Platform Tables Fs) :
    (ℕ → Moment) → MasterProg Reply → MasterState Tables Fs → Prop
  | _, .ret r, _ => r.reveals = true
  | ms, .call op k, s =>
    ¬((ms 0).met P s).Same (((ms 0).met P s).exec P (ms 0).env op).2 ∨
      Acts P (fun n => ms (n + 1)) (k (((ms 0).met P s).exec P (ms 0).env op).1)
        (((ms 0).met P s).exec P (ms 0).env op).2

section Steps

variable {P : Platform Tables Fs} {ms : ℕ → Moment} {s : MasterState Tables Fs}

@[simp] theorem acts_ret {r : Reply} : Acts P ms (.ret r) s ↔ r.reveals = true := Iff.rfl

theorem acts_call {op : MasterOp} {k : op.Res → MasterProg Reply} :
    Acts P ms (.call op k) s ↔
      ¬((ms 0).met P s).Same (((ms 0).met P s).exec P (ms 0).env op).2 ∨
        Acts P (fun n => ms (n + 1)) (k (((ms 0).met P s).exec P (ms 0).env op).1)
          (((ms 0).met P s).exec P (ms 0).env op).2 := Iff.rfl

/-- A step that leaves the state as it is, with its answer. -/
theorem acts_read {op : MasterOp} {k : op.Res → MasterProg Reply} {r : op.Res}
    (h : ((ms 0).met P s).exec P (ms 0).env op = (r, (ms 0).met P s)) :
    Acts P ms (.call op k) s ↔ Acts P (fun n => ms (n + 1)) (k r) ((ms 0).met P s) := by
  rw [acts_call, h]
  exact or_iff_right (not_not_intro (.refl _))

/-- A call that shows something whatever it learns acts. -/
theorem acts_of_returns {α : Type} {f : α → Reply} {q : α → Prop}
    (hf : ∀ a, q a → (f a).reveals = true) {p : MasterProg α} (hp : p.Returns q)
    (ms : ℕ → Moment) (s : MasterState Tables Fs) : Acts P ms (f <$> p) s := by
  induction p generalizing ms s with
  | ret a => exact hf a hp
  | call op k ih =>
    rw [Prog.call_map, acts_call]
    exact Or.inr (ih _ (hp _) _ _)

/-- **No operation of the master removes a job.** -/
theorem lookup_exec_ne_none {e : Env} {op : MasterOp} {j : String}
    (h : s.jobMgr.jobs.lookup j ≠ none) : (s.exec P e op).2.jobMgr.jobs.lookup j ≠ none := by
  cases op with
  | job o =>
    rw [MasterState.exec_job]
    rw [Option.ne_none_iff_exists'] at h ⊢
    exact JobManager.exists_lookup_exec P.store e s.jobMgr o h
  | _ => exact h

theorem Moment.lookup_met_ne_none {m : Moment} {j : String}
    (h : s.jobMgr.jobs.lookup j ≠ none) : (m.met P s).jobMgr.jobs.lookup j ≠ none := by
  rw [Moment.met]
  generalize m.others = os
  induction os generalizing s with
  | nil => exact h
  | cons o os ih => exact ih (lookup_exec_ne_none h)

end Steps

/-! ### Who may make it -/

/-- The claims of the token that the metadata of a call carries, if the
interceptor finds one and it is accepted. -/
def bearer (P : Platform Db Fs) (metadata : Metadata) (rpc : Rpc) : Option TokenClaims :=
  (intercept P.validateToken rpc.method metadata).claims

/-- **The call is authorised**, when `required` is the permission of each method:
it acts only if it carries an accepted token whose role has the permission, and
it cancels a job on behalf of a user only if the job is his own. -/
structure Authorised (P : Platform Tables Fs) (required : Rpc → Permission) (metadata : Metadata)
    (rpc : Rpc) (ms : ℕ → Moment) (s : MasterState Tables Fs) : Prop where
  permitted : Acts P ms (serve P metadata rpc) s →
    ∃ claims, bearer P metadata rpc = some claims ∧
      hasPermission claims.role (required rpc) = true
  own : Acts P ms (serve P metadata rpc) s → ∀ jobId claims job, rpc = .cancelJob jobId →
    bearer P metadata rpc = some claims → claims.role = "user" →
    ((ms 0).met P s).jobMgr.jobs.lookup jobId = some job → job.userId = claims.userId

/-- **The caller is entitled** to the call in a state: he has an accepted token
whose role has the permission, and if he is a user and cancels a job, it is his
own. -/
def Entitled (P : Platform Db Fs) (required : Rpc → Permission) (metadata : Metadata) (rpc : Rpc)
    (s : MasterState Db Fs) : Prop :=
  ∃ claims, bearer P metadata rpc = some claims ∧
    hasPermission claims.role (required rpc) = true ∧
    ∀ jobId job, rpc = .cancelJob jobId → claims.role = "user" →
      s.jobMgr.jobs.lookup jobId = some job → job.userId = claims.userId

/-- The record says already what a report with this status would make it say. -/
def SaysSo (now : ℤ) (status : JobStatus) (nodeId : String) (job : JobInfo) : Prop :=
  job.status = status ∧
    if status = .running then
      (nodeId = "" ∨ job.assignedNodeId = nodeId) ∧ (job.startedAt ≠ 0 ∨ now = 0)
    else job.completedAt = now

/-- The row of the request says already what would be written, or the write fails. -/
def RowSaysSo (J : JsonCodec) (e : Env) (req : JobRequest) (t : Tables) : Prop :=
  ∀ data row, J.print req = some data → e.sqliteOk = true →
    t.jobRequests.lookup (cStr req.requestId) = some row →
    row.status = req.status.toInt ∧ row.data = cStr data

/-- The job that would be submitted is there, with the identifier that is drawn. -/
def IsThere (e : Env) (spec : JobSpec) (userId username : String) (m : JobManager Tables) : Prop :=
  m.jobs.lookup (shortId "job-" e.uuid) =
      some (JobManager.newJob e.now (shortId "job-" e.uuid) spec userId username) ∧
    ∀ db, m.db = some db → e.sqliteOk = true →
      db.kvStore.lookup ("job:" ++ shortId "job-" e.uuid) = some "QUEUED"

/-- A review has nothing to change, once its request is read, in the state in which it decides:
it writes what the row says already, and an approval submits a job that is there. -/
def ReviewIdle (P : Platform Tables Fs) (ms : ℕ → Moment) (s : MasterState Tables Fs)
    (request : ReviewRequest) (req : JobRequest) : Prop :=
  if request.approve = true then
    IsThere (ms 0).env req.requestedSpec "public-user" req.applicantName s.jobMgr ∧
      RowSaysSo P.json (ms 1).env req
        ((ms 1).met P (s.exec P (ms 0).env
          (.job (.submitJob req.requestedSpec "public-user" req.applicantName))).2).adminDb
  else RowSaysSo P.json (ms 0).env req s.adminDb

/-- **The call has nothing to change and nothing to show** in the state its first
step meets. The later moments matter for the reviews only, which look at the clock
and write after they have read. -/
def Idle (E : SqlEngine) (P : Platform Tables Fs) (ms : ℕ → Moment) (s : MasterState Tables Fs) :
    Rpc → Prop
  | .createUser request =>
    StateStore.getKv E (ms 0).env.sqliteOk ("user:" ++ request.username) s.adminDb ≠ none
  | .getJobStatus jobId => s.jobMgr.jobs.lookup jobId = none
  | .cancelJob jobId =>
    ∀ job, s.jobMgr.jobs.lookup jobId = some job → job.status.isTerminal = true
  | .listJobs statusFilter =>
    ∀ j job, s.jobMgr.jobs.lookup j = some job →
      statusFilter ≠ .unspecified ∧ job.status ≠ statusFilter
  | .listNodes => ∀ n, s.nodeRegistry.nodes.lookup n = none
  | .adminListUsers => ∃ userList,
    StateStore.getKv E (ms 0).env.sqliteOk "system:user_list" s.adminDb = some userList ∧
      MasterService.splitUserList userList = []
  | .adminListRequests =>
    (ms 0).env.sqliteOk = true → ∀ k, s.adminDb.jobRequests.lookup k = none
  | .adminReviewRequest request =>
    let found := MasterService.findRequest request.requestId
      (StateStore.listRequests (ms 0).env.sqliteOk s.adminDb)
    found = "" ∨ ∀ req, P.json.parse found = some req →
      ReviewIdle P (fun n => ms (n + 2)) ((ms 2).met P ((ms 1).met P s)) request
        (MasterService.reviewed (ms 1).env.now request req)
  | .fetchJob request =>
    ∀ j job, s.jobMgr.jobs.lookup j = some job →
      ¬(job.status = .assigned ∧ job.assignedNodeId = request.nodeId)
  | .reportJobStarted request => ∀ job, s.jobMgr.jobs.lookup request.jobId = some job →
    SaysSo (ms 0).env.now .running request.nodeId job
  | .reportJobCompleted request => ∀ job, s.jobMgr.jobs.lookup request.jobId = some job →
    SaysSo (ms 0).env.now .completed request.nodeId job
  | .reportJobFailed request => ∀ job, s.jobMgr.jobs.lookup request.jobId = some job →
    SaysSo (ms 0).env.now .failed request.nodeId job
  | .adminDeleteUser _ | .unimplemented _ => True
  | _ => False

/-! ### When a step changes the state -/

theorem JobManager.cancelJob_fst {e : Env} {jobId : String} {m : JobManager Db} :
    (m.cancelJob e jobId).1 = true ↔
      ∃ job, m.jobs.lookup jobId = some job ∧ job.status.isTerminal = false := by
  rw [JobManager.cancelJob]
  cases m.jobs.lookup jobId with
  | none => simp
  | some job => cases h : job.status <;> simp [JobStatus.isTerminal, h]

theorem JobManager.updateJobStatus_fst {e : Env} {jobId : String} {status : JobStatus}
    {nodeId : String} {m : JobManager Db} :
    (m.updateJobStatus e jobId status nodeId).1 = true ↔ m.jobs.lookup jobId ≠ none := by
  rw [JobManager.updateJobStatus]
  cases m.jobs.lookup jobId <;> simp

/-- The statuses that a report carries. -/
def JobStatus.isReported : JobStatus → Bool
  | .running | .completed | .failed => true
  | _ => false

/-- **A report changes a record unless the record says so already.** -/
theorem JobManager.setStatus_eq_self_iff {now : ℤ} {status : JobStatus} {nodeId : String}
    {job : JobInfo} (h : status.isReported = true) :
    JobManager.setStatus now status nodeId job = job ↔ SaysSo now status nodeId job := by
  obtain ⟨⟩ := job
  cases status with
  | running =>
    simp only [JobManager.setStatus, SaysSo]
    split_ifs <;> simp_all <;> tauto
  | completed => simp [JobManager.setStatus, SaysSo, eq_comm]
  | failed => simp [JobManager.setStatus, SaysSo, eq_comm]
  | _ => cases h

section Changes

variable {P : Platform Tables Fs} {E : SqlEngine} {s : MasterState Tables Fs} {e : Env}

theorem same_updateJobStatus {jobId nodeId : String} {status : JobStatus}
    (h : status.isReported = true) :
    s.Same (s.exec P e (.job (.updateJobStatus jobId status nodeId))).2 ↔
      ∀ job, s.jobMgr.jobs.lookup jobId = some job → SaysSo e.now status nodeId job := by
  simp only [MasterState.exec_job, JobManager.exec, JobManager.updateJobStatus]
  cases hj : s.jobMgr.jobs.lookup jobId with
  | none => exact iff_of_true (.refl s) fun job hjob => by cases hjob
  | some job =>
    dsimp only
    rw [MasterState.same_of_jobs, Table.lookup_modify_eq_iff, hj]
    simp only [Option.some.injEq, forall_eq', JobManager.setStatus_eq_self_iff h]

/-- A job that is cancelled was not over. -/
theorem cancel_eq_self_iff {now : ℤ} {job : JobInfo} :
    JobManager.cancel now job = job ↔ job.status.isTerminal = true := by
  constructor
  · intro h
    rw [← h, JobManager.cancel]
    split_ifs with hover
    · rcases hover with h | h | h <;> rw [h] <;> rfl
    · rfl
  · exact JobManager.cancel_of_isTerminal

theorem same_cancelJob {jobId : String} :
    s.Same (s.exec P e (.job (.cancelJob jobId))).2 ↔
      ∀ job, s.jobMgr.jobs.lookup jobId = some job → job.status.isTerminal = true := by
  simp only [MasterState.exec_job, JobManager.exec, JobManager.cancelJob]
  cases hj : s.jobMgr.jobs.lookup jobId with
  | none => exact iff_of_true (.refl s) fun job hjob => by cases hjob
  | some job =>
    dsimp only
    split_ifs with hover
    · refine iff_of_true (.refl s) fun job' hjob' => ?_
      obtain rfl := Option.some.inj hjob'
      rcases hover with h | h | h <;> rw [h] <;> rfl
    · dsimp only
      rw [MasterState.same_of_jobs, Table.lookup_modify_eq_iff, hj]
      simp only [Option.some.injEq, forall_eq', cancel_eq_self_iff]

theorem same_updateRequestStatus (hP : P.store = sqlStore E) {id data : String} {status : ℤ} :
    s.Same (s.exec P e (.store (.updateRequestStatus id status data))).2 ↔
      (e.sqliteOk = true → ∀ row, s.adminDb.jobRequests.lookup (cStr id) = some row →
        row.status = status ∧ row.data = cStr data) := by
  simp only [MasterState.exec_store, hP, sqlStore, StateStore.updateRequestStatus]
  split_ifs with hok
  · have hrow (row : RequestRow) : { row with status := status, data := cStr data } = row ↔
        row.status = status ∧ row.data = cStr data := by
      obtain ⟨email, status', data'⟩ := row
      simp [eq_comm]
    simp only [hok, true_implies, ← hrow]
    rw [← Table.lookup_modify_eq_iff]
    exact ⟨fun h => h.adminDb.jobRequests,
      fun h => { MasterState.Same.refl s with adminDb := ⟨fun _ => rfl, h⟩ }⟩
  · exact iff_of_true (.refl s) fun h => absurd h hok

/-- **A submission changes the state** unless the job is there. -/
theorem same_submitJob (hP : P.store = sqlStore E) {spec : JobSpec} {userId username : String} :
    s.Same (s.exec P e (.job (.submitJob spec userId username))).2 ↔
      IsThere e spec userId username s.jobMgr := by
  have hdb : Option.Rel Tables.Same s.jobMgr.db
      (s.exec P e (.job (.submitJob spec userId username))).2.jobMgr.db ↔
        ∀ db, s.jobMgr.db = some db → e.sqliteOk = true →
          db.kvStore.lookup ("job:" ++ shortId "job-" e.uuid) = some "QUEUED" := by
    simp only [MasterState.exec_job, JobManager.exec, JobManager.submitJob, hP, sqlStore, setKv_job]
    cases s.jobMgr.db with
    | none => simp
    | some db =>
      cases e.sqliteOk with
      | false => simpa using Tables.Same.refl db
      | true =>
        simp only [Option.map_some, Option.rel_some_some, if_pos, Option.some.injEq, forall_eq',
          true_implies, ← Table.lookup_insert_eq_iff]
        exact ⟨fun h => h.kvStore, fun h => ⟨h, fun _ => rfl⟩⟩
  rw [IsThere, ← Table.lookup_insert_eq_iff, ← hdb]
  exact ⟨fun h => ⟨h.jobs, h.jobsDb⟩,
    fun h => { MasterState.Same.refl s with jobs := h.1, jobsDb := h.2 }⟩

end Changes

/-! ### When a call acts -/

theorem StateStore.listRequests_eq_nil {ok : Bool} {t : Tables} :
    StateStore.listRequests ok t = [] ↔ (ok = true → ∀ k, t.jobRequests.lookup k = none) := by
  cases ok with
  | false => simp [StateStore.listRequests]
  | true =>
    rw [List.eq_nil_iff_forall_not_mem]
    constructor
    · intro h _ k
      rw [Option.eq_none_iff_forall_ne_some]
      intro row hrow
      exact h (k, row.data) (StateStore.mem_listRequests.mpr ⟨row, hrow, rfl⟩)
    · rintro h p hp
      obtain ⟨row, hrow, -⟩ := StateStore.mem_listRequests.mp hp
      rw [h rfl] at hrow
      cases hrow

theorem AgentService.offered_hasJob {nodeId : String} {jobs : List JobInfo} :
    (AgentService.offered nodeId jobs).hasJob = true ↔
      ∃ job ∈ jobs, job.assignedNodeId = nodeId := by
  rw [AgentService.offered]
  cases h : jobs.find? fun job => job.assignedNodeId = nodeId with
  | none => simpa using h
  | some job =>
    have hnode : job.assignedNodeId = nodeId := by simpa using List.find?_some h
    exact ⟨fun _ => ⟨job, List.mem_of_find?_eq_some h, hnode⟩, fun _ => rfl⟩

section Acts

variable {P : Platform Tables Fs} {E : SqlEngine} {ms : ℕ → Moment} {s : MasterState Tables Fs}
  (metadata : Metadata)

/-- A query of the key-value table is a step that only reads. -/
theorem acts_getKv (hP : P.store = sqlStore E) {key : String}
    {k : Option String → MasterProg Reply} :
    Acts P ms (.call (.store (.getKv key)) k) s ↔
      Acts P (fun n => ms (n + 1))
        (k (StateStore.getKv E (ms 0).env.sqliteOk key ((ms 0).met P s).adminDb))
        ((ms 0).met P s) :=
  acts_read (by simp only [MasterState.exec_store, hP, sqlStore])

/-- So is a listing of the requests. -/
theorem acts_listRequests (hP : P.store = sqlStore E)
    {k : List (String × String) → MasterProg Reply} :
    Acts P ms (.call (.store .listRequests) k) s ↔
      Acts P (fun n => ms (n + 1))
        (k (StateStore.listRequests (ms 0).env.sqliteOk ((ms 0).met P s).adminDb))
        ((ms 0).met P s) :=
  acts_read (by simp only [MasterState.exec_store, hP, sqlStore])

/-- A user who is stored is shown. -/
theorem returns_storeUser (request : CreateUserRequest) :
    (MasterService.storeUser request).Returns fun r => ∃ info, r = .ok info := by
  refine .op_bind fun _ => .op_bind fun _ => .op_bind fun list => ?_
  dsimp only
  split
  · exact .op_bind fun _ => .op_bind fun now => ⟨_, rfl⟩
  · exact .op_bind fun now => ⟨_, rfl⟩

theorem acts_createUser (hP : P.store = sqlStore E) (request : CreateUserRequest) :
    Acts P ms ((Rpc.createUser request).handle P.json metadata) s ↔
      ¬Idle E P ms ((ms 0).met P s) (.createUser request) := by
  have hstored (ms : ℕ → Moment) (s : MasterState Tables Fs) :
      Acts P ms (Reply.ofExcept .userInfo <$> MasterService.storeUser request) s :=
    acts_of_returns (by rintro _ ⟨info, rfl⟩; rfl) (returns_storeUser request) ms s
  simp only [Rpc.handle, MasterService.createUser, Call.getKv, Prog.op_bind, Prog.call_map,
    acts_getKv hP, Idle]
  cases StateStore.getKv E (ms 0).env.sqliteOk ("user:" ++ request.username)
      ((ms 0).met P s).adminDb with
  | none => simp [hstored]
  | some pw => simp [Reply.ofExcept, Reply.reveals]

/-- So is the look at a job. -/
theorem acts_getJob {jobId : String} {k : Option JobInfo → MasterProg Reply} :
    Acts P ms (.call (.job (.getJob jobId)) k) s ↔
      Acts P (fun n => ms (n + 1)) (k (((ms 0).met P s).jobMgr.jobs.lookup jobId))
        ((ms 0).met P s) := acts_read rfl

/-- A job that is submitted stays, so its submission is answered with it. -/
theorem acts_submitJob (spec : JobSpec) :
    Acts P ms ((Rpc.submitJob spec).handle P.json metadata) s := by
  simp only [Rpc.handle, MasterService.submitJob, Call.submitJob, Call.getJob, Prog.op_bind,
    Prog.call_map]
  refine Or.inr ?_
  rw [acts_getJob]
  set user := MasterService.callerName metadata
  set r := ((ms 0).met P s).exec P (ms 0).env (.job (.submitJob spec user user)) with hr
  have hthere : ((ms 1).met P r.2).jobMgr.jobs.lookup r.1 ≠ none := by
    refine Moment.lookup_met_ne_none ?_
    rw [hr, MasterState.exec_job, JobManager.exec_submitJob_jobs]
    simp [JobManager.exec, JobManager.submitJob]
  obtain ⟨job, hjob⟩ := Option.ne_none_iff_exists'.mp hthere
  rw [zero_add, hjob]
  rfl

theorem acts_getJobStatus (jobId : String) :
    Acts P ms ((Rpc.getJobStatus jobId).handle P.json metadata) s ↔
      ¬Idle E P ms ((ms 0).met P s) (.getJobStatus jobId) := by
  simp only [Rpc.handle, MasterService.getJobStatus, Call.getJob, Prog.op_bind, Prog.call_map,
    acts_getJob, Idle]
  cases ((ms 0).met P s).jobMgr.jobs.lookup jobId <;> simp [Reply.ofExcept, Reply.reveals]

theorem acts_cancelJob (jobId : String) :
    Acts P ms ((Rpc.cancelJob jobId).handle P.json metadata) s ↔
      ¬Idle E P ms ((ms 0).met P s) (.cancelJob jobId) := by
  refine (or_iff_left ?_).trans (not_congr same_cancelJob)
  exact Bool.false_ne_true

theorem acts_listJobs (statusFilter : JobStatus) :
    Acts P ms ((Rpc.listJobs statusFilter).handle P.json metadata) s ↔
      ¬Idle E P ms ((ms 0).met P s) (.listJobs statusFilter) := by
  have hreveals : Acts P ms ((Rpc.listJobs statusFilter).handle P.json metadata) s ↔
      (!(((ms 0).met P s).jobMgr.listJobs (ms 0).env statusFilter).isEmpty) = true := acts_read rfl
  rw [hreveals, Bool.not_eq_true', Bool.eq_false_iff, not_iff_not, List.isEmpty_iff,
    List.eq_nil_iff_forall_not_mem]
  simp only [Idle, JobManager.mem_listJobs, not_and, not_or]
  constructor
  · intro h j job hj
    exact h job ⟨j, hj⟩
  · rintro h job ⟨j, hj⟩
    exact h j job hj

theorem acts_listNodes :
    Acts P ms (Rpc.listNodes.handle P.json metadata) s ↔
      ¬Idle E P ms ((ms 0).met P s) .listNodes := by
  have hreveals : Acts P ms (Rpc.listNodes.handle P.json metadata) s ↔
      (!(((ms 0).met P s).nodeRegistry.getAllNodes (ms 0).env).isEmpty) = true := acts_read rfl
  rw [hreveals, Bool.not_eq_true', Bool.eq_false_iff, not_iff_not, List.isEmpty_iff,
    List.eq_nil_iff_forall_not_mem]
  simp only [Idle, NodeRegistry.mem_getAllNodes, not_exists, Option.eq_none_iff_forall_ne_some]
  exact forall_comm

/-- The accounts are shown if there are any. -/
theorem acts_listRoles (users : List String) :
    Acts P ms (Reply.users <$> MasterService.listRoles users) s ↔ users ≠ [] := by
  cases users with
  | nil => simp [MasterService.listRoles, Reply.reveals]
  | cons uname users =>
    have hreturns : (MasterService.listRoles (uname :: users)).Returns fun us => us ≠ [] :=
      .op_bind fun role => (Prog.returns_true _).bind fun rest _ => List.cons_ne_nil _ _
    refine iff_of_true (acts_of_returns (fun us hus => ?_) hreturns ms s) (List.cons_ne_nil _ _)
    simpa [Reply.reveals] using hus

theorem acts_adminListUsers (hP : P.store = sqlStore E) :
    Acts P ms (Rpc.adminListUsers.handle P.json metadata) s ↔
      ¬Idle E P ms ((ms 0).met P s) .adminListUsers := by
  simp only [Rpc.handle, MasterService.adminListUsers, Call.getKv, Prog.op_bind, Prog.call_map,
    acts_getKv hP, acts_listRoles, Idle]
  cases StateStore.getKv E (ms 0).env.sqliteOk "system:user_list" ((ms 0).met P s).adminDb <;> simp

theorem acts_adminListRequests (hP : P.store = sqlStore E) :
    Acts P ms (Rpc.adminListRequests.handle P.json metadata) s ↔
      ¬Idle E P ms ((ms 0).met P s) .adminListRequests := by
  have hreveals : Acts P ms (Rpc.adminListRequests.handle P.json metadata) s ↔
      (!(StateStore.listRequests (ms 0).env.sqliteOk ((ms 0).met P s).adminDb).isEmpty) = true := by
    simp only [Rpc.handle, MasterService.adminListRequests, Call.listRequests, Prog.op_bind,
      Prog.call_map, Prog.pure_eq, Prog.ret_map, acts_listRequests hP, acts_ret, Reply.reveals,
      List.isEmpty_map]
  rw [hreveals, Bool.not_eq_true', Bool.eq_false_iff, not_iff_not, List.isEmpty_iff, Idle,
    StateStore.listRequests_eq_nil]

theorem acts_fetchJob (request : FetchJobRequest) :
    Acts P ms ((Rpc.fetchJob request).handle P.json metadata) s ↔
      ¬Idle E P ms ((ms 0).met P s) (.fetchJob request) := by
  have hreveals : Acts P ms ((Rpc.fetchJob request).handle P.json metadata) s ↔
      (AgentService.offered request.nodeId
        (((ms 0).met P s).jobMgr.listJobs (ms 0).env .assigned)).hasJob = true := acts_read rfl
  rw [hreveals, AgentService.offered_hasJob, Idle]
  push Not
  simp only [JobManager.mem_listJobs]
  constructor
  · rintro ⟨job, ⟨⟨j, hj⟩, hst⟩, hnode⟩
    exact ⟨j, job, hj, hst.resolve_left (fun h => by cases h), hnode⟩
  · rintro ⟨j, job, hj, hst, hnode⟩
    exact ⟨job, ⟨⟨j, hj⟩, Or.inr hst⟩, hnode⟩

/-- A report is stored unless the record says so already. -/
theorem acts_report (jobId : String) {status : JobStatus} (nodeId : String)
    (h : status.isReported = true) :
    Acts P ms (Reply.status <$> AgentService.report jobId status nodeId) s ↔
      ¬∀ job, ((ms 0).met P s).jobMgr.jobs.lookup jobId = some job →
        SaysSo (ms 0).env.now status nodeId job := by
  refine (or_iff_left ?_).trans (not_congr (same_updateJobStatus h))
  exact Bool.false_ne_true

/-- A decision is stored unless the row says so already. -/
theorem acts_storeReview (hP : P.store = sqlStore E) (request : ReviewRequest) (req : JobRequest) :
    Acts P ms (Reply.ofExcept .status <$> MasterService.storeReview P.json request req) s ↔
      ¬RowSaysSo P.json (ms 0).env req ((ms 0).met P s).adminDb := by
  rw [MasterService.storeReview]
  cases hd : P.json.print req with
  | none => simp [RowSaysSo, hd, Reply.ofExcept, Reply.reveals]
  | some data =>
    simp only [Call.updateRequestStatus, Prog.op_bind, Prog.call_map]
    refine (or_iff_left Bool.false_ne_true).trans (not_congr ?_)
    rw [same_updateRequestStatus hP]
    simp only [RowSaysSo, hd, Option.some.injEq]
    exact ⟨fun h _ row hdata hok hrow => hdata ▸ h hok row hrow, fun h hok row hrow =>
      h data row rfl hok hrow⟩

/-- An approval submits the job before the decision is written. -/
theorem acts_decideReview (hP : P.store = sqlStore E) (request : ReviewRequest)
    (req : JobRequest) :
    Acts P ms (Reply.ofExcept .status <$> MasterService.decideReview P.json request req) s ↔
      ¬ReviewIdle P (fun n => ms (n + 1)) ((ms 1).met P ((ms 0).met P s)) request
        (MasterService.reviewed (ms 0).env.now request req) := by
  simp only [MasterService.decideReview, Call.now, Prog.op_bind, Prog.call_map]
  rw [acts_read rfl]
  cases ha : request.approve with
  | false =>
    simp only [if_neg Bool.false_ne_true]
    rw [acts_storeReview hP, ReviewIdle, if_neg (by rw [ha]; exact Bool.false_ne_true)]
  | true =>
    simp only [if_pos, Call.submitJob, Prog.op_bind, Prog.call_map]
    rw [acts_call, acts_storeReview hP, same_submitJob hP, ReviewIdle, if_pos ha, not_and_or]
    rfl

theorem acts_adminReviewRequest (hP : P.store = sqlStore E) (request : ReviewRequest) :
    Acts P ms ((Rpc.adminReviewRequest request).handle P.json metadata) s ↔
      ¬Idle E P ms ((ms 0).met P s) (.adminReviewRequest request) := by
  simp only [Rpc.handle, MasterService.adminReviewRequest, Call.listRequests, Prog.op_bind,
    Prog.call_map, acts_listRequests hP, MasterService.reviewFound, Idle]
  split_ifs with hfound
  · simp [hfound, Reply.ofExcept, Reply.reveals]
  · cases hp : P.json.parse (MasterService.findRequest request.requestId
        (StateStore.listRequests (ms 0).env.sqliteOk ((ms 0).met P s).adminDb)) with
    | none => simp [Reply.ofExcept, Reply.reveals]
    | some req =>
      rw [acts_decideReview hP]
      simp only [hfound, false_or, Option.some.injEq, forall_eq']

/-- **A call acts unless it is idle.** -/
theorem acts_iff (hP : P.store = sqlStore E) {rpc : Rpc} (hpub : rpc.method ∉ publicMethods) :
    Acts P ms (serve P metadata rpc) s ↔ ¬Idle E P ms ((ms 0).met P s) rpc := by
  rw [serve_eq_handle]
  cases rpc with
  | createUser request => exact acts_createUser metadata hP request
  | submitJob spec => exact iff_of_true (acts_submitJob metadata spec) id
  | getJobStatus jobId => exact acts_getJobStatus metadata jobId
  | cancelJob jobId => exact acts_cancelJob metadata jobId
  | listJobs statusFilter => exact acts_listJobs metadata statusFilter
  | listNodes => exact acts_listNodes metadata
  | adminListUsers => exact acts_adminListUsers metadata hP
  | adminDeleteUser userId =>
    refine iff_of_false ?_ fun h => h trivial
    rw [Rpc.handle, MasterService.adminDeleteUser]
    split <;> exact Bool.false_ne_true
  | adminListRequests => exact acts_adminListRequests metadata hP
  | adminReviewRequest request => exact acts_adminReviewRequest metadata hP request
  | fetchJob request => exact acts_fetchJob metadata request
  | reportJobStarted request => exact acts_report _ _ rfl
  | reportJobCompleted request => exact acts_report _ _ rfl
  | reportJobFailed request => exact acts_report _ _ rfl
  | unimplemented method => exact iff_of_false Bool.false_ne_true fun h => h trivial
  | login => exact absurd (by simp [Rpc.method, publicMethods]) hpub
  | submitPublicRequest request => exact absurd (by simp [Rpc.method, publicMethods]) hpub
  | updateJobRequest request => exact absurd (by simp [Rpc.method, publicMethods]) hpub
  | registerNode request => exact absurd (by simp [Rpc.method, publicMethods]) hpub
  | sendHeartbeat request => exact absurd (by simp [Rpc.method, publicMethods]) hpub

end Acts

/-- **When a call is authorised**: for every call that is not public, every
state, every choice of the permissions, and whatever the other threads do, the
call is authorised exactly if it is idle or its caller is entitled. -/
theorem authorised_iff {P : Platform Tables Fs} {E : SqlEngine} (hP : P.store = sqlStore E)
    (required : Rpc → Permission) (metadata : Metadata) {rpc : Rpc}
    (hpub : rpc.method ∉ publicMethods) (ms : ℕ → Moment) (s : MasterState Tables Fs) :
    Authorised P required metadata rpc ms s ↔
      Idle E P ms ((ms 0).met P s) rpc ∨ Entitled P required metadata rpc ((ms 0).met P s) := by
  have hacts : Acts P ms (serve P metadata rpc) s ↔ ¬Idle E P ms ((ms 0).met P s) rpc :=
    acts_iff metadata hP hpub
  constructor
  · rintro ⟨hpermitted, hown⟩
    by_cases hidle : Idle E P ms ((ms 0).met P s) rpc
    · exact Or.inl hidle
    · have ha := hacts.mpr hidle
      obtain ⟨claims, hclaims, hperm⟩ := hpermitted ha
      refine Or.inr ⟨claims, hclaims, hperm, fun jobId job hrpc huser hjob => ?_⟩
      exact hown ha jobId claims job hrpc hclaims huser hjob
  · rintro (hidle | ⟨claims, hclaims, hperm, howns⟩)
    · exact ⟨fun ha => absurd hidle (hacts.mp ha), fun ha => absurd hidle (hacts.mp ha)⟩
    · refine ⟨fun _ => ⟨claims, hclaims, hperm⟩, ?_⟩
      intro _ jobId claims' job hrpc hclaims' huser hjob
      obtain rfl := Option.some.inj (hclaims.symm.trans hclaims')
      exact howns jobId job hrpc huser hjob

/-- The law at work: without any token, a caller lists the nodes of a cluster that
has none. -/
theorem authorised_iff_listNodes :
    Authorised sqlPlatform (fun _ => .nodeView) [] .listNodes (fun _ => {})
      (masterStart none {} ()).state := by
  refine (authorised_iff rfl _ _ (by simp [Rpc.method, publicMethods]) _ _).mpr (Or.inl ?_)
  exact fun n => rfl

/-- **Anyone creates an administrator**: a call of `CreateUser` without any
metadata is not authorised, whatever permission it needs, and it stores the
account. -/
theorem anyone_creates_admin :
    ¬Authorised sqlPlatform (fun _ => .userCreate) []
        (.createUser { username := "eve", password := "p1", role := .admin }) (fun _ => {})
        (masterStart none {} ()).state ∧
      Acts sqlPlatform (fun _ => {})
        (serve sqlPlatform []
          (.createUser { username := "eve", password := "p1", role := .admin }))
        (masterStart none {} ()).state := by
  have hacts : Acts sqlPlatform (fun _ => {})
      (serve sqlPlatform [] (.createUser { username := "eve", password := "p1", role := .admin }))
      (masterStart none {} ()).state := by
    refine (acts_iff (E := .refusing) [] rfl (by simp [Rpc.method, publicMethods])).mpr ?_
    have hnone : StateStore.getKv .refusing true ("user:" ++ "eve") {} = none := by decide +kernel
    exact not_not_intro hnone
  refine ⟨fun h => ?_, hacts⟩
  obtain ⟨claims, hclaims, -⟩ := h.permitted hacts
  exact absurd hclaims (by simp [bearer, intercept, Rpc.method, publicMethods])

end CertOS
