import CertOS.Master.Submissions

/-!
# The database of the job manager

A submission writes the status of the new job to the database, under the key `job:` and the
identifier of the job. It is the only write: a job that is assigned, reported, cancelled or
failed gets its new status in the table alone, and the database goes on saying `QUEUED`
(`CertOS.JobManager.SaysQueued`).

So the database mirrors the table (`CertOS.JobManager.Mirrored`) as long as all jobs are in
the queue, and no longer (`CertOS.JobManager.mirrored_iff`).
-/

namespace CertOS

/-- The name of a status: its constant, less `JOB_STATUS_`. -/
def JobStatus.name : JobStatus → String
  | .unspecified => "UNSPECIFIED"
  | .submitted => "SUBMITTED"
  | .queued => "QUEUED"
  | .assigned => "ASSIGNED"
  | .running => "RUNNING"
  | .completed => "COMPLETED"
  | .failed => "FAILED"
  | .cancelled => "CANCELLED"
  | .preempted => "PREEMPTED"

theorem JobStatus.name_eq_queued {status : JobStatus} :
    status.name = "QUEUED" ↔ status = .queued := by
  cases status <;> decide

namespace JobManager

/-- What the database says about a job. -/
def storedStatus (m : JobManager Tables) (j : String) : Option String :=
  m.db.bind fun db => (idealStore.exec true (.getKv ("job:" ++ j)) db).1

/-- **The database mirrors the table**: for every job it names the status of the job. -/
def Mirrored (m : JobManager Tables) : Prop :=
  ∀ j info, m.getJob j = some info → m.storedStatus j = some info.status.name

/-- What the database says about every job, as the submission has left it. -/
def SaysQueued (m : JobManager Tables) : Prop :=
  ∀ j info, m.getJob j = some info → m.storedStatus j = some "QUEUED"

/-- All jobs are in the queue. -/
def AllQueued (m : JobManager Tables) : Prop :=
  ∀ j info, m.getJob j = some info → info.status = .queued

/-- The call takes a job of the table out of the queue. -/
def unqueues (m : JobManager Tables) : JobOp → Bool
  | .updateJobStatus jobId status _ => (m.getJob jobId).isSome && status ≠ .queued
  | .cancelJob jobId => (m.getJob jobId).isSome
  | _ => false

/-- The job manager when it starts on a database. -/
def start (db : Tables) : JobManager Tables := { db := some db }

/-! ### What the database says -/

theorem job_key_injective {j k : String} (h : "job:" ++ j = "job:" ++ k) : j = k := by
  have hl := congrArg String.toList h
  rw [String.toList_append, String.toList_append] at hl
  exact String.toList_inj.mp (List.append_cancel_left hl)

/-- A submission writes one entry of the database. -/
theorem storedStatus_submitJob {e : Env} (hok : e.sqliteOk = true) (m : JobManager Tables)
    (spec : JobSpec) (userId username j : String) :
    (m.exec idealStore e (.submitJob spec userId username)).2.storedStatus j =
      if j = shortId "job-" e.uuid then m.db.map fun _ => "QUEUED" else m.storedStatus j := by
  obtain ⟨jobs, db⟩ := m
  cases db with
  | none => simp [storedStatus, exec, submitJob]
  | some db =>
    simp only [storedStatus, exec, submitJob, idealStore, hok, if_true, Option.map_some,
      Option.bind_some, Table.lookup_insert]
    by_cases h : j = shortId "job-" e.uuid
    · rw [if_pos h, if_pos (by rw [h])]
    · rw [if_neg h, if_neg fun hk => h (job_key_injective hk)]

/-- No other call writes the database. -/
theorem db_exec (e : Env) (m : JobManager Tables) {op : JobOp} (h : op.isSubmit = false) :
    (m.exec idealStore e op).2.db = m.db := by
  cases op with
  | submitJob => cases h
  | updateJobStatus jobId status nodeId =>
    simp only [exec, updateJobStatus]
    split <;> rfl
  | cancelJob jobId =>
    simp only [exec, cancelJob]
    split
    · rfl
    · split <;> rfl
  | _ => rfl

/-- **One call keeps what the database says.** -/
theorem SaysQueued.exec {e : Env} (hok : e.sqliteOk = true) {m : JobManager Tables}
    (h : m.SaysQueued) (hdb : m.db.isSome = true) (op : JobOp) :
    (m.exec idealStore e op).2.SaysQueued ∧ (m.exec idealStore e op).2.db.isSome = true := by
  cases hs : op.isSubmit with
  | true =>
    cases op with
    | submitJob spec userId username =>
      obtain ⟨db, hdb⟩ := Option.isSome_iff_exists.mp hdb
      refine ⟨fun j info hj => ?_, by simp [JobManager.exec, submitJob, hdb]⟩
      rw [storedStatus_submitJob hok, hdb]
      split
      · rfl
      · rename_i hne
        refine h j info ?_
        exact (lookup_submitJob_of_ne idealStore e m spec userId username hne).symm.trans hj
    | _ => cases hs
  | false =>
    have hsame := db_exec e m hs
    refine ⟨fun j info hj => ?_, hsame ▸ hdb⟩
    have hl := (lookup_exec idealStore e m hs j).symm.trans hj
    obtain ⟨info₀, hj₀, -⟩ := Option.map_eq_some_iff.mp hl
    rw [storedStatus, hsame]
    exact h j info₀ hj₀

/-- In every state of a run on a working database, the database says of every job that it is
in the queue. -/
theorem saysQueued_run (db : Tables) {calls : List (Env × JobOp)}
    (hok : ∀ call ∈ calls, call.1.sqliteOk = true) :
    (run idealStore calls (start db)).SaysQueued ∧
      (run idealStore calls (start db)).db.isSome = true := by
  induction calls using List.reverseRecOn with
  | nil =>
    refine ⟨fun j info hj => ?_, rfl⟩
    cases hj
  | append_singleton calls call ih =>
    rw [run_concat]
    obtain ⟨hsaid, hdb⟩ := ih fun c hc => hok c (List.mem_append_left _ hc)
    exact hsaid.exec (hok call (List.mem_append_right _ List.mem_cons_self)) hdb call.2

/-- Where the database says `QUEUED` of every job, it mirrors the table when the jobs are in
the queue. -/
theorem SaysQueued.mirrored_iff_allQueued {m : JobManager Tables} (h : m.SaysQueued) :
    m.Mirrored ↔ m.AllQueued := by
  refine forall_congr' fun j => forall_congr' fun info => forall_congr' fun hj => ?_
  rw [h j info hj, Option.some.injEq, eq_comm, JobStatus.name_eq_queued]

/-! ### The jobs in the queue -/

/-- A call that takes no job out of the queue leaves all jobs there. -/
theorem AllQueued.exec {e : Env} {m : JobManager Tables} (h : m.AllQueued) {op : JobOp}
    (hop : m.unqueues op = false) : (m.exec idealStore e op).2.AllQueued := by
  intro j info hj
  cases hs : op.isSubmit with
  | true =>
    cases op with
    | submitJob spec userId username =>
      rw [getJob, exec_submitJob_jobs, Table.lookup_insert] at hj
      split at hj
      · obtain rfl := Option.some.inj hj
        rfl
      · exact h j info hj
    | _ => cases hs
  | false =>
    have hl := (lookup_exec idealStore e m hs j).symm.trans hj
    obtain ⟨info₀, hj₀, rfl⟩ := Option.map_eq_some_iff.mp hl
    have hq := h j info₀ hj₀
    cases op with
    | submitJob => cases hs
    | updateJobStatus jobId status nodeId =>
      rw [JobOp.touch]
      split
      · rename_i hid
        subst hid
        have hst : status = .queued := by simpa [unqueues, getJob, hj₀] using hop
        rw [setStatus_status, hst]
      · exact hq
    | failJobsOnNode nodeId => simp [JobOp.touch, failOnNode, hq]
    | cancelJob jobId =>
      rw [JobOp.touch]
      split
      · rename_i hid
        subst hid
        simp [unqueues, getJob, hj₀] at hop
      · exact hq
    | _ => exact hq

/-- A call that takes a job out of the queue does. -/
theorem AllQueued.not_exec {e : Env} {m : JobManager Tables} (h : m.AllQueued) {op : JobOp}
    (hop : m.unqueues op = true) : ¬ (m.exec idealStore e op).2.AllQueued := by
  intro hall
  cases op with
  | updateJobStatus jobId status nodeId =>
    obtain ⟨hknown, hne⟩ : (m.getJob jobId).isSome = true ∧ status ≠ .queued := by
      simpa [unqueues] using hop
    obtain ⟨info, hj⟩ := Option.isSome_iff_exists.mp hknown
    refine hne ((setStatus_status e.now status nodeId info).symm.trans (hall jobId _ ?_))
    rw [getJob, lookup_updateJobStatus]
    exact congrArg (Option.map _) hj
  | cancelJob jobId =>
    obtain ⟨info, hj⟩ := Option.isSome_iff_exists.mp hop
    have hl : (m.exec idealStore e (.cancelJob jobId)).2.getJob jobId =
        some (cancel e.now info) := by
      rw [getJob, lookup_exec idealStore e m rfl]
      refine (congrArg (Option.map _) hj).trans ?_
      simp [JobOp.touch]
    have hq := hall jobId _ hl
    simp [cancel, h jobId info hj] at hq
  | _ => cases hop

/-- **The database mirrors the table** in every state of a run on a working database, if and
only if no call of the run takes a job of the table out of the queue. -/
theorem mirrored_iff (db : Tables) {calls : List (Env × JobOp)}
    (hok : ∀ call ∈ calls, call.1.sqliteOk = true) :
    (∀ before after, calls = before ++ after → (run idealStore before (start db)).Mirrored) ↔
      ∀ before call after, calls = before ++ call :: after →
        (run idealStore before (start db)).unqueues call.2 = false := by
  have hsaid {before after : List (Env × JobOp)} (h : calls = before ++ after) :
      (run idealStore before (start db)).SaysQueued :=
    (saysQueued_run db fun c hc => hok c (by simp [h, hc])).1
  constructor
  · intro h before call after hcalls
    by_contra hop
    rw [Bool.not_eq_false] at hop
    have hall := (hsaid hcalls).mirrored_iff_allQueued.mp (h before _ hcalls)
    have hnext : calls = (before ++ [call]) ++ after := by simp [hcalls]
    have hall' := (hsaid hnext).mirrored_iff_allQueued.mp (h _ _ hnext)
    rw [run_concat] at hall'
    exact hall.not_exec hop hall'
  · intro h before after hcalls
    rw [(hsaid hcalls).mirrored_iff_allQueued]
    induction before using List.reverseRecOn generalizing after with
    | nil =>
      intro j info hj
      cases hj
    | append_singleton before call ih =>
      have hsplit : calls = before ++ call :: after := by simp [hcalls]
      rw [run_concat]
      exact (ih _ hsplit).exec (h before call after hsplit)

/-- A job is submitted, and looked at. -/
def submitAndLook : List (Env × JobOp) :=
  [({ now := 100 }, .submitJob { command := "a.out" } "ann" "ann"),
    ({ now := 101 }, .getJob "job-00000000")]

/-- The law at work: nothing of this takes the job out of the queue. -/
theorem mirrored_submitAndLook :
    (run idealStore submitAndLook (start {})).storedStatus "job-00000000" = some "QUEUED" ∧
      (run idealStore submitAndLook (start {})).Mirrored := by
  have hok : ∀ call ∈ submitAndLook, call.1.sqliteOk = true := by decide
  refine ⟨by decide, (mirrored_iff {} hok).mpr ?_ submitAndLook [] (List.append_nil _).symm⟩
  intro before call after h
  have hmem : call ∈ submitAndLook := by simp [h]
  simp only [submitAndLook, List.mem_cons, List.not_mem_nil, or_false] at hmem
  rcases hmem with rfl | rfl <;> rfl

/-- A job is submitted, and assigned to a node. -/
def submitAndAssign : List (Env × JobOp) :=
  [({ now := 100 }, .submitJob { command := "a.out" } "ann" "ann"),
    ({ now := 101 }, .updateJobStatus "job-00000000" .assigned "node-00000000")]

/-- **The database is stale**: the job is assigned, and the database says that it is in the
queue. -/
theorem database_stale : ¬ (run idealStore submitAndAssign (start {})).Mirrored := by
  rw [(saysQueued_run {} (by decide)).1.mirrored_iff_allQueued]
  intro h
  have hst : ((run idealStore submitAndAssign (start {})).getJob "job-00000000").map
      JobInfo.status = some .assigned := by decide
  obtain ⟨info, hj, hi⟩ := Option.map_eq_some_iff.mp hst
  exact absurd (hi.symm.trans (h _ info hj)) (by decide)

end JobManager

end CertOS
