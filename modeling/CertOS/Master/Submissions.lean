import CertOS.Master.JobManager
import Mathlib.Data.List.Induction

/-!
# The record of a submission

A submission leaves a record in the job table: the specification, the user and the time of
the call. No method but a submission writes these fields (`CertOS.JobManager.touch_data`),
so along a run of the job manager they can change in one way only: a later submission draws
the identifier of the job again, and replaces the record without a look at it.

`CertOS.JobManager.run` is a run, one call after the other; the law that every submission
keeps its record is `CertOS.JobManager.KeepsSubmissions`, and the sequences of calls that
have it are those in which two submissions that draw one identifier are the same submission
(`CertOS.JobManager.keepsSubmissions_iff`).
-/

namespace CertOS

/-- What a record keeps of its submission. -/
structure SubmissionData where
  spec : JobSpec
  userId : String
  username : String
  submittedAt : ℤ
  deriving DecidableEq

/-- The data of the submission a record stems from. -/
def JobInfo.data (info : JobInfo) : SubmissionData where
  spec := info.spec
  userId := info.userId
  username := info.username
  submittedAt := info.submittedAt

namespace JobManager

variable {Db : Type} (B : StoreBackend Db)

/-! ### Runs -/

/-- The state after a sequence of calls, each in its own environment. -/
def run (calls : List (Env × JobOp)) (m : JobManager Db) : JobManager Db :=
  calls.foldl (fun m call => (m.exec B call.1 call.2).2) m

@[simp] theorem run_nil (m : JobManager Db) : run B [] m = m := rfl

theorem run_concat (calls : List (Env × JobOp)) (call : Env × JobOp) (m : JobManager Db) :
    run B (calls ++ [call]) m = ((run B calls m).exec B call.1 call.2).2 := by
  simp [run]

theorem run_append_cons (before after : List (Env × JobOp)) (call : Env × JobOp)
    (m : JobManager Db) : run B (before ++ call :: after) m =
      run B after ((run B before m).exec B call.1 call.2).2 := by
  simp [run]

variable {B} in
/-- The records stay under their identifiers along a run. -/
theorem keyed_run {m : JobManager Db} (hk : m.Keyed) (calls : List (Env × JobOp)) :
    (run B calls m).Keyed := by
  induction calls using List.reverseRecOn with
  | nil => exact hk
  | append_singleton calls call ih =>
    rw [run_concat]
    exact Keyed.exec B call.1 ih call.2

/-! ### The record along a run -/

/-- **No sweep changes the data of a submission.** -/
theorem touch_data (now : ℤ) (op : JobOp) (j : String) (info : JobInfo) :
    (op.touch now j info).data = info.data := by
  cases op with
  | updateJobStatus jobId status nodeId =>
    rw [JobOp.touch]
    split
    · simp only [setStatus]
      split_ifs <;> rfl
    · rfl
  | failJobsOnNode nodeId =>
    rw [JobOp.touch, failOnNode]
    split <;> rfl
  | cancelJob jobId =>
    rw [JobOp.touch, cancel]
    split_ifs <;> rfl
  | _ => rfl

/-- The identifier a call draws and the data it leaves with it, if it is a submission. -/
def submitted : Env × JobOp → Option (String × SubmissionData)
  | (e, .submitJob spec userId username) =>
    some (shortId "job-" e.uuid, ⟨spec, userId, username, e.now⟩)
  | _ => none

/-- The table has a record with this data under this identifier. -/
def Records (m : JobManager Db) (j : String) (d : SubmissionData) : Prop :=
  ∃ info, m.getJob j = some info ∧ info.data = d

variable {B}

/-- There is one record under an identifier. -/
theorem Records.eq {m : JobManager Db} {j : String} {d d' : SubmissionData}
    (h : m.Records j d) (h' : m.Records j d') : d = d' := by
  obtain ⟨info, hj, rfl⟩ := h
  obtain ⟨info', hj', rfl⟩ := h'
  obtain rfl := Option.some.inj (hj.symm.trans hj')
  rfl

/-- A submission leaves its data under the identifier that it draws. -/
theorem records_of_submitted {call : Env × JobOp} {j : String} {d : SubmissionData}
    (h : submitted call = some (j, d)) (m : JobManager Db) :
    (m.exec B call.1 call.2).2.Records j d := by
  obtain ⟨e, op⟩ := call
  cases op with
  | submitJob spec userId username =>
    cases h
    exact ⟨_, AList.lookup_insert _, rfl⟩
  | _ => cases h

/-- **One call keeps a record**, unless it is a submission of something else under the same
identifier. -/
theorem Records.exec {m : JobManager Db} {j : String} {d : SubmissionData} (h : m.Records j d)
    {call : Env × JobOp} (hcall : ∀ d', submitted call = some (j, d') → d' = d) :
    (m.exec B call.1 call.2).2.Records j d := by
  obtain ⟨info, hj, hd⟩ := h
  obtain ⟨e, op⟩ := call
  cases hs : op.isSubmit with
  | true =>
    cases op with
    | submitJob spec userId username =>
      by_cases hid : j = shortId "job-" e.uuid
      · -- the record is replaced by one with the same data
        subst hid
        obtain rfl := hcall _ rfl
        exact ⟨_, AList.lookup_insert _, rfl⟩
      · exact ⟨info, (lookup_submitJob_of_ne B e m spec userId username hid).trans hj, hd⟩
    | _ => cases hs
  | false =>
    have hl : (m.exec B e op).2.jobs.lookup j = some (op.touch e.now j info) := by
      rw [lookup_exec B e m hs]
      exact congrArg (Option.map _) hj
    exact ⟨_, hl, (touch_data e.now op j info).trans hd⟩

/-- A sequence of calls keeps a record, if every submission of it that draws the same
identifier is the same. -/
theorem Records.run {m : JobManager Db} {j : String} {d : SubmissionData} (h : m.Records j d)
    {calls : List (Env × JobOp)} (hcalls : ∀ call ∈ calls, ∀ d', submitted call = some (j, d') →
      d' = d) : (JobManager.run B calls m).Records j d := by
  induction calls using List.reverseRecOn with
  | nil => exact h
  | append_singleton calls call ih =>
    rw [run_concat]
    have hbefore := ih fun c hc => hcalls c (List.mem_append_left _ hc)
    exact hbefore.exec (hcalls call (List.mem_append_right _ List.mem_cons_self))

/-- **A submission leaves its record behind**, as long as every later submission that draws the
same identifier is the same. -/
theorem records_run {m : JobManager Db} {j : String} {d : SubmissionData}
    {before after : List (Env × JobOp)} {call : Env × JobOp} (hs : submitted call = some (j, d))
    (hafter : ∀ call ∈ after, ∀ d', submitted call = some (j, d') → d' = d) :
    (JobManager.run B (before ++ call :: after) m).Records j d := by
  rw [run_append_cons]
  exact (records_of_submitted hs _).run hafter

/-! ### The law -/

variable (B)

/-- **Every submission keeps its record**: in the state after a submission and any number
of the calls that follow it, `get_job` finds, under the identifier that the submission
returned, a job with the data of the submission. -/
def KeepsSubmissions (m : JobManager Db) (calls : List (Env × JobOp)) : Prop :=
  ∀ before e spec userId username mid after,
    calls = before ++ (e, .submitJob spec userId username) :: mid ++ after →
    ∃ info, (run B (before ++ (e, .submitJob spec userId username) :: mid) m).getJob
        ((run B before m).submitJob B e spec userId username).1 = some info ∧
      info.spec = spec ∧ info.userId = userId ∧ info.username = username ∧
      info.submittedAt = e.now

/-- **The draws identify the submissions**: two submissions that draw one identifier are
the same submission, made in the same second. -/
def DrawsIdentify (calls : List (Env × JobOp)) : Prop :=
  ∀ call ∈ calls, ∀ call' ∈ calls, ∀ j d d', submitted call = some (j, d) →
    submitted call' = some (j, d') → d = d'

variable {B} {m : JobManager Db} {calls : List (Env × JobOp)}

/-- The state after a submission and some more calls has its record, if every submission
keeps its record. -/
theorem KeepsSubmissions.records (h : KeepsSubmissions B m calls)
    {before mid after : List (Env × JobOp)} {call : Env × JobOp} {j : String} {d : SubmissionData}
    (hcalls : calls = before ++ call :: mid ++ after) (hs : submitted call = some (j, d)) :
    (run B (before ++ call :: mid) m).Records j d := by
  obtain ⟨e, op⟩ := call
  cases op with
  | submitJob spec userId username =>
    cases hs
    obtain ⟨info, hj, rfl, rfl, rfl, ht⟩ := h _ _ _ _ _ _ _ hcalls
    exact ⟨info, hj, by rw [← ht]; rfl⟩
  | _ => cases hs

/-- A later submission under the same identifier is the same. -/
theorem KeepsSubmissions.eq_of_later (h : KeepsSubmissions B m calls)
    {before mid after : List (Env × JobOp)} {call call' : Env × JobOp} {j : String}
    {d d' : SubmissionData} (hcalls : calls = before ++ call :: (mid ++ call' :: after))
    (hs : submitted call = some (j, d)) (hs' : submitted call' = some (j, d')) : d = d' := by
  have hcalls' : calls = before ++ call :: (mid ++ [call']) ++ after := by simp [hcalls]
  have hold : (run B (before ++ call :: (mid ++ [call'])) m).Records j d := h.records hcalls' hs
  have hnew : (run B (before ++ call :: (mid ++ [call'])) m).Records j d' := by
    rw [← List.cons_append, ← List.append_assoc, run_concat]
    exact records_of_submitted hs' _
  exact hold.eq hnew

/-- **Every submission keeps its record**, along a sequence of calls and whatever the
generator draws in it, if and only if the draws identify the submissions. -/
theorem keepsSubmissions_iff (B : StoreBackend Db) (m : JobManager Db)
    (calls : List (Env × JobOp)) : KeepsSubmissions B m calls ↔ DrawsIdentify calls := by
  constructor
  · intro h call hc call' hc' j d d' hs hs'
    obtain ⟨before, after, rfl⟩ := List.append_of_mem hc
    rcases List.mem_append.mp hc' with hc' | hc'
    · obtain ⟨before, mid, rfl⟩ := List.append_of_mem hc'
      exact (h.eq_of_later (List.append_assoc _ _ _) hs' hs).symm
    · rcases List.mem_cons.mp hc' with rfl | hc'
      · cases hs.symm.trans hs'
        rfl
      · obtain ⟨mid, after, rfl⟩ := List.append_of_mem hc'
        exact h.eq_of_later rfl hs hs'
  · intro h before e spec userId username mid after hcalls
    have hmem : (e, .submitJob spec userId username) ∈ calls := by simp [hcalls]
    have hsub : submitted (e, .submitJob spec userId username) =
        some (shortId "job-" e.uuid, ⟨spec, userId, username, e.now⟩) := rfl
    have hmid : ∀ call ∈ mid, ∀ d', submitted call = some (shortId "job-" e.uuid, d') →
        d' = ⟨spec, userId, username, e.now⟩ := by
      intro call hc d' hs
      exact h call (by simp [hcalls, hc]) _ hmem _ _ _ hs hsub
    obtain ⟨info, hj, hd⟩ := records_run hsub hmid
    exact ⟨info, hj, congrArg SubmissionData.spec hd, congrArg SubmissionData.userId hd,
      congrArg SubmissionData.username hd, congrArg SubmissionData.submittedAt hd⟩

/-- Ann submits a job. -/
def annSubmits : Env × JobOp := ({ now := 100 }, .submitJob { command := "a.out" } "ann" "ann")

/-- Bob submits a job, for which the generator draws the same. -/
def bobSubmits : Env × JobOp := ({ now := 200 }, .submitJob { command := "b.out" } "bob" "bob")

/-- **Ann's submission is lost**: `get_job` answers her with Bob's job. -/
theorem submission_lost : ¬ KeepsSubmissions idealStore {} [annSubmits, bobSubmits] := by
  intro h
  have hcalls : [annSubmits, bobSubmits] = [] ++ annSubmits :: ([] ++ bobSubmits :: []) := rfl
  have heq := h.eq_of_later hcalls rfl rfl
  injection heq with _ huser
  exact absurd huser (by decide)

end JobManager

end CertOS
