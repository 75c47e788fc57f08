import CertOS.Master.JobOrder
import CertOS.Master.Pass
import CertOS.Master.Submissions
import CertOS.UnstableSort

/-!
# First come, first served

Of two jobs that are equal in everything the scheduler looks at but the time of their
submission, the older one comes first: so the last line of the comparison of `schedule_pass`
says. The time is that of a clock that counts seconds, and the jobs come out of a hash map and
through a sort that is not stable.

So the order of two submissions is kept just when the clock has moved on between them, and the
comparison is one a sort can work with (`CertOS.SchedulerEngine.firstServed_iff`). Jobs
submitted in one second come in any order, and if there is room for one of them only, it may be
the later one. Jobs that ask for nothing are all assigned as soon as there is a node.
-/

namespace CertOS

open Interleave

namespace SchedulerEngine

/-! ### What a pass assigns -/

/-- The pass over these snapshots assigns the job. -/
def Assigns (sorted : List JobInfo) (nodes : List NodeInfo) (jobId : String) : Prop :=
  ∃ nodeId, (jobId, nodeId) ∈ passWrites sorted (onlineNodes nodes)

/-- Without a node nothing is written. -/
theorem passWrites_nil (jobs : List JobInfo) : passWrites jobs [] = [] := by
  induction jobs with
  | nil => rfl
  | cons job jobs ih =>
    rw [passWrites_cons]
    exact ih

/-- **The walk of a pass is its writes**, one after the other. -/
theorem passWalk_eq (sort : Reorder JobInfo) (jobs : List JobInfo) (nodes : List NodeInfo) :
    passWalk sort jobs nodes = writeAll (passWrites (sort jobs) (onlineNodes nodes)) := by
  rw [passWalk]
  split
  · rename_i hnone
    rw [hnone, passWrites_nil]
    rfl
  · have hall := assignAll_append (sort jobs) [] (onlineNodes nodes)
    rw [List.append_nil] at hall
    rw [hall]
    exact Prog.bind_ret _

/-- A job is assigned if a place is chosen for it. -/
theorem assigns_iff {sorted : List JobInfo} {nodes : List NodeInfo} {k : ℕ} {job : JobInfo}
    (hids : (sorted.map JobInfo.jobId).Nodup) (hk : sorted[k]? = some job) :
    Assigns sorted nodes job.jobId ↔
      ∃ i, (passChoices sorted (onlineNodes nodes))[k]? = some (some i) := by
  constructor
  · rintro ⟨nodeId, hmem⟩
    obtain ⟨⟨job', o⟩, hp, hwrite⟩ := List.mem_filterMap.mp hmem
    obtain ⟨k', hk'⟩ := List.getElem?_of_mem hp
    obtain ⟨hjob', ho⟩ := List.getElem?_zip_eq_some.mp hk'
    obtain ⟨i, rfl, hi⟩ := Option.bind_eq_some_iff.mp hwrite
    obtain ⟨node, -, heq⟩ := Option.map_eq_some_iff.mp hi
    have hid : job'.jobId = job.jobId := congrArg Prod.fst heq
    have hsame : k' = k := by
      have hlt := (List.getElem?_eq_some_iff.mp hjob').1
      refine (List.getElem?_inj (by simpa using hlt) hids).mp ?_
      rw [List.getElem?_map, List.getElem?_map, hjob', hk, Option.map_some, Option.map_some, hid]
    exact ⟨i, hsame ▸ ho⟩
  · rintro ⟨i, hi⟩
    have hlt : i < (onlineNodes nodes).length :=
      FirstFit.lt_length_of_chosen (List.mem_of_getElem? hi)
    refine ⟨(onlineNodes nodes)[i].nodeId, List.mem_filterMap.mpr ⟨(job, some i), ?_, ?_⟩⟩
    · exact List.mem_of_getElem? (List.getElem?_zip_eq_some.mpr ⟨hk, hi⟩)
    · simp [List.getElem?_eq_getElem hlt]

/-! ### A registry made for some jobs -/

/-- A node with room for this job and for nothing more. -/
def nodeFor (job : JobInfo) : NodeInfo where
  nodeId := job.jobId
  status := .online
  availableResources := job.spec.resources

/-- Nothing is left of a node. -/
def Full (node : NodeInfo) : Prop := ∀ d, node.availableResources.amount d = 0

/-- A registry with a node for each of the jobs. -/
def registryFor (jobs : List JobInfo) (hids : (jobs.map JobInfo.jobId).Nodup) : NodeRegistry where
  nodes := ⟨jobs.map fun job => ⟨job.jobId, nodeFor job⟩, by
    simpa [List.NodupKeys, List.keys, Function.comp_def] using hids⟩

theorem onlineNodes_registryFor {jobs : List JobInfo} (hids : (jobs.map JobInfo.jobId).Nodup) :
    onlineNodes ((registryFor jobs hids).getAllNodes {}) = jobs.map nodeFor := by
  have hall : (registryFor jobs hids).getAllNodes {} = jobs.map nodeFor := by
    simp [NodeRegistry.getAllNodes, registryFor, Table.pairs, Function.comp_def]
  rw [hall, onlineNodes, List.filter_eq_self]
  simp [nodeFor]

theorem full_takeJob (job : JobInfo) (node : NodeInfo) (hfull : Full node)
    (h : jobFits job node = true) : Full (takeJob job node) := by
  intro d
  have hsum := amount_takeJob h d
  have hzero := hfull d
  omega

theorem jobFits_nodeFor (job : JobInfo) : jobFits job (nodeFor job) = true :=
  fits_iff.mpr fun _ => le_rfl

theorem full_takeJob_nodeFor (job : JobInfo) : Full (takeJob job (nodeFor job)) := by
  intro d
  have hsum : _ = job.spec.resources.amount d := amount_takeJob (jobFits_nodeFor job) d
  omega

theorem full_nodeFor (job : JobInfo) (node : NodeInfo) (hfull : Full node)
    (h : jobFits job node = true) : Full (nodeFor job) := fun d =>
  Nat.le_zero.mp ((fits_iff.mp h d).trans (hfull d).le)

/-- **On nodes made for the first jobs** all of these are assigned, and no later job that asks
for anything is. -/
theorem assigns_registryFor {first rest : List JobInfo}
    (hids : ((first ++ rest).map JobInfo.jobId).Nodup)
    (hfirst : (first.map JobInfo.jobId).Nodup) {b : JobInfo} (hb : b ∈ first) {a : JobInfo}
    (ha : a ∈ rest) {d : Dimension} (hd : a.spec.resources.amount d ≠ 0) :
    Assigns (first ++ rest) ((registryFor first hfirst).getAllNodes {}) b.jobId ∧
      ¬ Assigns (first ++ rest) ((registryFor first hfirst).getAllNodes {}) a.jobId := by
  obtain ⟨hchosen, hfull⟩ := FirstFit.chosen_of_made full_takeJob jobFits_nodeFor
    full_takeJob_nodeFor full_nodeFor first (List.forall_mem_nil _)
  rw [List.nil_append] at hchosen hfull
  have hchoices : passChoices (first ++ rest)
        (onlineNodes ((registryFor first hfirst).getAllNodes {})) =
      FirstFit.choices jobFits takeJob first (first.map nodeFor) ++
        FirstFit.choices jobFits takeJob rest
          (FirstFit.left jobFits takeJob first (first.map nodeFor)) := by
    rw [onlineNodes_registryFor]
    exact FirstFit.choices_append _ _ _
  have hlen : (FirstFit.choices jobFits takeJob first (first.map nodeFor)).length = first.length :=
    FirstFit.length_choices _ _
  obtain ⟨k, hk⟩ := List.getElem?_of_mem hb
  obtain ⟨k', hk'⟩ := List.getElem?_of_mem ha
  have hlt : k < first.length := (List.getElem?_eq_some_iff.mp hk).1
  have hbk : (first ++ rest)[k]? = some b := by rw [List.getElem?_append_left hlt, hk]
  have hak : (first ++ rest)[first.length + k']? = some a := by
    rw [List.getElem?_append_right (Nat.le_add_right _ _), Nat.add_sub_cancel_left, hk']
  rw [assigns_iff hids hbk, assigns_iff hids hak, hchoices]
  constructor
  · -- the job in the first part
    rw [List.getElem?_append_left (hlen ▸ hlt), List.getElem?_eq_getElem (hlen ▸ hlt)]
    obtain ⟨i, hi⟩ := Option.ne_none_iff_exists'.mp (hchosen _ (List.getElem_mem (hlen ▸ hlt)))
    exact ⟨i, by rw [hi]⟩
  · -- the job in the second part
    have hout : ∀ node, Full node → jobFits a node = false := by
      intro node hnode
      by_contra hfits
      have hle := fits_iff.mp (Bool.not_eq_false _ ▸ hfits) d
      rw [hnode d] at hle
      exact hd (Nat.le_zero.mp hle)
    rw [List.getElem?_append_right (by omega), hlen, Nat.add_sub_cancel_left,
      FirstFit.left_out_of_full full_takeJob hout rest hfull hk']
    rintro ⟨i, hi⟩
    cases hi

/-! ### Two submissions -/

variable {Db K : Type} {B : StoreBackend Db}

/-- The jobs that are waiting. -/
def pendingJobs (m : JobManager Db) : Set JobInfo :=
  {info | ∃ j, m.getJob j = some info ∧ info.status = .queued}

/-- No call draws this identifier. -/
def NotDrawn (j : String) (calls : List (Env × JobOp)) : Prop :=
  ∀ call ∈ calls, ∀ d, JobManager.submitted call ≠ some (j, d)

/-- **Two submissions of the same kind, one after the other**: among some calls are two
submissions by one user, with one priority and one request; their identifiers are not drawn
again, and both jobs are still waiting at the end. -/
structure Rivals (B : StoreBackend Db) (db : Option Db) (calls : List (Env × JobOp))
    (j₁ j₂ : String) (d₁ d₂ : SubmissionData) : Prop where
  submitted : ∃ before first mid second after,
    calls = before ++ first :: (mid ++ second :: after) ∧
      JobManager.submitted first = some (j₁, d₁) ∧ JobManager.submitted second = some (j₂, d₂) ∧
      NotDrawn j₁ (mid ++ second :: after) ∧ NotDrawn j₂ after
  user : d₁.userId = d₂.userId
  priority : d₁.spec.priority = d₂.spec.priority
  request : ∀ d, d₁.spec.resources.amount d = d₂.spec.resources.amount d
  waiting₁ : ∃ info, (JobManager.run B calls { db := db }).getJob j₁ = some info ∧
    info.status = .queued
  waiting₂ : ∃ info, (JobManager.run B calls { db := db }).getJob j₂ = some info ∧
    info.status = .queued

/-- **The first job is served first**: whatever the order in which the job map is walked, the
result of the sort and the nodes are, a pass that assigns the second job assigns the first one. -/
def FirstServed [Field K] [LinearOrder K] (M : Libm K) (fairShare : FairShareManager K)
    (m : JobManager Db) (j₁ j₂ : String) : Prop :=
  ∀ (e : Env) (sorted : List JobInfo) (e' : Env) (registry : NodeRegistry),
    UnstableSort.Result (sortPending M fairShare) (m.getPendingJobs e) sorted →
    Assigns sorted (registry.getAllNodes e') j₂ → Assigns sorted (registry.getAllNodes e') j₁

theorem setOf_mem_getPendingJobs (e : Env) (m : JobManager Db) :
    {info | info ∈ m.getPendingJobs e} = pendingJobs m := by
  ext info
  change info ∈ m.listJobs e .queued ↔ ∃ j, m.getJob j = some info ∧ info.status = .queued
  rw [JobManager.mem_listJobs, or_iff_right (by decide), exists_and_right]
  rfl

/-! ### The order of the submissions -/

variable [Field K] [LinearOrder K] [IsStrictOrderedRing K] {M : Libm K}
  {fairShare : FairShareManager K} {m : JobManager Db}

/-- Between jobs of one effective priority the time of the submission decides. -/
theorem comesBefore_iff_of_eq {factor : String → K} {a b : JobInfo}
    (h : effectivePriority factor a = effectivePriority factor b) :
    comesBefore factor a b ↔ a.submittedAt < b.submittedAt := by
  have hclose : ¬ |effectivePriority factor a - effectivePriority factor b| > 1 / 10 := by
    rw [h, sub_self, abs_zero, not_lt]
    positivity
  simp only [comesBefore, if_neg hclose]

theorem isStrictWeakOrder_pending (e : Env) :
    IsStrictWeakOrder ({info | info ∈ m.getPendingJobs e} : Set JobInfo)
        (fun a b => sortPending M fairShare a.1 b.1) ↔
      WellSpaced (fun userId => fairShare.getPriorityFactor M userId) (pendingJobs m) := by
  rw [← setOf_mem_getPendingJobs e m]
  exact strictWeakOrder_iff _ _

omit [IsStrictOrderedRing K] in
/-- The jobs of a sorted snapshot have different identifiers. -/
theorem nodup_sorted {e : Env} {sorted : List JobInfo} (hk : m.Keyed)
    (hsort : UnstableSort.Result (sortPending M fairShare) (m.getPendingJobs e) sorted) :
    (sorted.map JobInfo.jobId).Nodup :=
  (hsort.1.map JobInfo.jobId).nodup_iff.mpr (hk.nodup_listJobs e .queued)

/-- Two jobs of one effective priority are served in their order, if they ask for the same, the
clock has moved on between their submissions and the comparison is one. -/
theorem assigns_of_lt {a b : JobInfo} {e : Env} {sorted : List JobInfo} {nodes : List NodeInfo}
    (hk : m.Keyed)
    (hsort : UnstableSort.Result (sortPending M fairShare) (m.getPendingJobs e) sorted)
    (hspaced : WellSpaced (fun userId => fairShare.getPriorityFactor M userId) (pendingJobs m))
    (ha : a ∈ m.getPendingJobs e) (hb : b ∈ m.getPendingJobs e) (hab : sortPending M fairShare a b)
    (hrequest : ∀ d, a.spec.resources.amount d ≤ b.spec.resources.amount d)
    (h : Assigns sorted nodes b.jobId) : Assigns sorted nodes a.jobId := by
  have hids := nodup_sorted hk hsort
  obtain ⟨j, hj⟩ := List.getElem?_of_mem (hsort.1.mem_iff.mpr ha)
  obtain ⟨k, hk⟩ := List.getElem?_of_mem (hsort.1.mem_iff.mpr hb)
  have hlt : j < k :=
    hsort.lt_of_rel ((isStrictWeakOrder_pending e).mpr hspaced) hj hk hab
  obtain ⟨i, hi⟩ := (assigns_iff hids hk).mp h
  exact (assigns_iff hids hj).mpr ((pass_respects_order sorted nodes).2.1 j k i a b hlt hj hk
    hrequest hi)

/-- A job that asks for nothing is assigned if any job is. -/
theorem assigns_of_zero {a : JobInfo} {sorted : List JobInfo} {nodes : List NodeInfo} {j : String}
    (hids : (sorted.map JobInfo.jobId).Nodup) (ha : a ∈ sorted)
    (hzero : ∀ d, a.spec.resources.amount d = 0) (h : Assigns sorted nodes j) :
    Assigns sorted nodes a.jobId := by
  obtain ⟨k, hk⟩ := List.getElem?_of_mem ha
  obtain ⟨node, hnode⟩ : ∃ node, node ∈ passLeft sorted (onlineNodes nodes) := by
    refine List.exists_mem_of_length_pos ?_
    rw [passLeft, FirstFit.length_left]
    by_contra hnone
    rw [List.length_pos_iff, not_not] at hnone
    obtain ⟨nodeId, hwrite⟩ := h
    rw [hnone, passWrites_nil] at hwrite
    cases hwrite
  cases hchoice : (passChoices sorted (onlineNodes nodes))[k]? with
  | none =>
    -- there is a decision about every job
    have hlt : k < sorted.length := (List.getElem?_eq_some_iff.mp hk).1
    have hlen : (passChoices sorted (onlineNodes nodes)).length = sorted.length :=
      FirstFit.length_choices _ _
    have hle := List.getElem?_eq_none_iff.mp hchoice
    omega
  | some choice =>
    cases choice with
    | none =>
      obtain ⟨d, hd⟩ := (pass_respects_order sorted nodes).2.2 k a hk hchoice node hnode
      rw [hzero d] at hd
      exact absurd hd (Nat.not_lt_zero _)
    | some i => exact (assigns_iff hids hk).mpr ⟨i, hchoice⟩

/-- **When the first job is served first**: two submissions of the same kind are assigned in
their order by every pass, if and only if they ask for nothing at all, or the clock has moved
on between them and the waiting jobs are well spaced. -/
theorem firstServed_iff {db : Option Db} {calls : List (Env × JobOp)} {j₁ j₂ : String}
    {d₁ d₂ : SubmissionData} (h : Rivals B db calls j₁ j₂ d₁ d₂) (M : Libm K)
    (fairShare : FairShareManager K) :
    (∀ sort jobs nodes,
      passWalk sort jobs nodes = writeAll (passWrites (sort jobs) (onlineNodes nodes))) ∧
    (FirstServed M fairShare (JobManager.run B calls { db := db }) j₁ j₂ ↔
      (∀ d, d₁.spec.resources.amount d = 0) ∨
        (d₁.submittedAt < d₂.submittedAt ∧
          WellSpaced (fun userId => fairShare.getPriorityFactor M userId)
            (pendingJobs (JobManager.run B calls { db := db })))) := by
  refine ⟨passWalk_eq, ?_⟩
  obtain ⟨before, first, mid, second, after, hcalls, hfirst, hsecond, hdrawn₁, hdrawn₂⟩ :=
    h.submitted
  have hne : j₁ ≠ j₂ := by
    rintro rfl
    exact hdrawn₁ second (List.mem_append_right _ List.mem_cons_self) d₂ hsecond
  -- the two records
  obtain ⟨a, ha, haq⟩ := h.waiting₁
  obtain ⟨b, hb, hbq⟩ := h.waiting₂
  have hrec₁ : (JobManager.run B calls { db := db }).Records j₁ d₁ :=
    hcalls ▸ JobManager.records_run hfirst fun c hc d hd => absurd hd (hdrawn₁ c hc d)
  have hrec₂ : (JobManager.run B calls { db := db }).Records j₂ d₂ := by
    have hcalls' : calls = (before ++ first :: mid) ++ second :: after := by simp [hcalls]
    exact hcalls' ▸ JobManager.records_run hsecond fun c hc d hd => absurd hd (hdrawn₂ c hc d)
  obtain rfl : a.data = d₁ := hrec₁.eq ⟨a, ha, rfl⟩ ▸ rfl
  obtain rfl : b.data = d₂ := hrec₂.eq ⟨b, hb, rfl⟩ ▸ rfl
  have hk : (JobManager.run B calls { db := db }).Keyed :=
    JobManager.keyed_run (fun _ _ hj => by cases hj) calls
  obtain rfl : a.jobId = j₁ := hk j₁ a ha
  obtain rfl : b.jobId = j₂ := hk j₂ b hb
  generalize JobManager.run B calls { db := db } = m at hk ha hb ⊢
  have hmem {info : JobInfo} {j : String} (hj : m.getJob j = some info)
      (hq : info.status = .queued) (e : Env) : info ∈ m.getPendingJobs e := by
    have hset : info ∈ {info | info ∈ m.getPendingJobs e} := by
      rw [setOf_mem_getPendingJobs]
      exact ⟨j, hj, hq⟩
    exact hset
  have hbefore : sortPending M fairShare a b ↔ a.submittedAt < b.submittedAt := by
    refine comesBefore_iff_of_eq ?_
    have huser : a.userId = b.userId := h.user
    have hpriority : a.spec.priority = b.spec.priority := h.priority
    rw [effectivePriority, effectivePriority, huser, hpriority]
  constructor
  · intro hlaw
    by_contra hnot
    obtain ⟨hzero, hspaced⟩ := not_or.mp hnot
    obtain ⟨d, hd⟩ := not_forall.mp hzero
    -- a sort that turns the two around, and nodes for the jobs up to the second one
    obtain ⟨l₁, l₂, hsort, hb₁, ha₂⟩ := UnstableSort.exists_result_of_not (hmem ha haq {})
      (hmem hb hbq {}) (fun hab => hne (congrArg JobInfo.jobId hab))
      fun hswo hcomes => hspaced ⟨hbefore.mp hcomes, (isStrictWeakOrder_pending {}).mp hswo⟩
    have hids := nodup_sorted hk hsort
    have hids₁ : (l₁.map JobInfo.jobId).Nodup :=
      hids.sublist ((List.sublist_append_left _ _).map _)
    obtain ⟨hassigns, hleft⟩ := assigns_registryFor hids hids₁ hb₁ ha₂ hd
    exact hleft (hlaw {} _ {} _ hsort hassigns)
  · rintro (hzero | ⟨hlt, hspaced⟩) e sorted e' registry hsort hassigns
    · have ha' := hsort.1.mem_iff.mpr (hmem ha haq e)
      exact assigns_of_zero (nodup_sorted hk hsort) ha' hzero hassigns
    · exact assigns_of_lt hk hsort hspaced (hmem ha haq e) (hmem hb hbq e) (hbefore.mpr hlt)
        (fun d => (h.request d).le) hassigns

/-! ### One second -/

/-- A job for one core. -/
def coreSpec : JobSpec := { command := "a.out", resources := { cpuCores := 1 } }

/-- Ann submits such a job. -/
def submitsCore (now : ℤ) (uuid : UuidDraw) : Env × JobOp :=
  ({ now := now, uuid := uuid }, .submitJob coreSpec "ann" "ann")

/-- She submits two of them, at time 100 and later. -/
def submitsTwo (now : ℤ) : List (Env × JobOp) :=
  [submitsCore 100 default, submitsCore now secondDraw]

theorem rivals_submitsTwo (now : ℤ) : Rivals idealStore none (submitsTwo now) "job-00000000"
    "job-11111111" ⟨coreSpec, "ann", "ann", 100⟩ ⟨coreSpec, "ann", "ann", now⟩ where
  submitted := by
    refine ⟨[], submitsCore 100 default, [], submitsCore now secondDraw, [], rfl, rfl, rfl, ?_, ?_⟩
    · intro call hcall d hs
      obtain rfl := List.mem_singleton.mp hcall
      have hid : shortId "job-" secondDraw = "job-00000000" :=
        congrArg Prod.fst (Option.some.inj hs)
      exact absurd hid (by decide)
    · intro call hcall
      cases hcall
  user := rfl
  priority := rfl
  request _ := rfl
  waiting₁ := ⟨_, rfl, rfl⟩
  waiting₂ := ⟨_, rfl, rfl⟩

/-- The record of a submission at time 100. -/
def coreJob (jobId : String) : JobInfo where
  jobId := jobId
  userId := "ann"
  username := "ann"
  spec := coreSpec
  status := .queued
  submittedAt := 100

/-- A fair-share table without an entry. -/
noncomputable def noUsage : FairShareManager ℝ := .create 0 1

theorem getPriorityFactor_noUsage (userId : String) :
    noUsage.getPriorityFactor realLibm userId = 1 :=
  FairShareManager.getPriorityFactor_of_empty realLibm rfl userId

/-- The law at work: with a second between them, the submissions are served in their order. -/
theorem firstServed_secondLater :
    (JobManager.run idealStore (submitsTwo 101) { db := none }).getPendingJobs {} ≠ [] ∧
      FirstServed realLibm noUsage (JobManager.run idealStore (submitsTwo 101) { db := none })
        "job-00000000" "job-11111111" :=
  ⟨by decide, (firstServed_iff (rivals_submitsTwo 101) realLibm noUsage).2.mpr
    (Or.inr ⟨by decide, wellSpaced_of_factor_one getPriorityFactor_noUsage _⟩)⟩

/-- **The second job is served first**: Ann submits two jobs within a second, and there is room
for one. -/
theorem second_served_first :
    ¬ FirstServed realLibm noUsage (JobManager.run idealStore (submitsTwo 100) { db := none })
        "job-00000000" "job-11111111" := by
  intro hlaw
  -- the sort leaves the list as it comes out of the map, the second job first
  have hpending : (JobManager.run idealStore (submitsTwo 100) { db := none }).getPendingJobs {} =
      [coreJob "job-11111111"] ++ [coreJob "job-00000000"] := rfl
  have hsort : UnstableSort.Result (sortPending realLibm noUsage)
      ((JobManager.run idealStore (submitsTwo 100) { db := none }).getPendingJobs {})
      ([coreJob "job-11111111"] ++ [coreJob "job-00000000"]) := by
    refine ⟨hpending ▸ .refl _, fun _ => List.pairwise_pair.mpr fun hcomes => ?_⟩
    have hlt : (100 : ℤ) < 100 := (comesBefore_iff_of_eq rfl).mp hcomes
    exact lt_irrefl _ hlt
  have hids : (([coreJob "job-11111111"] ++ [coreJob "job-00000000"]).map
      JobInfo.jobId).Nodup := by decide
  have hids₁ : ([coreJob "job-11111111"].map JobInfo.jobId).Nodup := by decide
  obtain ⟨hassigns, hleft⟩ := assigns_registryFor hids hids₁ List.mem_cons_self
    List.mem_cons_self (d := .cpu) (by decide)
  exact hleft (hlaw {} _ {} _ hsort hassigns)

end SchedulerEngine

end CertOS
