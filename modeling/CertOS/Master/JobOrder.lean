import CertOS.Master.FairShare
import CertOS.Tolerance
import Mathlib.Data.Rat.Lemmas

/-!
# The order of the pending jobs

`schedule_pass` sorts its snapshot of pending jobs by effective priority, the priority of the
job times the fair-share factor of its user. Two effective priorities that differ by at most
a tenth count as equal, and then the older job comes first.

`std::sort` requires a strict weak order of its comparison, and being equal up to a tenth is
not transitive. So the comparison is one on some sets of jobs and not on others
(`CertOS.SchedulerEngine.strictWeakOrder_iff`), and three jobs are enough to go round in a
circle (`CertOS.SchedulerEngine.sort_goes_round`). What saves the master is that its fair-share
table is empty: with equal factors the priorities are whole numbers, and those that are close
are equal (`CertOS.SchedulerEngine.strictWeakOrder_run`).
-/

namespace CertOS

namespace SchedulerEngine

variable {K : Type} [Field K] [LinearOrder K]

/-- The priority of a job times the factor of its user. -/
def effectivePriority (factor : String → K) (job : JobInfo) : K :=
  job.spec.priority * factor job.userId

/-- **The comparison of `schedule_pass`**, for the factors that `get_priority_factor` gives to
the users. -/
def comesBefore (factor : String → K) (a b : JobInfo) : Prop :=
  let prioA := effectivePriority factor a
  let prioB := effectivePriority factor b
  if |prioA - prioB| > 1 / 10 then prioA > prioB else a.submittedAt < b.submittedAt

instance (factor : String → K) (a b : JobInfo) : Decidable (comesBefore factor a b) :=
  inferInstanceAs (Decidable (if |effectivePriority factor a - effectivePriority factor b| > 1 / 10
    then effectivePriority factor a > effectivePriority factor b
    else a.submittedAt < b.submittedAt))

/-- The comparison with the factors of a fair-share table. -/
def sortPending (M : Libm K) (fairShare : FairShareManager K) : JobInfo → JobInfo → Prop :=
  comesBefore fun userId => fairShare.getPriorityFactor M userId

/-- **The jobs are well spaced**: of three jobs of which the first is more than a tenth above
the last, and the second within a tenth of both, the second was submitted after the first or
before the last. -/
def WellSpaced (factor : String → K) (jobs : Set JobInfo) : Prop :=
  ∀ a ∈ jobs, ∀ b ∈ jobs, ∀ c ∈ jobs,
    1 / 10 < effectivePriority factor a - effectivePriority factor c →
    |effectivePriority factor a - effectivePriority factor b| ≤ 1 / 10 →
    |effectivePriority factor b - effectivePriority factor c| ≤ 1 / 10 →
    a.submittedAt < b.submittedAt ∨ b.submittedAt < c.submittedAt

theorem harmless_iff {factor : String → K} {jobs : Set JobInfo} :
    Tolerance.Harmless (α := jobs) (1 / 10) (fun a => effectivePriority factor a.1)
      (fun a => a.1.submittedAt) ↔ WellSpaced factor jobs := by
  simp only [Tolerance.Harmless, WellSpaced, Subtype.forall]

/-- **The comparison is a strict weak order** on a set of jobs, for any factors, if and only
if the jobs are well spaced. -/
theorem strictWeakOrder_iff [IsStrictOrderedRing K] (factor : String → K) (jobs : Set JobInfo) :
    IsStrictWeakOrder jobs (fun a b => comesBefore factor a.1 b.1) ↔ WellSpaced factor jobs := by
  have htenth : (0 : K) ≤ 1 / 10 := by positivity
  exact (Tolerance.isStrictWeakOrder_iff htenth).trans harmless_iff

/-! ### Users without usage -/

/-- Without usage, jobs that are close have the same priority. -/
theorem eq_of_close [IsStrictOrderedRing K] {m n : ℤ} (h : |(m : K) - n| ≤ 1 / 10) : m = n := by
  by_contra hne
  have hone : 1 ≤ |m - n| := Int.one_le_abs (sub_ne_zero.mpr hne)
  have hcast : (1 : K) ≤ |(m : K) - n| := by exact_mod_cast hone
  linarith

/-- **While no user has a lower factor, any jobs are well spaced.** -/
theorem wellSpaced_of_factor_one [IsStrictOrderedRing K] {factor : String → K}
    (h : ∀ u, factor u = 1) (jobs : Set JobInfo) : WellSpaced factor jobs := by
  intro a _ b _ c _ hac hab hbc
  simp only [effectivePriority, h, mul_one] at hac hab hbc
  rw [eq_of_close hab, eq_of_close hbc, sub_self] at hac
  linarith

/-- **In every run of the master the sort is sound**: nobody's usage is recorded, so the
comparison is a strict weak order on any jobs. -/
theorem strictWeakOrder_run [IsStrictOrderedRing K] {Db : Type} {M : Libm K}
    {P : Platform Db (FairShareManager K)} (hP : DecaysWith M P)
    {ok : MasterConfig Db (FairShareManager K) → MasterEvent → Prop} {db : Option Db} {adminDb : Db}
    {t₀ : ℤ} {halfLifeHours : K} {es : List MasterEvent}
    {c : MasterConfig Db (FairShareManager K)}
    (h : (master P).Run ok (masterStart db adminDb (.create t₀ halfLifeHours)) es c)
    (jobs : Set JobInfo) :
    IsStrictWeakOrder jobs (fun a b => sortPending M c.state.fairShare a.1 b.1) := by
  have htenth : (0 : K) ≤ 1 / 10 := by positivity
  have hone := FairShareManager.getPriorityFactor_of_empty M (userUsage_run hP h rfl)
  exact (Tolerance.isStrictWeakOrder_iff htenth).mpr
    (harmless_iff.mpr (wellSpaced_of_factor_one hone jobs))

/-! ### Examples -/

/-- A job of a user, submitted at a time. -/
def jobOf (userId : String) (submittedAt : ℤ) : JobInfo :=
  { userId := userId, spec := { priority := 1 }, submittedAt := submittedAt }

/-- The law at work: the comparison sorts any jobs, while no user has a lower factor. -/
theorem strictWeakOrder_univ :
    IsStrictWeakOrder (Set.univ : Set JobInfo)
      (fun a b => comesBefore (fun _ => (1 : ℚ)) a.1 b.1) :=
  (strictWeakOrder_iff (fun _ => (1 : ℚ)) Set.univ).mpr
    (wellSpaced_of_factor_one (fun _ => rfl) Set.univ)

/-- The factors of three users. -/
def threeFactors (userId : String) : ℚ :=
  if userId = "ann" then 1 else if userId = "bob" then 23 / 25 else 21 / 25

/-- The jobs of the three users, the most urgent one submitted last. -/
def threeJobs : Set JobInfo := {jobOf "ann" 300, jobOf "bob" 200, jobOf "eve" 100}

/-- **The sort goes round in a circle**: Ann's job comes before Eve's, Eve's before Bob's, and
Bob's before Ann's. -/
theorem sort_goes_round :
    (∀ u, 0 < threeFactors u ∧ threeFactors u ≤ 1) ∧
      ¬ IsStrictWeakOrder threeJobs (fun a b => comesBefore threeFactors a.1 b.1) := by
  constructor
  · intro u
    rw [threeFactors]
    split_ifs <;> norm_num
  · intro h
    have hann : jobOf "ann" 300 ∈ threeJobs := Or.inl rfl
    have hbob : jobOf "bob" 200 ∈ threeJobs := Or.inr (Or.inl rfl)
    have heve : jobOf "eve" 100 ∈ threeJobs := Or.inr (Or.inr rfl)
    have hfar : comesBefore threeFactors (jobOf "ann" 300) (jobOf "eve" 100) := by decide +kernel
    have hold : comesBefore threeFactors (jobOf "eve" 100) (jobOf "bob" 200) := by decide +kernel
    have hold' : comesBefore threeFactors (jobOf "bob" 200) (jobOf "ann" 300) := by decide +kernel
    have hback := h.trans ⟨_, heve⟩ ⟨_, hbob⟩ ⟨_, hann⟩ hold hold'
    exact h.irrefl ⟨_, hann⟩ (h.trans ⟨_, hann⟩ ⟨_, heve⟩ ⟨_, hann⟩ hfar hback)

end SchedulerEngine

end CertOS
