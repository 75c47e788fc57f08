import CertOS.Master.Decay
import CertOS.Master.JobOrder

/-!
# The penalty for usage

The factor of a user falls with what the user has (`CertOS.FairShareManager.penalty`), from 1
for nothing towards 0. So it is lowered by usage that is added, and a decay raises the factors
of all users without changing their order (`CertOS.FairShareManager.factors_monotone`).

The scheduler multiplies it with the priority of a job. That lowers a positive priority, and
raises a negative one: of two users that submit with the same negative priority, the one with
more usage comes first (`CertOS.SchedulerEngine.priorityUnder_le_iff`).
-/

namespace CertOS

namespace FairShareManager

/-! ### The curve -/

/-- **The factor for some usage**, in CPU seconds. -/
noncomputable def penalty (usage : ℝ) : ℝ := 1 / (1 + Real.log (1 + hours (max usage 0)))

variable {m : FairShareManager ℝ} {userId : String} {x y : ℝ}

theorem getPriorityFactor_eq : m.getPriorityFactor realLibm userId = penalty (m.usage userId) := by
  have hnone {usage : ℝ} (h : usage ≤ 0) : penalty usage = 1 := by
    rw [penalty, max_eq_right h, hours, zero_div, add_zero, Real.log_one, add_zero, div_one]
  rw [getPriorityFactor, usage]
  cases m.userUsage.lookup userId with
  | none => exact (hnone le_rfl).symm
  | some usage =>
    rw [Option.getD_some]
    by_cases h : usage ≤ 0
    · rw [hnone h]
      exact if_pos h
    · rw [penalty, max_eq_left (not_le.mp h).le]
      exact if_neg h

theorem one_le_hours : 1 ≤ 1 + hours (max x 0) := by
  have hnonneg : 0 ≤ hours (max x 0) := div_nonneg (le_max_right x 0) (by norm_num)
  linarith

theorem one_le_denominator : 1 ≤ 1 + Real.log (1 + hours (max x 0)) := by
  linarith [Real.log_nonneg (one_le_hours (x := x))]

/-- **The curve falls**, from zero on. -/
theorem penalty_lt_iff : penalty x < penalty y ↔ max y 0 < max x 0 := by
  have hpos {x : ℝ} : 0 < 1 + hours (max x 0) := one_pos.trans_le one_le_hours
  have hden {x : ℝ} : 0 < 1 + Real.log (1 + hours (max x 0)) :=
    one_pos.trans_le one_le_denominator
  rw [penalty, penalty, one_div_lt_one_div hden hden, add_lt_add_iff_left,
    Real.log_lt_log_iff hpos hpos, add_lt_add_iff_left, hours, hours,
    div_lt_div_iff_of_pos_right (by norm_num)]

theorem penalty_le_iff : penalty x ≤ penalty y ↔ max y 0 ≤ max x 0 := by
  rw [← not_lt, ← not_lt, penalty_lt_iff]

theorem penalty_pos : 0 < penalty x :=
  one_div_pos.mpr (one_pos.trans_le one_le_denominator)

@[simp] theorem penalty_zero : penalty 0 = 1 := by
  simp [penalty, hours]

theorem penalty_le_one : penalty x ≤ 1 := by
  rw [← penalty_zero, penalty_le_iff, max_self]
  exact le_max_right x 0

theorem penalty_eq_one_iff (h : 0 ≤ x) : penalty x = 1 ↔ x = 0 := by
  refine ⟨fun hone => ?_, fun hzero => hzero ▸ penalty_zero⟩
  rw [← penalty_zero] at hone
  have hle := penalty_le_iff.mp hone.ge
  rw [max_eq_left h, max_self] at hle
  exact le_antisymm hle h

/-! ### Usage that is not negative -/

/-- **The factors are monotone**: each is positive and at most 1, and 1 for no usage only; usage
that is added lowers the factor of its user and no other; and a decay lowers none and keeps
their order. -/
structure FactorsMonotone (m : FairShareManager ℝ) : Prop where
  pos : ∀ u, 0 < m.getPriorityFactor realLibm u
  le_one : ∀ u, m.getPriorityFactor realLibm u ≤ 1
  eq_one_iff : ∀ u, m.getPriorityFactor realLibm u = 1 ↔ m.usage u = 0
  addUsage_lt : ∀ u cpuSeconds, 0 < cpuSeconds →
    (m.addUsage u cpuSeconds).getPriorityFactor realLibm u < m.getPriorityFactor realLibm u
  addUsage_eq : ∀ u cpuSeconds v, v ≠ u →
    (m.addUsage u cpuSeconds).getPriorityFactor realLibm v = m.getPriorityFactor realLibm v
  le_applyDecay : ∀ now u, m.getPriorityFactor realLibm u ≤
    (m.applyDecay realLibm now).getPriorityFactor realLibm u
  applyDecay_le_iff : ∀ now u v, (m.applyDecay realLibm now).getPriorityFactor realLibm u ≤
      (m.applyDecay realLibm now).getPriorityFactor realLibm v ↔
    m.getPriorityFactor realLibm u ≤ m.getPriorityFactor realLibm v

/-- The usage is not negative, and it does decay. -/
structure NonNeg (m : FairShareManager ℝ) : Prop where
  usage : ∀ u, 0 ≤ m.usage u
  halfLife : 0 < m.halfLife

/-- What is added is not negative. -/
def addsNonNeg : UsageOp → Prop
  | .addUsage _ cpuSeconds => 0 ≤ cpuSeconds
  | .applyDecay => True

variable {now t₀ : ℤ} {halfLifeHours : ℝ} {calls : List (ℤ × UsageOp)}

theorem nonNeg_create : NonNeg (create t₀ halfLifeHours) where
  usage _ := le_rfl
  halfLife := by
    rw [halfLife, create]
    split
    · positivity
    · norm_num

theorem NonNeg.exec {op : UsageOp} (h : NonNeg m) (hop : addsNonNeg op) :
    NonNeg (m.exec now op) := by
  cases op with
  | addUsage u cpuSeconds =>
    refine ⟨fun v => ?_, h.halfLife⟩
    rw [FairShareManager.exec, usage_addUsage]
    split
    · exact add_nonneg (h.usage v) hop
    · exact h.usage v
  | applyDecay =>
    refine ⟨fun v => ?_, ?_⟩
    · rw [FairShareManager.exec, usage_applyDecay]
      exact mul_nonneg (h.usage v) HalfLife.factor_pos.le
    · rw [FairShareManager.exec, halfLife_applyDecay]
      exact h.halfLife

theorem NonNeg.run (h : NonNeg m) (hcalls : ∀ call ∈ calls, addsNonNeg call.2) :
    NonNeg (m.run calls) := by
  induction calls generalizing m with
  | nil => exact h
  | cons call calls ih =>
    obtain ⟨hcall, hcalls⟩ := List.forall_mem_cons.mp hcalls
    exact ih (h.exec hcall) hcalls

/-- A decay scales the usage of all users by one factor, which is at most 1. -/
theorem NonNeg.usage_applyDecay (h : NonNeg m) (now : ℤ) : ∃ d, 0 < d ∧ d ≤ 1 ∧
    ∀ u, (m.applyDecay realLibm now).usage u = m.usage u * d := by
  refine ⟨_, HalfLife.factor_pos, HalfLife.factor_le_one h.halfLife ?_,
    fun u => FairShareManager.usage_applyDecay⟩
  rw [lastDecayTime_applyDecay, sub_nonneg, Int.cast_le]
  exact le_max_left _ _

theorem NonNeg.factorsMonotone (h : NonNeg m) : FactorsMonotone m where
  pos u := by
    rw [getPriorityFactor_eq]
    exact penalty_pos
  le_one u := by
    rw [getPriorityFactor_eq]
    exact penalty_le_one
  eq_one_iff u := by
    rw [getPriorityFactor_eq]
    exact penalty_eq_one_iff (h.usage u)
  addUsage_lt u cpuSeconds hpos := by
    have hlt : m.usage u < m.usage u + cpuSeconds := lt_add_of_pos_right _ hpos
    rw [getPriorityFactor_eq, getPriorityFactor_eq, usage_addUsage, if_pos rfl, penalty_lt_iff,
      max_eq_left (h.usage u), max_eq_left ((h.usage u).trans hlt.le)]
    exact hlt
  addUsage_eq u cpuSeconds v hne := by
    rw [getPriorityFactor_eq, getPriorityFactor_eq, usage_addUsage, if_neg hne]
  le_applyDecay now u := by
    obtain ⟨d, hd, hd₁, husage⟩ := h.usage_applyDecay now
    rw [getPriorityFactor_eq, getPriorityFactor_eq, husage, penalty_le_iff]
    exact max_le_max_right 0 (mul_le_of_le_one_right (h.usage u) hd₁)
  applyDecay_le_iff now u v := by
    obtain ⟨d, hd, hd₁, husage⟩ := h.usage_applyDecay now
    have hnonneg (w : String) : 0 ≤ m.usage w * d := mul_nonneg (h.usage w) hd.le
    simp only [getPriorityFactor_eq, husage, penalty_le_iff, max_eq_left (hnonneg _),
      max_eq_left (h.usage _)]
    exact mul_le_mul_iff_left₀ hd

/-- **The factors are monotone** after any additions that are not negative and any decays. -/
theorem factors_monotone (t₀ : ℤ) (halfLifeHours : ℝ)
    (hcalls : ∀ call ∈ calls, addsNonNeg call.2) :
    FactorsMonotone ((create t₀ halfLifeHours).run calls) :=
  (nonNeg_create.run hcalls).factorsMonotone

/-- The law at work: another hour lowers the factor of a user with one, also after a decay. -/
theorem factors_monotone_hours :
    (((create 0 24).run [(10, .addUsage "ann" 3600), (20, .applyDecay)]).addUsage "ann"
        3600).getPriorityFactor realLibm "ann" <
      ((create 0 24).run [(10, .addUsage "ann" 3600), (20, .applyDecay)]).getPriorityFactor
        realLibm "ann" := by
  have hcalls : ∀ call ∈ [((10 : ℤ), UsageOp.addUsage "ann" 3600), (20, .applyDecay)],
      addsNonNeg call.2 := by
    simp [addsNonNeg]
  exact (factors_monotone 0 24 hcalls).addUsage_lt "ann" 3600 (by norm_num)

end FairShareManager

namespace SchedulerEngine

/-- The effective priority of a job, under a fair-share table over the real numbers. -/
noncomputable def priorityUnder (m : FairShareManager ℝ) (job : JobInfo) : ℝ :=
  effectivePriority (fun userId => m.getPriorityFactor realLibm userId) job

variable {m : FairShareManager ℝ} {a b : JobInfo}

/-- **When heavier usage does not help**: of two jobs with the same priority, that of the user
with more usage does not come first if and only if the priority is not negative, or the usage
is no penalty, or it is the same. -/
theorem priorityUnder_le_iff (hpriority : a.spec.priority = b.spec.priority)
    (husage : m.usage b.userId ≤ m.usage a.userId) :
    priorityUnder m a ≤ priorityUnder m b ↔
      0 ≤ a.spec.priority ∨ m.usage a.userId ≤ 0 ∨ m.usage a.userId = m.usage b.userId := by
  have hfactor : FairShareManager.penalty (m.usage a.userId) ≤
      FairShareManager.penalty (m.usage b.userId) :=
    FairShareManager.penalty_le_iff.mpr (max_le_max_right 0 husage)
  simp only [priorityUnder, effectivePriority, FairShareManager.getPriorityFactor_eq, ← hpriority]
  rcases le_or_gt 0 a.spec.priority with h | h
  · have hcast : (0 : ℝ) ≤ a.spec.priority := Int.cast_nonneg h
    exact iff_of_true (mul_le_mul_of_nonneg_left hfactor hcast) (Or.inl h)
  · -- a negative priority turns the order of the factors around
    have hcast : (a.spec.priority : ℝ) < 0 := Int.cast_lt_zero.mpr h
    rw [mul_le_mul_left_of_neg hcast, FairShareManager.penalty_le_iff, or_iff_right (not_le.mpr h)]
    rcases le_or_gt (m.usage a.userId) 0 with hnone | hsome
    · rw [max_eq_right hnone]
      exact iff_of_true (le_max_right _ _) (Or.inl hnone)
    · rw [max_eq_left hsome.le, or_iff_right (not_le.mpr hsome), le_max_iff,
        or_iff_left (not_le.mpr hsome)]
      exact ⟨fun hle => le_antisymm hle husage, fun heq => heq.le⟩

/-- A job of a user, with a priority. -/
def jobWith (userId : String) (priority : ℤ) : JobInfo :=
  { userId := userId, spec := { priority := priority } }

/-- A table in which only Ann has usage. -/
noncomputable def annsSecond : FairShareManager ℝ :=
  (FairShareManager.create 0 1).addUsage "ann" 1

theorem usage_annsSecond : annsSecond.usage "ann" = 1 ∧ annsSecond.usage "bob" = 0 := by
  constructor <;> simp [annsSecond, FairShareManager.usage_addUsage] <;> rfl

theorem annsSecond_le : annsSecond.usage "bob" ≤ annsSecond.usage "ann" := by
  rw [usage_annsSecond.1, usage_annsSecond.2]
  norm_num

/-- The law at work: with a positive priority Ann's job does not come first. -/
theorem priorityUnder_le_one :
    priorityUnder annsSecond (jobWith "ann" 1) ≤ priorityUnder annsSecond (jobWith "bob" 1) :=
  (priorityUnder_le_iff (a := jobWith "ann" 1) (b := jobWith "bob" 1) rfl annsSecond_le).mpr
    (Or.inl one_pos.le)

/-- **Usage helps a job of negative priority**: Ann has used a second, Bob nothing, and of two
jobs of priority -1 hers has the greater effective priority. -/
theorem usage_helps : annsSecond.usage "bob" ≤ annsSecond.usage "ann" ∧
    ¬ priorityUnder annsSecond (jobWith "ann" (-1)) ≤
      priorityUnder annsSecond (jobWith "bob" (-1)) := by
  have hlt : FairShareManager.penalty (annsSecond.usage "ann") <
      FairShareManager.penalty (annsSecond.usage "bob") := by
    rw [FairShareManager.penalty_lt_iff, usage_annsSecond.1, usage_annsSecond.2]
    norm_num
  refine ⟨annsSecond_le, not_le.mpr ?_⟩
  simpa [priorityUnder, effectivePriority, jobWith, FairShareManager.getPriorityFactor_eq] using hlt

end SchedulerEngine

end CertOS
