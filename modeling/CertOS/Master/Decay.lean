import CertOS.HalfLife
import CertOS.Master.FairShare

/-!
# The decay of the usage

The usage of a user decays with a half-life. The table keeps one number for each user and one
time for all of them, that of the last decay, and a decay scales every number by what has
become of a unit since then.

Decaying often is the same as decaying once (`CertOS.FairShareManager.lookup_decays`): the
clock readings in between cancel out, and a reading that is behind the last decay does nothing.

What is added between two decays is another matter. It goes into the number as if it had been
there since the last decay, and the next decay makes up for the time before it was added as
well. So the usage is not the sum of what was added, each addition decayed by its own age
(`CertOS.FairShareManager.decaysByAge_iff`): that takes additions at the time of a decay, or
some that cancel each other out.
-/

namespace CertOS

namespace FairShareManager

/-- The usage of a user. -/
noncomputable def usage (m : FairShareManager ℝ) (userId : String) : ℝ :=
  (m.userUsage.lookup userId).getD 0

/-! ### One decay -/

variable {m : FairShareManager ℝ} {now : ℤ} {userId : String}

/-- A decay by a number of hours is one by that many seconds. -/
theorem pow_hours (halfLifeHours elapsed : ℝ) :
    realLibm.pow (1 / 2) (elapsed / 3600 / halfLifeHours) =
      HalfLife.factor (3600 * halfLifeHours) elapsed := by
  rw [HalfLife.factor_eq, neg_div, ← HalfLife.half_rpow, div_div]
  rfl

/-- The guard of the decay compares two times. -/
theorem hoursElapsed_nonpos_iff : ((now - m.lastDecayTime : ℤ) : ℝ) / 3600 ≤ 0 ↔
    now ≤ m.lastDecayTime := by
  rw [div_le_iff₀ (by norm_num), zero_mul, Int.cast_nonpos, sub_nonpos]

/-- A clock reading that is not ahead of the last decay does nothing. -/
theorem applyDecay_of_le (h : now ≤ m.lastDecayTime) : m.applyDecay realLibm now = m := by
  rw [applyDecay]
  exact if_pos (hoursElapsed_nonpos_iff.mpr h)

/-- A reading that is ahead scales every usage, by what is left of a unit. -/
theorem applyDecay_of_lt (h : m.lastDecayTime < now) : m.applyDecay realLibm now =
    { m with
      userUsage := m.userUsage.mapValues fun _ usage =>
        usage * HalfLife.factor m.halfLife ((now - m.lastDecayTime : ℤ) : ℝ)
      lastDecayTime := now } := by
  simp only [applyDecay, if_neg (hoursElapsed_nonpos_iff.not.mpr (not_le.mpr h)), pow_hours]
  rfl

/-- The time of the last decay does not go back. -/
@[simp] theorem lastDecayTime_applyDecay :
    (m.applyDecay realLibm now).lastDecayTime = max m.lastDecayTime now := by
  rcases le_or_gt now m.lastDecayTime with h | h
  · rw [applyDecay_of_le h, max_eq_left h]
  · rw [applyDecay_of_lt h, max_eq_right h.le]

@[simp] theorem halfLife_applyDecay : (m.applyDecay realLibm now).halfLife = m.halfLife := by
  rcases le_or_gt now m.lastDecayTime with h | h
  · rw [applyDecay_of_le h]
  · rw [applyDecay_of_lt h]
    rfl

/-- **What a decay does**: it scales the usage by what is left of a unit, of the time by which
the last decay moves on. -/
theorem lookup_applyDecay : (m.applyDecay realLibm now).userUsage.lookup userId =
    (m.userUsage.lookup userId).map fun usage =>
      usage * HalfLife.factor m.halfLife
        (((m.applyDecay realLibm now).lastDecayTime - m.lastDecayTime : ℤ) : ℝ) := by
  rcases le_or_gt now m.lastDecayTime with h | h
  · simp [applyDecay_of_le h]
  · rw [applyDecay_of_lt h, Table.lookup_mapValues]

/-! ### Decays in a row -/

/-- The table after decays at some clock readings. -/
noncomputable def decays (times : List ℤ) (m : FairShareManager ℝ) : FairShareManager ℝ :=
  times.foldl (fun m now => m.applyDecay realLibm now) m

/-- **Decaying often is the same as decaying once**: after any decays the usage is what is left
of it after the time from the last decay before them to the latest of the clock readings. -/
theorem lookup_decays (times : List ℤ) (m : FairShareManager ℝ) (userId : String) :
    (m.decays times).userUsage.lookup userId =
      (m.userUsage.lookup userId).map fun usage =>
        usage * 2 ^ (-((times.foldl max m.lastDecayTime - m.lastDecayTime : ℤ) : ℝ) /
          (3600 * m.halfLifeHours)) := by
  simp only [← HalfLife.factor_eq]
  change _ = (m.userUsage.lookup userId).map fun usage => usage * HalfLife.factor m.halfLife _
  induction times generalizing m with
  | nil => simp [decays]
  | cons now times ih =>
    rw [decays, List.foldl_cons, ← decays, ih, lookup_applyDecay, Option.map_map,
      halfLife_applyDecay, List.foldl_cons, lastDecayTime_applyDecay]
    congr 1
    funext usage
    have hsum : ((times.foldl max (max m.lastDecayTime now) - m.lastDecayTime : ℤ) : ℝ) =
        ((max m.lastDecayTime now - m.lastDecayTime : ℤ) : ℝ) +
          ((times.foldl max (max m.lastDecayTime now) - max m.lastDecayTime now : ℤ) : ℝ) := by
      push_cast
      ring
    rw [hsum, HalfLife.factor_add, ← mul_assoc]
    rfl

/-! ### Additions and decays -/

/-- A call of the table that changes it. -/
inductive UsageOp where
  | addUsage (userId : String) (cpuSeconds : ℝ)
  | applyDecay

/-- One call, at a clock reading. -/
noncomputable def exec (now : ℤ) (op : UsageOp) (m : FairShareManager ℝ) : FairShareManager ℝ :=
  match op with
  | .addUsage userId cpuSeconds => m.addUsage userId cpuSeconds
  | .applyDecay => m.applyDecay realLibm now

/-- The table after some calls. -/
noncomputable def run (calls : List (ℤ × UsageOp)) (m : FairShareManager ℝ) :
    FairShareManager ℝ :=
  calls.foldl (fun m call => m.exec call.1 call.2) m

/-- Something added to the usage of a user. -/
structure Addition where
  /-- How much. -/
  amount : ℝ
  /-- When. -/
  time : ℤ
  /-- When the usage had been decayed last. -/
  decayed : ℤ

/-- **What is added to the usage of a user** by some calls, when the usage has been decayed
last at `decayed`. -/
def additions (userId : String) (decayed : ℤ) : List (ℤ × UsageOp) → List Addition
  | [] => []
  | (now, .addUsage u cpuSeconds) :: calls =>
    if u = userId then ⟨cpuSeconds, now, decayed⟩ :: additions userId decayed calls
    else additions userId decayed calls
  | (now, .applyDecay) :: calls => additions userId (max decayed now) calls

/-- **Each unit decays with its own age**: right after a decay at time `now`, what a user has is
what is left of the additions, each since its own time. -/
def DecaysByAge (t₀ : ℤ) (halfLifeHours : ℝ) (calls : List (ℤ × UsageOp)) (now : ℤ)
    (userId : String) : Prop :=
  (((create t₀ halfLifeHours).run calls).applyDecay realLibm now).usage userId =
    HalfLife.left (create t₀ halfLifeHours).halfLife Addition.amount (fun a => a.time)
      (additions userId t₀ calls) now

variable {calls : List (ℤ × UsageOp)}

theorem usage_addUsage (u : String) (cpuSeconds : ℝ) : (m.addUsage u cpuSeconds).usage userId =
    if userId = u then m.usage userId + cpuSeconds else m.usage userId := by
  simp only [usage, addUsage, Table.lookup_insert]
  split
  · rename_i h
    rw [h, Option.getD_some]
  · rfl

theorem usage_applyDecay : (m.applyDecay realLibm now).usage userId = m.usage userId *
    HalfLife.factor m.halfLife
      (((m.applyDecay realLibm now).lastDecayTime : ℝ) - m.lastDecayTime) := by
  rw [usage, lookup_applyDecay, usage, Int.cast_sub]
  cases m.userUsage.lookup userId with
  | none => simp
  | some usage => rfl

theorem halfLife_run : (m.run calls).halfLife = m.halfLife := by
  induction calls generalizing m with
  | nil => rfl
  | cons call calls ih =>
    obtain ⟨now, op⟩ := call
    rw [run, List.foldl_cons, ← run, ih]
    cases op with
    | addUsage => rfl
    | applyDecay => exact halfLife_applyDecay

/-- The last decay is not later than a time that is after all calls. -/
theorem lastDecayTime_run_le (hm : m.lastDecayTime ≤ now) (hcalls : ∀ call ∈ calls, call.1 ≤ now) :
    (m.run calls).lastDecayTime ≤ now := by
  induction calls generalizing m with
  | nil => exact hm
  | cons call calls ih =>
    obtain ⟨t, op⟩ := call
    obtain ⟨ht, hcalls⟩ := List.forall_mem_cons.mp hcalls
    rw [run, List.foldl_cons, ← run]
    refine ih ?_ hcalls
    cases op with
    | addUsage => exact hm
    | applyDecay => exact lastDecayTime_applyDecay.le.trans (max_le hm ht)

/-- **What a user has** after any calls: what is left of the usage before them and of the
additions, each since the last decay before it. -/
theorem usage_run (calls : List (ℤ × UsageOp)) (m : FairShareManager ℝ) (userId : String) :
    (m.run calls).usage userId =
      m.usage userId * HalfLife.factor m.halfLife ((m.run calls).lastDecayTime - m.lastDecayTime) +
        HalfLife.left m.halfLife Addition.amount (fun a => a.decayed)
          (additions userId m.lastDecayTime calls) (m.run calls).lastDecayTime := by
  induction calls generalizing m with
  | nil => simp [run, additions]
  | cons call calls ih =>
    obtain ⟨now, op⟩ := call
    rw [run, List.foldl_cons, ← run, ih]
    cases op with
    | addUsage u cpuSeconds =>
      rw [exec, usage_addUsage, additions]
      by_cases h : userId = u
      · rw [if_pos h, if_pos h.symm, HalfLife.left_cons, add_mul, add_assoc]
        rfl
      · rw [if_neg h, if_neg (Ne.symm h)]
        rfl
    | applyDecay =>
      rw [exec, usage_applyDecay, additions, halfLife_applyDecay, mul_assoc, ← HalfLife.factor_add,
        lastDecayTime_applyDecay]
      congr 3
      ring

/-! ### The age of an addition -/

variable {t₀ : ℤ} {halfLifeHours : ℝ}

theorem halfLife_create (h : 0 < halfLifeHours) :
    (create t₀ halfLifeHours).halfLife = 3600 * halfLifeHours := by
  rw [halfLife, create, if_pos h]

/-- While the clock goes on, nothing is added before the last decay. -/
theorem decayed_le_time (hclock : (t₀ :: calls.map Prod.fst).Pairwise (· ≤ ·)) :
    ∀ a ∈ additions userId t₀ calls, a.decayed ≤ a.time := by
  induction calls generalizing t₀ with
  | nil => simp [additions]
  | cons call calls ih =>
    obtain ⟨now, op⟩ := call
    rw [List.map_cons, List.pairwise_cons] at hclock
    obtain ⟨ht₀, hcalls⟩ := hclock
    have hnow : t₀ ≤ now := ht₀ now List.mem_cons_self
    cases op with
    | addUsage u cpuSeconds =>
      have hrest : (t₀ :: calls.map Prod.fst).Pairwise (· ≤ ·) :=
        List.pairwise_cons.mpr ⟨fun t ht => ht₀ t (List.mem_cons_of_mem _ ht),
          (List.pairwise_cons.mp hcalls).2⟩
      intro a ha
      rw [additions] at ha
      split at ha
      · rcases List.mem_cons.mp ha with rfl | ha
        · exact hnow
        · exact ih hrest a ha
      · exact ih hrest a ha
    | applyDecay =>
      intro a ha
      rw [additions, max_eq_right hnow] at ha
      exact ih hcalls a ha

/-- Right after a decay, what a user has is what is left of the additions, each since the last
decay before it. -/
theorem usage_decayed (h : 0 < halfLifeHours)
    (hclock : (t₀ :: (calls.map Prod.fst ++ [now])).Pairwise (· ≤ ·)) :
    (((create t₀ halfLifeHours).run calls).applyDecay realLibm now).usage userId =
      HalfLife.left (3600 * halfLifeHours) Addition.amount (fun a => a.decayed)
        (additions userId t₀ calls) now := by
  obtain ⟨hfirst, htimes⟩ := List.pairwise_cons.mp hclock
  have hlast : ((create t₀ halfLifeHours).run calls).lastDecayTime ≤ now := by
    refine lastDecayTime_run_le (hfirst now (List.mem_append_right _ List.mem_cons_self)) ?_
    intro call hcall
    exact (List.pairwise_append.mp htimes).2.2 call.1 (List.mem_map_of_mem hcall) now
      List.mem_cons_self
  have hnone : (create t₀ halfLifeHours).usage userId = 0 := rfl
  rw [usage_applyDecay, usage_run, hnone, zero_mul, zero_add, halfLife_run, halfLife_create h,
    ← HalfLife.left_add, lastDecayTime_applyDecay, max_eq_right hlast, add_sub_cancel]
  rfl

/-- **When each unit decays with its own age**: if and only if the additions come to the same
with the times of the last decays before them as with their own times. Of additions that are
not negative, that is so just when everything that is added is added at the time of a decay. -/
theorem decaysByAge_iff (h : 0 < halfLifeHours)
    (hclock : (t₀ :: (calls.map Prod.fst ++ [now])).Pairwise (· ≤ ·)) :
    (DecaysByAge t₀ halfLifeHours calls now userId ↔
      ((additions userId t₀ calls).map fun a =>
          a.amount * 2 ^ ((a.decayed : ℝ) / (3600 * halfLifeHours))).sum =
        ((additions userId t₀ calls).map fun a =>
          a.amount * 2 ^ ((a.time : ℝ) / (3600 * halfLifeHours))).sum) ∧
    ((∀ a ∈ additions userId t₀ calls, 0 ≤ a.amount) →
      (DecaysByAge t₀ halfLifeHours calls now userId ↔
        ∀ a ∈ additions userId t₀ calls, a.amount = 0 ∨ a.decayed = a.time)) := by
  have hhalf : 0 < 3600 * halfLifeHours := by positivity
  have hlaw : DecaysByAge t₀ halfLifeHours calls now userId ↔
      HalfLife.left (3600 * halfLifeHours) Addition.amount (fun a => a.decayed)
          (additions userId t₀ calls) now =
        HalfLife.left (3600 * halfLifeHours) Addition.amount (fun a => a.time)
          (additions userId t₀ calls) now := by
    rw [DecaysByAge, usage_decayed h hclock, halfLife_create h]
  constructor
  · rw [hlaw, HalfLife.left_eq_left_iff _ 0]
    simp only [HalfLife.left, HalfLife.factor_eq, zero_sub, neg_neg]
  · intro hamount
    have htimes : ∀ a ∈ additions userId t₀ calls, a.decayed ≤ a.time :=
      decayed_le_time (hclock.sublist (.cons_cons _ (List.sublist_append_left _ _)))
    rw [hlaw, HalfLife.left_eq_left_iff_of_le hhalf hamount
      fun a ha => Int.cast_le.mpr (htimes a ha)]
    simp only [Int.cast_inj]

/-- The law at work: an hour is added at the time of the decay, and decays with its age. -/
theorem decaysByAge_atDecay :
    DecaysByAge 0 1 [(3600, .applyDecay), (3600, .addUsage "ann" 3600)] 7200 "ann" := by
  refine ((decaysByAge_iff one_pos (by decide)).2 ?_).mpr ?_ <;> simp [additions]

/-- **A new hour counts half**: with a half-life of an hour, ten hours are added an hour after
the last decay and decayed at once. Five are left. -/
theorem new_usage_is_halved :
    (((create 0 1).run [(3600, .addUsage "ann" 36000)]).applyDecay realLibm 3600).usage "ann" =
        18000 ∧
      ¬ DecaysByAge 0 1 [(3600, .addUsage "ann" 36000)] 3600 "ann" := by
  have hhalf : (((create 0 1).run [(3600, .addUsage "ann" 36000)]).applyDecay realLibm
      3600).usage "ann" = 18000 := by
    rw [usage_decayed one_pos (by decide)]
    norm_num [additions, HalfLife.factor_eq]
  refine ⟨hhalf, fun hlaw => ?_⟩
  rw [DecaysByAge, hhalf, halfLife_create one_pos] at hlaw
  norm_num [additions] at hlaw

end FairShareManager

end CertOS
