import CertOS.Master.SilentNodes
import Mathlib.Algebra.Order.Field.Basic
import Mathlib.Analysis.SpecialFunctions.Pow.Real

/-!
# The fair-share table

`FairShareManager` keeps the CPU time each user has consumed, with an exponential decay, and
turns it into a factor by which the scheduler lowers the priority of the user's jobs. The
arithmetic is that of an ordered field, with the two functions of `<cmath>` the table uses
as parameters (`CertOS.Libm`).

The table is filled by `add_usage`, and no part of the master calls it: a report of a
completed job goes to the job table, with its CPU time left aside. So along every run of the
master the table is empty (`CertOS.userUsage_run`) and every factor is 1, and consumed CPU
time lowers the priority of a user just as long as none has been consumed
(`CertOS.usage_lowers_iff`).
-/

namespace CertOS

open Interleave

/-- The functions of `<cmath>` in the table. -/
structure Libm (K : Type) where
  /-- `std::pow`. -/
  pow : K → K → K
  /-- `std::log1p`. -/
  log1p : K → K

/-- `FairShareManager`. -/
structure FairShareManager (K : Type) where
  /-- `half_life_hours_`. -/
  halfLifeHours : K
  /-- `last_decay_time_`. -/
  lastDecayTime : ℤ
  /-- `user_usage_`. -/
  userUsage : Table String K := ∅

namespace FairShareManager

variable {K : Type} [Field K] [LinearOrder K]

/-! ### The methods -/

/-- The constructor. -/
def create (now : ℤ) (halfLifeHours : K) : FairShareManager K where
  halfLifeHours := if halfLifeHours > 0 then halfLifeHours else 24
  lastDecayTime := now

/-- `add_usage`. -/
def addUsage (userId : String) (cpuSeconds : K) (m : FairShareManager K) : FairShareManager K :=
  { m with
    userUsage := m.userUsage.insert userId ((m.userUsage.lookup userId).getD 0 + cpuSeconds) }

variable (M : Libm K)

/-- `apply_decay`. -/
def applyDecay (now : ℤ) (m : FairShareManager K) : FairShareManager K :=
  let hoursElapsed : K := ((now - m.lastDecayTime : ℤ) : K) / 3600
  if hoursElapsed ≤ 0 then m
  else
    let decayFactor := M.pow (1 / 2) (hoursElapsed / m.halfLifeHours)
    { m with
      userUsage := m.userUsage.mapValues fun _ usage => usage * decayFactor
      lastDecayTime := now }

/-- `get_priority_factor`. -/
def getPriorityFactor (userId : String) (m : FairShareManager K) : K :=
  match m.userUsage.lookup userId with
  | none => 1
  | some usage => if usage ≤ 0 then 1 else 1 / (1 + M.log1p (usage / 3600))

/-! ### Seconds and hours -/

/-- The half-life in seconds. -/
def halfLife (m : FairShareManager K) : K := 3600 * m.halfLifeHours

/-- CPU seconds in hours. -/
def hours (cpuSeconds : K) : K := cpuSeconds / 3600

/-! ### The empty table -/

/-- The decay adds no entry. -/
theorem userUsage_applyDecay (now : ℤ) {m : FairShareManager K} (h : m.userUsage = ∅) :
    (m.applyDecay M now).userUsage = ∅ := by
  simp only [applyDecay]
  split
  · exact h
  · rw [h]
    rfl

/-- A user without an entry has the greatest factor. -/
theorem getPriorityFactor_of_empty {m : FairShareManager K} (h : m.userUsage = ∅)
    (userId : String) : m.getPriorityFactor M userId = 1 := by
  rw [getPriorityFactor, h]
  rfl

end FairShareManager

/-! ### The master with its table -/

variable {K Db : Type} [Field K] [LinearOrder K] {M : Libm K} {P : Platform Db (FairShareManager K)}

/-- The platform decays the fair-share table as the source does. -/
def DecaysWith (M : Libm K) (P : Platform Db (FairShareManager K)) : Prop :=
  P.applyDecay = FairShareManager.applyDecay M

/-- No operation of the master adds usage. -/
theorem userUsage_exec (hP : DecaysWith M P) (e : Env) (op : MasterOp)
    {s : MasterState Db (FairShareManager K)} (h : s.fairShare.userUsage = ∅) :
    (s.exec P e op).2.fairShare.userUsage = ∅ := by
  cases op with
  | applyDecay =>
    rw [MasterState.exec_applyDecay, hP]
    exact FairShareManager.userUsage_applyDecay M e.now h
  | _ => exact h

/-- **The table stays empty** along every run of the master. -/
theorem userUsage_run (hP : DecaysWith M P)
    {ok : MasterConfig Db (FairShareManager K) → MasterEvent → Prop}
    {c c' : MasterConfig Db (FairShareManager K)} {es : List MasterEvent}
    (h : (master P).Run ok c es c') (hc : c.state.fairShare.userUsage = ∅) :
    c'.state.fairShare.userUsage = ∅ :=
  h.state_invariant (J := fun s => s.fairShare.userUsage = ∅) hc fun _ _ _ e op _ hempty =>
    userUsage_exec hP e op hempty

/-! ### Reports of completed jobs -/

/-- **A job of the user is reported as completed**: `report` is carried out at time `now`, on
a job of `userId`, and is followed by the events `later`. -/
def ReportsCompletion (P : Platform Db (FairShareManager K))
    (c₀ : MasterConfig Db (FairShareManager K)) (es : List MasterEvent) (userId : String)
    (report : JobCompletedReport) (now : ℤ) (later : List MasterEvent) : Prop :=
  ∃ es₁ c₁ i metadata e info,
    es = es₁ ++ .did i (.rpc metadata (.reportJobCompleted report)) e
      (.job (.updateJobStatus report.jobId .completed report.nodeId)) true :: later ∧
    (master P).Run (fun c ev => wired c ev = true) c₀ es₁ c₁ ∧
    c₁.state.jobMgr.jobs.lookup report.jobId = some info ∧ info.userId = userId ∧ e.now = now

/-- **A user has just consumed CPU time**: a job of the user was reported as completed, with a
positive CPU time, and the clock has not moved since. -/
def JustConsumed (P : Platform Db (FairShareManager K))
    (c₀ : MasterConfig Db (FairShareManager K)) (es : List MasterEvent) (userId : String) : Prop :=
  ∃ report now later, ReportsCompletion P c₀ es userId report now later ∧ 0 < report.cpuTimeMs ∧
    ∀ ev ∈ later, ∀ t, eventTime ev = some t → t = now

/-- **Consumed CPU time lowers the priority**: a user who has just consumed some has a factor
below 1, and a user without a completed job has the factor 1. -/
def UsageLowers (M : Libm K) (P : Platform Db (FairShareManager K))
    (c₀ : MasterConfig Db (FairShareManager K)) (es : List MasterEvent)
    (c : MasterConfig Db (FairShareManager K)) : Prop :=
  (∀ u, JustConsumed P c₀ es u → c.state.fairShare.getPriorityFactor M u < 1) ∧
    ∀ u, (∀ report now later, ¬ ReportsCompletion P c₀ es u report now later) →
      c.state.fairShare.getPriorityFactor M u = 1

/-- **Consumed CPU time lowers the priority** at the end of a run of the master if and only
if no user has just consumed any. -/
theorem usage_lowers_iff (hP : DecaysWith M P) {db : Option Db} {adminDb : Db} {t₀ : ℤ}
    {halfLifeHours : K} {es : List MasterEvent} {c : MasterConfig Db (FairShareManager K)}
    (h : (master P).Run (fun c ev => wired c ev = true)
      (masterStart db adminDb (.create t₀ halfLifeHours)) es c) :
    UsageLowers M P (masterStart db adminDb (.create t₀ halfLifeHours)) es c ↔
      ∀ u, ¬ JustConsumed P (masterStart db adminDb (.create t₀ halfLifeHours)) es u := by
  have hone := FairShareManager.getPriorityFactor_of_empty M (userUsage_run hP h rfl)
  constructor
  · intro hlow u hu
    have hlt := hlow.1 u hu
    rw [hone u] at hlt
    exact lt_irrefl _ hlt
  · intro hnone
    exact ⟨fun u hu => absurd hu (hnone u), fun u _ => hone u⟩

/-! ### A completed job -/

/-- The functions over the real numbers. -/
noncomputable def realLibm : Libm ℝ where
  pow x y := x ^ y
  log1p x := Real.log (1 + x)

/-- The ideal store, and the fair-share table over the real numbers. -/
noncomputable def fairPlatform : Platform Tables (FairShareManager ℝ) where
  store := idealStore
  json := ⟨fun _ => none, fun _ => none⟩
  validateToken _ := none
  applyDecay := FairShareManager.applyDecay realLibm

theorem decaysWith_fairPlatform : DecaysWith realLibm fairPlatform := rfl

/-- A master with a half-life of a day. -/
noncomputable def fairStart : MasterConfig Tables (FairShareManager ℝ) :=
  masterStart none {} (.create 100 24)

/-- The step belongs to a report of a completed job. -/
def isCompletion : MasterEvent → Bool
  | .did _ (.rpc _ (.reportJobCompleted _)) _ _ _ => true
  | _ => false

omit [Field K] [LinearOrder K] in
theorem exists_isCompletion {c₀ : MasterConfig Db (FairShareManager K)} {es : List MasterEvent}
    {u : String} (h : JustConsumed P c₀ es u) : ∃ ev ∈ es, isCompletion ev = true := by
  obtain ⟨report, now, later, ⟨es₁, c₁, i, metadata, e, info, rfl, -⟩, -⟩ := h
  exact ⟨_, List.mem_append_right _ List.mem_cons_self, rfl⟩

/-- The law at work: a job is assigned and fetched, and nobody has consumed anything. -/
theorem usage_lowers_assigned : ∃ es c,
    (master fairPlatform).Run (fun c ev => wired c ev = true) fairStart es c ∧
      UsageLowers realLibm fairPlatform fairStart es c := by
  obtain ⟨es, c, h, hnone⟩ := System.exists_trace (S := master fairPlatform)
    (g := fun c ev => wired c ev) (c := fairStart)
    (p := fun es _ => es.all fun ev => !isCompletion ev) assignSchedule (by decide)
  refine ⟨es, c, h, (usage_lowers_iff decaysWith_fairPlatform h).mpr fun u hu => ?_⟩
  obtain ⟨ev, hev, hcomp⟩ := exists_isCompletion hu
  have hnot := List.all_eq_true.mp hnone ev hev
  simp [hcomp] at hnot

/-- The report of a job that has run for an hour of CPU time. -/
def hourReport : JobCompletedReport where
  nodeId := "node-00000000"
  jobId := "job-00000000"
  cpuTimeMs := 3600000

/-- The step carries this report out, at time 200. -/
def reportsHour : MasterEvent → Bool
  | .did _ (.rpc _ (.reportJobCompleted report)) e (.job (.updateJobStatus j status n)) r =>
    report = hourReport ∧ e.now = 200 ∧ j = report.jobId ∧ status = .completed ∧
      n = report.nodeId ∧ r = true
  | _ => false

/-- **An hour of CPU time costs nothing**: a job is reported as completed with an hour of CPU
time, no time passes, and the factor of its user is 1. -/
theorem usage_costs_nothing : ∃ es c,
    (master fairPlatform).Run (fun c ev => wired c ev = true) fairStart es c ∧
      JustConsumed fairPlatform fairStart es "unknown" ∧
      c.state.fairShare.getPriorityFactor realLibm "unknown" = 1 ∧
      ¬ UsageLowers realLibm fairPlatform fairStart es c := by
  obtain ⟨es, c, h, hp⟩ := System.exists_run (S := master fairPlatform)
    (g := fun c ev => wired c ev) (c := fairStart)
    (p := fun c =>
      (c.state.jobMgr.jobs.lookup "job-00000000").map JobInfo.userId = some "unknown" ∧
        ((master fairPlatform).move c (.move 4 { now := 200 })).any fun r => reportsHour r.1)
    (assignSchedule ++ [.start (.rpc [] (.reportJobCompleted hourReport))]) (by decide)
  obtain ⟨huser, hmove⟩ := of_decide_eq_true hp
  obtain ⟨info, hj, hu⟩ := Option.map_eq_some_iff.mp huser
  obtain ⟨ev, c', hstep, hev⟩ := System.exists_step _ hmove
  have hwired : wired c ev = true := by
    cases hstep with
    | start t => cases hev
    | did => rfl
  have hrun := h.snoc hwired hstep
  have hone := FairShareManager.getPriorityFactor_of_empty realLibm
    (userUsage_run decaysWith_fairPlatform hrun rfl)
  have hjust : JustConsumed fairPlatform fairStart (es ++ [ev]) "unknown" := by
    simp only [reportsHour] at hev
    split at hev
    · rename_i i metadata report e j status n r
      obtain ⟨rfl, hnow, rfl, rfl, rfl, rfl⟩ := of_decide_eq_true hev
      exact ⟨hourReport, 200, [], ⟨es, c, i, metadata, e, info, rfl, h, hj, hu, hnow⟩, by decide,
        fun _ hlater => by cases hlater⟩
    · cases hev
  refine ⟨_, c', hrun, hjust, hone _, fun hlow => ?_⟩
  have hlt := hlow.1 _ hjust
  rw [hone] at hlt
  exact lt_irrefl _ hlt

end CertOS
