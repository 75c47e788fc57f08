import CertOS.Counters
import CertOS.Metrics.SystemMonitor
import Mathlib.Data.List.Chain

/-!
# The CPU usage

The CPU usage is what the total of the counters has gained from one reading to the next, less
the share of it that is idle. The idle time is a part of the total, so it should gain no more
than the total does; but the kernel may take back some of a counter, and when the idle time goes
down, its difference is close to `2 ^ 64` and the usage is far below zero. It is below zero, too,
when one of the other counters goes down and the idle time makes up for it.

So along a sequence of readings whose totals do not go down, every value that is returned is a
percentage just if from each reading to the next the total stays as it is, or neither its idle
part nor the rest goes down (`CertOS.cpu_usage_percentage_iff`).
-/

namespace CertOS

/-! ### Readings -/

/-- A reading of `/proc/stat`: the counters of its first line, the columns of this line behind
them, and the lines below. -/
structure CpuReading where
  user : Scan.Column
  nice : Scan.Column
  system : Scan.Column
  idle : Scan.Column
  iowait : Scan.Column
  irq : Scan.Column
  softirq : Scan.Column
  steal : Scan.Column
  guest : List Scan.Column := []
  below : List Char := []

namespace CpuReading

/-- The eight counters. -/
def times (r : CpuReading) : CpuTimes where
  user := r.user.value
  nice := r.nice.value
  system := r.system.value
  idle := r.idle.value
  iowait := r.iowait.value
  irq := r.irq.value
  softirq := r.softirq.value
  steal := r.steal.value

/-- The columns of the first line. -/
def columns (r : CpuReading) : List Scan.Column :=
  [r.user, r.nice, r.system, r.idle, r.iowait, r.irq, r.softirq, r.steal] ++ r.guest

/-- The text of a reading. -/
def text (r : CpuReading) : List Char :=
  (['c', 'p', 'u'] ++ Scan.row r.columns) ++ '\n' :: r.below

/-- The time that counts as idle. -/
def idleTime (r : CpuReading) : ℕ := r.idle.value.toNat + r.iowait.value.toNat

/-- The time that does not. -/
def busyTime (r : CpuReading) : ℕ :=
  r.user.value.toNat + r.nice.value.toNat + r.system.value.toNat + r.irq.value.toNat +
    r.softirq.value.toNat + r.steal.value.toNat

/-- The total. -/
def totalTime (r : CpuReading) : ℕ := r.idleTime + r.busyTime

variable {r : CpuReading}

/-- No sum overflows, if the total does not. -/
theorem toNat_totalIdle (h : r.totalTime < 2 ^ 64) : r.times.totalIdle.toNat = r.idleTime := by
  rw [totalTime, idleTime] at h
  rw [CpuTimes.totalIdle, UInt64.toNat_add]
  exact Nat.mod_eq_of_lt (by simp only [times]; omega)

theorem toNat_total (h : r.totalTime < 2 ^ 64) : r.times.total.toNat = r.totalTime := by
  have hidle := toNat_totalIdle h
  rw [totalTime] at h ⊢
  have hbusy : r.times.totalNonIdle.toNat = r.busyTime := by
    rw [busyTime] at h
    simp only [CpuTimes.totalNonIdle, UInt64.toNat_add, times, busyTime]
    omega
  rw [CpuTimes.total, UInt64.toNat_add, hidle, hbusy, Nat.mod_eq_of_lt h]

/-- **The eight counters are read back.** -/
theorem extract_row (r : CpuReading) (uninit : CpuTimes) :
    CpuTimes.extract uninit { rest := Scan.row r.columns } = r.times := by
  simp only [columns, List.cons_append, List.nil_append, CpuTimes.extract, Scan.uint64_row]
  rfl

/-- **From one reading to the next** the total stays as it is, or neither its idle part nor the
rest goes down. -/
def Steady (r r' : CpuReading) : Prop :=
  r.totalTime = r'.totalTime ∨ (r.idleTime ≤ r'.idleTime ∧ r.busyTime ≤ r'.busyTime)

instance (r r' : CpuReading) : Decidable (Steady r r') := inferInstanceAs (Decidable (_ ∨ _))

end CpuReading

/-! ### One call -/

namespace SystemMonitor

variable {K : Type} [Field K] [LinearOrder K] {m : SystemMonitor} {r : CpuReading}

/-- **What a call makes of a reading** are its eight counters. -/
theorem getCpuUsage_text (r : CpuReading) (uninit : CpuTimes) (m : SystemMonitor) :
    getCpuUsage (some r.text) uninit m = (cpuUsageOf r.times m : K × SystemMonitor) := by
  have hline : '\n' ∉ ['c', 'p', 'u'] ++ Scan.row r.columns := by
    rw [List.mem_append, not_or]
    exact ⟨by decide, Scan.newline_not_mem_row _⟩
  have hword : Scan.word [] { rest := ['c', 'p', 'u'] ++ Scan.row r.columns } =
      (['c', 'p', 'u'], { rest := Scan.row r.columns }) :=
    Scan.word_blanks (w := ['c', 'p', 'u']) (by decide) (by decide)
      (Scan.stops_row (by decide) _) 0 []
  simp only [getCpuUsage, CpuReading.text, Scan.lines_append hline, List.headD_cons, hword,
    ne_eq, not_true_eq_false, if_false, CpuReading.extract_row]

/-- What is kept of a reading: its idle time and its total. -/
structure KeepsCpu (m : SystemMonitor) (idle busy : ℕ) : Prop where
  lastCpuIdle : m.lastCpuIdle.toNat = idle
  lastCpuTotal : m.lastCpuTotal.toNat = idle + busy

/-- A call keeps the reading, whatever it returns. -/
theorem keepsCpu_cpuUsageOf (h : r.totalTime < 2 ^ 64) :
    KeepsCpu (cpuUsageOf r.times m : K × SystemMonitor).2 r.idleTime r.busyTime := by
  simp only [cpuUsageOf]
  split
  · exact ⟨CpuReading.toNat_totalIdle h, CpuReading.toNat_total h⟩
  · exact ⟨CpuReading.toNat_totalIdle h, CpuReading.toNat_total h⟩

/-- **A call returns a percentage** just if the total stays as it is, or neither part of it goes
down. -/
theorem percentage_cpuUsageOf_iff [IsStrictOrderedRing K] {idle busy : ℕ}
    (hm : m.KeepsCpu idle busy) (hfit : r.totalTime < 2 ^ 64)
    (hmono : idle + busy ≤ r.totalTime) :
    (0 ≤ (cpuUsageOf r.times m : K × SystemMonitor).1 ∧
        (cpuUsageOf r.times m : K × SystemMonitor).1 ≤ 100) ↔
      idle + busy = r.totalTime ∨ (idle ≤ r.idleTime ∧ busy ≤ r.busyTime) := by
  have hidle : (r.times.totalIdle - m.lastCpuIdle).toNat =
      Counters.diff (2 ^ 64) idle r.idleTime := by
    rw [Counters.toNat_sub_eq_diff, hm.lastCpuIdle, CpuReading.toNat_totalIdle hfit]
  have htotal : (r.times.total - m.lastCpuTotal).toNat =
      Counters.diff (2 ^ 64) (idle + busy) r.totalTime := by
    rw [Counters.toNat_sub_eq_diff, hm.lastCpuTotal, CpuReading.toNat_total hfit]
  have hgain := Counters.diff_of_le (lt_of_le_of_lt hmono hfit) hfit hmono
  simp only [cpuUsageOf, hidle, htotal, Nat.cast_eq_zero]
  split
  · rename_i hzero
    exact iff_of_true ⟨le_rfl, by norm_num⟩ (Or.inl (by omega))
  · rename_i hne
    rw [Counters.percentage_iff hne, CpuReading.totalTime,
      Counters.diff_part_le_iff (lt_of_le_of_lt hmono hfit) hfit hmono]
    rw [CpuReading.totalTime] at hgain hne
    exact ⟨Or.inr, fun h => h.resolve_left fun heq => hne (by omega)⟩

/-! ### Every run -/

/-- What `get_cpu_usage` returns, call by call, where the calls find these files. -/
def cpuUsages (m : SystemMonitor) : List (Option (List Char) × CpuTimes) → List K
  | [] => []
  | (file, uninit) :: calls =>
    let (usage, m) := getCpuUsage file uninit m
    usage :: cpuUsages m calls

/-- The calls that find these readings. -/
def callsOf (rs : List (CpuReading × CpuTimes)) : List (Option (List Char) × CpuTimes) :=
  rs.map fun r => (some r.1.text, r.2)

theorem cpuUsages_callsOf_cons (m : SystemMonitor) (r : CpuReading × CpuTimes)
    (rs : List (CpuReading × CpuTimes)) :
    (cpuUsages m (callsOf (r :: rs)) : List K) =
      (cpuUsageOf r.1.times m).1 ::
        cpuUsages (cpuUsageOf r.1.times m : K × SystemMonitor).2 (callsOf rs) := by
  simp only [callsOf, List.map_cons, cpuUsages, getCpuUsage_text]

/-- **Behind a reading that is kept**, every value is a percentage just if each reading is
steady after the one before. -/
theorem percentage_cpuUsages_iff [IsStrictOrderedRing K] {rs : List (CpuReading × CpuTimes)} :
    ∀ {m : SystemMonitor} {r : CpuReading × CpuTimes},
    m.KeepsCpu r.1.idleTime r.1.busyTime → (∀ r' ∈ rs, r'.1.totalTime < 2 ^ 64) →
    (r :: rs).IsChain (fun r r' => r.1.totalTime ≤ r'.1.totalTime) →
    ((∀ usage ∈ (cpuUsages m (callsOf rs) : List K), 0 ≤ usage ∧ usage ≤ 100) ↔
      (r :: rs).IsChain fun r r' => r.1.Steady r'.1) := by
  induction rs with
  | nil =>
    intro m r hm hfit hmono
    exact iff_of_true (fun usage hmem => absurd hmem List.not_mem_nil) (List.isChain_singleton r)
  | cons r' rs ih =>
    intro m r hm hfit hmono
    obtain ⟨hle, hmono⟩ := List.isChain_cons_cons.mp hmono
    have hfit' := hfit r' List.mem_cons_self
    have hstep := percentage_cpuUsageOf_iff (K := K) hm hfit' hle
    have hrest := ih (keepsCpu_cpuUsageOf (K := K) (m := m) hfit')
      (fun r hr => hfit r (List.mem_cons_of_mem _ hr)) hmono
    rw [cpuUsages_callsOf_cons, List.forall_mem_cons, List.isChain_cons_cons, hrest, hstep]
    rfl

end SystemMonitor

/-! ### Main result -/

variable {K : Type} [Field K] [LinearOrder K] [IsStrictOrderedRing K]

/-- **The CPU usage is a percentage** just along the readings that are steady: for every
sequence of readings whose totals neither overflow nor go down, all values that `get_cpu_usage`
returns are between 0 and 100 if and only if from each reading to the next the total stays as it
is, or neither the idle part of it nor the rest goes down. -/
theorem cpu_usage_percentage_iff {rs : List (CpuReading × CpuTimes)}
    (hfit : ∀ r ∈ rs, r.1.totalTime < 2 ^ 64)
    (hmono : rs.IsChain fun r r' => r.1.totalTime ≤ r'.1.totalTime) :
    (∀ usage ∈ (SystemMonitor.cpuUsages {} (SystemMonitor.callsOf rs) : List K),
        0 ≤ usage ∧ usage ≤ 100) ↔
      rs.IsChain fun r r' => r.1.Steady r'.1 := by
  cases rs with
  | nil => exact iff_of_true (fun usage hmem => absurd hmem List.not_mem_nil) List.isChain_nil
  | cons r rs =>
    have hfit' := hfit r List.mem_cons_self
    -- a new monitor has kept nothing, and no reading is below that
    have hstart : ({} : SystemMonitor).KeepsCpu 0 0 := ⟨rfl, rfl⟩
    have hfirst := (SystemMonitor.percentage_cpuUsageOf_iff (K := K) hstart hfit'
      (Nat.zero_le _)).mpr (Or.inr ⟨Nat.zero_le _, Nat.zero_le _⟩)
    rw [SystemMonitor.cpuUsages_callsOf_cons, List.forall_mem_cons, and_iff_right hfirst]
    exact SystemMonitor.percentage_cpuUsages_iff (SystemMonitor.keepsCpu_cpuUsageOf hfit')
      (fun r hr => hfit r (List.mem_cons_of_mem _ hr)) hmono

/-- A reading in columns as wide as their numbers. -/
def cpuLine (user idle iowait : UInt64) : CpuReading :=
  { user := ⟨0, user⟩, nice := ⟨0, 0⟩, system := ⟨0, 0⟩, idle := ⟨0, idle⟩, iowait := ⟨0, iowait⟩
    irq := ⟨0, 0⟩, softirq := ⟨0, 0⟩, steal := ⟨0, 0⟩ }

/-- What the variables happen to hold. -/
def noTimes : CpuTimes := ⟨0, 0, 0, 0, 0, 0, 0, 0⟩

/-- Two readings, of which the second follows when the machine has worked and rested. -/
def steadyReadings : List (CpuReading × CpuTimes) :=
  [(cpuLine 100 850 50, noTimes), (cpuLine 160 880 60, noTimes)]

theorem cpu_usage_percentage_steady :
    ((∀ r ∈ steadyReadings, r.1.totalTime < 2 ^ 64) ∧
      steadyReadings.IsChain fun r r' => r.1.totalTime ≤ r'.1.totalTime) ∧
    ((∀ usage ∈ (SystemMonitor.cpuUsages {} (SystemMonitor.callsOf steadyReadings) : List ℚ),
        0 ≤ usage ∧ usage ≤ 100) ↔
      steadyReadings.IsChain fun r r' => r.1.Steady r'.1) :=
  ⟨by decide, cpu_usage_percentage_iff (by decide) (by decide)⟩

/-- Two readings, of which the second has less time of waiting than the first. -/
def takenBack : List (CpuReading × CpuTimes) :=
  [(cpuLine 100 850 50, noTimes), (cpuLine 200 850 40, noTimes)]

/-- **The usage is far below zero** when the time of waiting goes down by ten: the second value
is `(1 - (2 ^ 64 - 10) / 90) * 100`. -/
theorem usage_below_zero :
    ((∀ r ∈ takenBack, r.1.totalTime < 2 ^ 64) ∧
      takenBack.IsChain fun r r' => r.1.totalTime ≤ r'.1.totalTime) ∧
    SystemMonitor.cpuUsages {} (SystemMonitor.callsOf takenBack) =
      [(10 : ℚ), (1 - (2 ^ 64 - 10) / 90) * 100] ∧
    ¬ ∀ usage ∈ (SystemMonitor.cpuUsages {} (SystemMonitor.callsOf takenBack) : List ℚ),
        0 ≤ usage ∧ usage ≤ 100 := by
  decide +kernel

end CertOS
