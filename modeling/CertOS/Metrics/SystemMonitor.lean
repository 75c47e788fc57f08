import CertOS.Scan
import CertOS.Text
import Mathlib.Algebra.Order.Field.Basic

/-!
# The system monitor

`SystemMonitor::collect` reads what the kernel says of the machine and makes a snapshot of it.
Two of its parts are rates, the CPU usage and the traffic of the network, and come from counters
that the kernel only adds to: the monitor keeps what it has read and takes the difference at the
next call. The counters are unsigned, and so are the differences.

The numbers of type `double` are those of an ordered field, so that each division gives the
quotient. An extraction from a stream that has failed leaves its variable as it is, and the
source does not initialise the variables; what they hold then is a part of the environment of a
call (`CertOS.Machine`).
-/

namespace CertOS

/-! ### What is read -/

/-- The counters of a line of `/proc/stat`. -/
structure CpuTimes where
  user : UInt64
  nice : UInt64
  system : UInt64
  idle : UInt64
  iowait : UInt64
  irq : UInt64
  softirq : UInt64
  steal : UInt64
  deriving DecidableEq

/-- Bytes received and sent. -/
structure NetBytes where
  rx : UInt64
  tx : UInt64
  deriving DecidableEq

/-- What `sysinfo` fills in. -/
structure SysInfo where
  totalRam : UInt64
  freeRam : UInt64
  memUnit : UInt32
  loads : UInt64 × UInt64 × UInt64

/-- What `statvfs` fills in. -/
structure StatVfs where
  blocks : UInt64
  frSize : UInt64
  bFree : UInt64

/-- What one call of `collect` sees of the machine. A file that cannot be opened, or a call of
the system that fails, is `none`. -/
structure Machine where
  /-- `now_unix`. -/
  now : ℤ
  /-- `now_unix_ms`. -/
  nowMs : ℤ
  /-- `/proc/stat`. -/
  stat : Option (List Char)
  /-- `/proc/net/dev`. -/
  netDev : Option (List Char)
  /-- `sysinfo`, for the memory. -/
  memInfo : Option SysInfo
  /-- `sysinfo`, for the load. -/
  loadInfo : Option SysInfo
  /-- `statvfs`, for the root of the file system. -/
  disk : Option StatVfs
  /-- The directories of `/proc` whose names are numbers. -/
  processes : UInt32
  /-- What the variables of `get_cpu_usage` hold before anything is read. -/
  uninitTimes : CpuTimes
  /-- What the variables of `get_net_io` hold, with that many lines left. -/
  uninitBytes : ℕ → NetBytes

/-- What a monitor keeps from one call to the next. -/
structure SystemMonitor where
  /-- `last_cpu_total_`. -/
  lastCpuTotal : UInt64 := 0
  /-- `last_cpu_idle_`. -/
  lastCpuIdle : UInt64 := 0
  /-- `last_net_rx_`. -/
  lastNetRx : UInt64 := 0
  /-- `last_net_tx_`. -/
  lastNetTx : UInt64 := 0
  /-- `last_collection_time_`. -/
  lastCollectionTime : ℤ := 0
  deriving DecidableEq

/-! ### The CPU -/

namespace CpuTimes

/-- `total_idle`. -/
def totalIdle (t : CpuTimes) : UInt64 := t.idle + t.iowait

/-- `total_non_idle`. -/
def totalNonIdle (t : CpuTimes) : UInt64 :=
  t.user + t.nice + t.system + t.irq + t.softirq + t.steal

/-- `total`. -/
def total (t : CpuTimes) : UInt64 := t.totalIdle + t.totalNonIdle

/-- The eight extractions, into variables that hold `old`. -/
def extract (old : CpuTimes) (iss : Scan.Input) : CpuTimes :=
  let (user, iss) := Scan.uint64 old.user iss
  let (nice, iss) := Scan.uint64 old.nice iss
  let (system, iss) := Scan.uint64 old.system iss
  let (idle, iss) := Scan.uint64 old.idle iss
  let (iowait, iss) := Scan.uint64 old.iowait iss
  let (irq, iss) := Scan.uint64 old.irq iss
  let (softirq, iss) := Scan.uint64 old.softirq iss
  let (steal, _) := Scan.uint64 old.steal iss
  ⟨user, nice, system, idle, iowait, irq, softirq, steal⟩

end CpuTimes

namespace SystemMonitor

variable {K : Type} [Field K] [LinearOrder K]

/-- The part of `get_cpu_usage` behind the extractions. -/
def cpuUsageOf (t : CpuTimes) (m : SystemMonitor) : K × SystemMonitor :=
  let diffTotal : K := (t.total - m.lastCpuTotal).toNat
  let diffIdle : K := (t.totalIdle - m.lastCpuIdle).toNat
  let m := { m with lastCpuTotal := t.total, lastCpuIdle := t.totalIdle }
  if diffTotal = 0 then (0, m) else ((1 - diffIdle / diffTotal) * 100, m)

/-- `get_cpu_usage`. -/
def getCpuUsage (file : Option (List Char)) (uninit : CpuTimes) (m : SystemMonitor) :
    K × SystemMonitor :=
  match file with
  | none => (0, m)
  | some text =>
    let line := (Scan.lines text).headD []
    let (cpuLabel, iss) := Scan.word [] { rest := line }
    if cpuLabel ≠ ['c', 'p', 'u'] then (0, m)
    else cpuUsageOf (CpuTimes.extract uninit iss) m

/-! ### The network -/

/-- One turn of the loop of `get_net_io`: what the line of an interface adds, if it is not
skipped. -/
def netLine (uninit : NetBytes) (line : List Char) : Option NetBytes :=
  let (iface, iss) := Scan.word [] { rest := line }
  -- a search, so whatever the label is in which the loopback's is found
  if (Text.find ['l', 'o', ':'] iface).isSome then none
  else
    let (rxBytes, iss) := Scan.uint64 uninit.rx iss
    -- the seven times that `dummy` is read into, which nothing looks at
    let (_, iss) := Scan.uint64 0 iss
    let (_, iss) := Scan.uint64 0 iss
    let (_, iss) := Scan.uint64 0 iss
    let (_, iss) := Scan.uint64 0 iss
    let (_, iss) := Scan.uint64 0 iss
    let (_, iss) := Scan.uint64 0 iss
    let (_, iss) := Scan.uint64 0 iss
    let (txBytes, _) := Scan.uint64 uninit.tx iss
    some ⟨rxBytes, txBytes⟩

/-- The loop of `get_net_io`, over the lines that are left. -/
def netTotals (uninit : ℕ → NetBytes) (total : NetBytes) : List (List Char) → NetBytes
  | [] => total
  | line :: rest =>
    match netLine (uninit rest.length) line with
    | none => netTotals uninit total rest
    | some bytes => netTotals uninit ⟨total.rx + bytes.rx, total.tx + bytes.tx⟩ rest

/-- `get_net_io`: the two rates. -/
def getNetIo (file : Option (List Char)) (uninit : ℕ → NetBytes) (timeDeltaMs : ℤ)
    (m : SystemMonitor) : (K × K) × SystemMonitor :=
  match file with
  | none => ((0, 0), m)
  | some text =>
    -- the first two lines are a header
    let total := netTotals uninit ⟨0, 0⟩ ((Scan.lines text).drop 2)
    let seconds : K := timeDeltaMs / 1000
    let rates : K × K :=
      if timeDeltaMs > 0 ∧ m.lastNetRx > 0 then
        ((total.rx - m.lastNetRx).toNat / seconds, (total.tx - m.lastNetTx).toNat / seconds)
      else (0, 0)
    (rates, { m with lastNetRx := total.rx, lastNetTx := total.tx })

/-! ### The memory, the disk and the load -/

/-- How much of something is in use: in MB, in all, and in per cent. -/
structure Usage (K : Type) where
  usedMb : UInt64
  totalMb : UInt64
  percent : K

/-- What `get_ram_usage` and `get_disk_usage` make of a total and of what is free. -/
def usageOf (total free : UInt64) : Usage K where
  usedMb := (total - free) / (1024 * 1024)
  totalMb := total / (1024 * 1024)
  percent := if total > 0 then ((total - free).toNat : K) / total.toNat * 100 else 0

/-- `get_ram_usage`. -/
def getRamUsage : Option SysInfo → Usage K
  | none => ⟨0, 0, 0⟩
  | some info =>
    usageOf (info.totalRam * info.memUnit.toUInt64) (info.freeRam * info.memUnit.toUInt64)

/-- `get_disk_usage`. -/
def getDiskUsage : Option StatVfs → Usage K
  | none => ⟨0, 0, 0⟩
  | some stat => usageOf (stat.blocks * stat.frSize) (stat.bFree * stat.frSize)

/-- `get_load_avg`. -/
def getLoadAvg : Option SysInfo → K × K × K
  | none => (0, 0, 0)
  | some info =>
    ((info.loads.1.toNat : K) / 65536, (info.loads.2.1.toNat : K) / 65536,
      (info.loads.2.2.toNat : K) / 65536)

end SystemMonitor

/-! ### The snapshot -/

/-- `MetricsSnapshot`. -/
structure MetricsSnapshot (K : Type) where
  nodeId : String
  timestamp : ℤ
  cpuUsagePercent : K
  ram : SystemMonitor.Usage K
  disk : SystemMonitor.Usage K
  loadAvg : K × K × K
  networkRxBytesSec : K
  networkTxBytesSec : K
  gpuUsagePercent : K
  processCount : UInt32

namespace SystemMonitor

variable {K : Type} [Field K] [LinearOrder K]

/-- `collect`. -/
def collect (nodeId : String) (e : Machine) (m : SystemMonitor) :
    MetricsSnapshot K × SystemMonitor :=
  let timeDelta := e.nowMs - m.lastCollectionTime
  let (cpu, m) := getCpuUsage e.stat e.uninitTimes m
  let ((rx, tx), m) := getNetIo e.netDev e.uninitBytes timeDelta m
  ({ nodeId := nodeId
     timestamp := e.now
     cpuUsagePercent := cpu
     ram := getRamUsage e.memInfo
     disk := getDiskUsage e.disk
     loadAvg := getLoadAvg e.loadInfo
     networkRxBytesSec := rx
     networkTxBytesSec := tx
     gpuUsagePercent := 0
     processCount := e.processes },
    { m with lastCollectionTime := e.nowMs })

end SystemMonitor

end CertOS
