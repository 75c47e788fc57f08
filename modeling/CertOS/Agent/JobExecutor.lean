import CertOS.Common
import CertOS.Interleave.Prog

/-!
# The job executor

`JobExecutor` runs the jobs of an agent: `execute_async` starts a thread for a
job, and the thread forks, waits for the child and reports how it ended. Between
the two stands `running_jobs_`, the map of the jobs there is a thread for.

What touches the map holds the executor's mutex, so it is an atomic operation of
`CertOS.ExecutorOp`; so is each system call of the thread. The thread itself is a
program over these operations, `CertOS.JobExecutor.executionThread`, with the two
callbacks of the daemon as parameters. How the child ends, and what it writes, is
up to the environment of the step (`CertOS.AgentEnv`).
-/

namespace CertOS

open Interleave

/-! ### How a process ends -/

/-- The ways in which a process ends: it exits with a code, or a signal kills it
and may leave a core file. The signals are numbered from 1. -/
inductive ProcessEnd where
  | exited (code : Fin 256)
  | signaled (sig : Fin 64) (core : Bool)
  deriving DecidableEq

namespace ProcessEnd

/-- The status word `waitpid` stores: the exit code in the second byte, or the
signal in the first with a bit for the core file. -/
def status : ProcessEnd → ℕ
  | .exited code => code * 0x100
  | .signaled sig core => sig + 1 + if core then 0x80 else 0

/-- The process exited normally with code 0. -/
def isSuccess (p : ProcessEnd) : Bool := p = .exited 0

end ProcessEnd

/-- `WTERMSIG`. -/
def wTermSig (status : ℕ) : ℕ := status % 0x80

/-- `WIFEXITED`. -/
def wIfExited (status : ℕ) : Bool := wTermSig status = 0

/-- `WEXITSTATUS`. -/
def wExitStatus (status : ℕ) : ℕ := status / 0x100 % 0x100

/-- `WIFSIGNALED`. -/
def wIfSignaled (status : ℕ) : Bool := 0 < wTermSig status ∧ wTermSig status < 0x7f

/-- `JobResult`. -/
structure JobResult where
  jobId : String
  exitCode : ℤ
  errorMessage : String := ""
  stdoutData : List UInt8 := []
  stderrData : List UInt8 := []
  success : Bool := false
  deriving DecidableEq

/-- What `execution_thread` makes of a status word. -/
def jobResult (jobId : String) (status : ℕ) (stdoutData : List UInt8) : JobResult :=
  if wIfExited status then
    { jobId, stdoutData
      exitCode := wExitStatus status
      success := wExitStatus status = 0 }
  else if wIfSignaled status then
    { jobId, stdoutData
      exitCode := 128 + wTermSig status
      errorMessage := "Process killed by signal " ++ toString (wTermSig status) }
  else { jobId, stdoutData, exitCode := -1 }

/-- **The exit code the executor computes**: the code of a process that exited,
and 128 more than the signal of one that was killed. -/
theorem jobResult_exitCode (jobId : String) (p : ProcessEnd) (stdoutData : List UInt8) :
    (jobResult jobId p.status stdoutData).exitCode =
      match p with
      | .exited code => (code : ℤ)
      | .signaled sig _ => 129 + sig := by
  cases p with
  | exited code =>
    have hcode := code.isLt
    have hterm : wTermSig (ProcessEnd.exited code).status = 0 := by
      simp only [wTermSig, ProcessEnd.status]
      omega
    have hexit : wExitStatus (ProcessEnd.exited code).status = code := by
      simp only [wExitStatus, ProcessEnd.status]
      omega
    simp [jobResult, wIfExited, hterm, hexit]
  | signaled sig core =>
    have hsig := sig.isLt
    have hterm : wTermSig (ProcessEnd.signaled sig core).status = sig + 1 := by
      simp only [wTermSig, ProcessEnd.status]
      split <;> omega
    have hlt : (sig : ℕ) + 1 < 0x7f := by omega
    simp only [jobResult, wIfExited, wIfSignaled, hterm, hlt]
    simp
    omega

/-- A process that was waited for has an exit code that is not negative. -/
theorem jobResult_exitCode_ne (jobId : String) (p : ProcessEnd) (stdoutData : List UInt8) :
    (jobResult jobId p.status stdoutData).exitCode ≠ -1 := by
  rw [jobResult_exitCode]
  cases p <;> dsimp only <;> omega

/-- The exit code is 0 just for a process that exited with code 0. -/
theorem jobResult_exitCode_eq_zero {jobId : String} {p : ProcessEnd} {stdoutData : List UInt8} :
    (jobResult jobId p.status stdoutData).exitCode = 0 ↔ p.isSuccess = true := by
  rw [jobResult_exitCode, ProcessEnd.isSuccess]
  cases p with
  | exited code =>
    simp only [ProcessEnd.exited.injEq, decide_eq_true_eq, Fin.ext_iff]
    exact Int.natCast_eq_zero
  | signaled sig core =>
    simp only [reduceCtorEq, decide_false]
    constructor
    · intro h
      omega
    · intro h
      cases h

/-! ### The operations -/

/-- An entry of `running_jobs_`: the process identifier, or 0 before the fork. -/
structure RunningJob where
  pid : ℕ := 0
  deriving DecidableEq

/-- `JobExecutor`: the map of the jobs there is a thread for. -/
structure JobExecutor where
  /-- `running_jobs_`. -/
  runningJobs : Table String RunningJob := ∅

/-- What a step of an agent sees of its environment. -/
structure AgentEnv where
  /-- Whether `pipe` succeeds. -/
  pipeOk : Bool := true
  /-- What `std::system` returns. -/
  systemStatus : ℤ := 0
  /-- The process identifier `fork` returns, if it succeeds. -/
  forkedPid : Option ℕ := some 1
  /-- What the calls of `read` return, up to the end of the file. -/
  chunks : List (List UInt8) := []
  /-- How the process ends that `waitpid` waits for. -/
  processEnd : ProcessEnd := .exited 0

instance : Inhabited AgentEnv := ⟨{}⟩

/-- The atomic steps of the executor. -/
inductive ExecutorOp where
  /-- `execute_async`. -/
  | executeAsync (jobId : String) (spec : JobSpec)
  /-- `cancel`. -/
  | cancel (jobId : String)
  /-- `get_running_count`. -/
  | getRunningCount
  /-- `pipe`. -/
  | pipe
  /-- `std::system`. -/
  | system (command : String)
  /-- `fork`, with the directory the child changes to and the arguments it goes on with. -/
  | fork (dir : Option String) (args : List String)
  /-- The section that registers the process identifier. -/
  | registerPid (jobId : String) (pid : ℕ)
  /-- The calls of `read`, up to the end of the file. -/
  | readOutput
  /-- `waitpid`. -/
  | waitpid (pid : ℕ)
  /-- The section that removes the job from the map. -/
  | removeRunning (jobId : String)
  deriving DecidableEq

/-- What the steps return. -/
@[reducible] def ExecutorOp.Res : ExecutorOp → Type
  | .executeAsync .. | .cancel _ => Bool
  | .getRunningCount => UInt32
  | .pipe => Bool
  | .system _ => ℤ
  | .fork .. => Option ℕ
  | .readOutput => List (List UInt8)
  | .waitpid _ => ProcessEnd
  | .registerPid .. | .removeRunning _ => Unit

namespace JobExecutor

/-- `execute_async`: a job is accepted if there is no thread for it. The thread
is started by the system (`CertOS.cluster`). -/
def executeAsync (jobId : String) (m : JobExecutor) : Bool × JobExecutor :=
  match m.runningJobs.lookup jobId with
  | some _ => (false, m)
  | none => (true, { m with runningJobs := m.runningJobs.insert jobId {} })

/-- `cancel`: whether there was a process to kill. How the process ends is up to
the environment. -/
def cancel (jobId : String) (m : JobExecutor) : Bool :=
  match m.runningJobs.lookup jobId with
  | some job => 0 < job.pid
  | none => false

/-- The meaning of the steps. -/
def exec (e : AgentEnv) : (op : ExecutorOp) → JobExecutor → op.Res × JobExecutor
  | .executeAsync jobId _, m => m.executeAsync jobId
  | .cancel jobId, m => (m.cancel jobId, m)
  | .getRunningCount, m => (UInt32.ofNat m.runningJobs.entries.length, m)
  | .pipe, m => (e.pipeOk, m)
  | .system _, m => (e.systemStatus, m)
  | .fork .., m => (e.forkedPid, m)
  | .registerPid jobId pid, m =>
    ((), { m with runningJobs := m.runningJobs.modify jobId fun _ => ⟨pid⟩ })
  | .readOutput, m => (e.chunks, m)
  | .waitpid _, m => (e.processEnd, m)
  | .removeRunning jobId, m => ((), { m with runningJobs := m.runningJobs.erase jobId })

/-! ### The thread of a job -/

/-- The directory of a job that comes with an archive. -/
def sandboxDir (workDir jobId : String) (spec : JobSpec) : String :=
  if spec.archivePath = "" then "" else workDir ++ "/" ++ jobId

/-- The command that unpacks the archive. -/
def untarCmd (workDir jobId : String) (spec : JobSpec) : String :=
  "tar -xzf " ++ spec.archivePath ++ " -C " ++ sandboxDir workDir jobId spec

/-- The directory the child changes to. Without an archive it stays in that of the agent. -/
def childDir (workDir jobId : String) (spec : JobSpec) : Option String :=
  if sandboxDir workDir jobId spec = "" then none else some (cStr (sandboxDir workDir jobId spec))

/-- The arguments of the child, each up to its first NUL. -/
def childArgs (workDir jobId : String) (spec : JobSpec) : List String :=
  ((if spec.containerImage = "" then []
    else ["singularity", "exec", "--bind", sandboxDir workDir jobId spec, spec.containerImage]) ++
    spec.command :: spec.args).map cStr

/-- What is kept of the output: each chunk up to its first NUL. -/
def stdoutData (chunks : List (List UInt8)) : List UInt8 :=
  chunks.flatMap fun chunk => chunk.takeWhile (· ≠ 0)

section Thread

variable {Op : Type} {Res : Op → Type} (call : (o : ExecutorOp) → Prog Res o.Res)
  (onStarted : String → ℕ → Prog Res Unit) (onCompleted : JobResult → Prog Res Unit)

/-- `execution_thread` from the end of the child on. -/
def finishChild (jobId : String) (res : JobResult) : Prog Res Unit := do
  let _ ← call (.removeRunning jobId)
  onCompleted res

/-- `execution_thread` from `waitpid` on. -/
def awaitChild (jobId : String) (pid : ℕ) (chunks : List (List UInt8)) : Prog Res Unit := do
  let processEnd ← call (.waitpid pid)
  finishChild call onCompleted jobId (jobResult jobId processEnd.status (stdoutData chunks))

/-- `execution_thread` from the reads on. -/
def superviseOutput (jobId : String) (pid : ℕ) : Prog Res Unit := do
  let chunks ← call .readOutput
  awaitChild call onCompleted jobId pid chunks

/-- The parent's part of `execution_thread`. -/
def superviseChild (jobId : String) (pid : ℕ) : Prog Res Unit := do
  let _ ← call (.registerPid jobId pid)
  let _ ← onStarted jobId pid
  superviseOutput call onCompleted jobId pid

/-- `execution_thread` from the fork on. A fork that fails leaves the job in the
map. -/
def forkChild (workDir jobId : String) (spec : JobSpec) : Prog Res Unit := do
  let forked ← call (.fork (childDir workDir jobId spec) (childArgs workDir jobId spec))
  match forked with
  | none => onCompleted { jobId, exitCode := -1, errorMessage := "Failed to fork" }
  | some pid => superviseChild call onStarted onCompleted jobId pid

/-- `execution_thread`. A pipe that cannot be opened leaves the job in the map. -/
def executionThread (workDir jobId : String) (spec : JobSpec) : Prog Res Unit := do
  let opened ← call .pipe
  if opened then
    if spec.archivePath = "" then
      forkChild call onStarted onCompleted workDir jobId spec
    else
      let _ ← call (.system (untarCmd workDir jobId spec))
      forkChild call onStarted onCompleted workDir jobId spec
  else onCompleted { jobId, exitCode := -1, errorMessage := "Failed to create pipe" }

/-- How far the thread of a job is. -/
inductive ThreadPlace where
  /-- In front of `pipe`. -/
  | opening
  /-- In front of the command that unpacks the archive. -/
  | unpacking
  /-- In front of `fork`. -/
  | forking
  /-- In front of the section that registers the process. -/
  | registering (pid : ℕ)
  /-- In front of the callback for a job that has started. -/
  | starting (pid : ℕ)
  /-- In front of the reads. -/
  | reading (pid : ℕ)
  /-- In front of `waitpid`. -/
  | waiting (pid : ℕ) (chunks : List (List UInt8))
  /-- In front of the section that removes the job from the map. -/
  | removing (res : JobResult)
  /-- In front of the callback for a job that is over. -/
  | completing (res : JobResult)
  /-- The thread has returned. -/
  | ended

/-- What is left of `execution_thread` at a place. -/
def threadAt (workDir jobId : String) (spec : JobSpec) : ThreadPlace → Prog Res Unit
  | .opening => executionThread call onStarted onCompleted workDir jobId spec
  | .unpacking => do
    let _ ← call (.system (untarCmd workDir jobId spec))
    forkChild call onStarted onCompleted workDir jobId spec
  | .forking => forkChild call onStarted onCompleted workDir jobId spec
  | .registering pid => superviseChild call onStarted onCompleted jobId pid
  | .starting pid => do
    let _ ← onStarted jobId pid
    superviseOutput call onCompleted jobId pid
  | .reading pid => superviseOutput call onCompleted jobId pid
  | .waiting pid chunks => awaitChild call onCompleted jobId pid chunks
  | .removing res => finishChild call onCompleted jobId res
  | .completing res => onCompleted res
  | .ended => .ret ()

end Thread

end JobExecutor

end CertOS
