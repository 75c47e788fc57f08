import CertOS.Agent.JobExecutor
import CertOS.Interleave.Places

/-!
# An executor and its host

`CertOS.host` is one `JobExecutor` with everything that calls it: any number of threads call
`execute_async`, `cancel` and `get_running_count`, and each job that is accepted has its own
thread, with the two callbacks as single steps. Next to the executor stands what the operating
system knows (`CertOS.Host`): the children that were forked and not waited for yet, each with
the job it runs for, and the signals that were sent, each with the job whose child had the
number at that moment.

`pipe` and `fork` may fail at any call, and `fork` returns what the environment says;
`CertOS.osPromise` is what an operating system promises of it. How far a thread is, is one of
the places of `CertOS.HostPlace`, and `CertOS.HostStep` is what a thread does from place to
place.
-/

namespace CertOS

open Interleave

/-! ### The system -/

/-- The atomic steps of the threads. -/
inductive HostOp where
  /-- A step of the executor that is about a job. -/
  | executor (jobId : String) (op : ExecutorOp)
  /-- The callback `on_started_`. -/
  | started (jobId : String) (pid : ℕ)
  /-- The callback `on_completed_`. -/
  | completed (res : JobResult)
  deriving DecidableEq

/-- What the steps return. -/
@[reducible] def HostOp.Res : HostOp → Type
  | .executor _ op => op.Res
  | .started .. | .completed _ => Unit

/-- A thread of the host. -/
abbrev HostProg := Prog HostOp.Res Unit

/-- A signal that was sent. -/
structure Signal where
  /-- The job that was cancelled. -/
  jobId : String
  /-- The process the signal was sent to. -/
  pid : ℕ
  /-- The job of the child that had this number and was not waited for yet. -/
  owner : Option String
  deriving DecidableEq

/-- The executor and what the operating system knows. -/
structure Host where
  executor : JobExecutor := {}
  /-- The children that were not waited for yet, each with its job. -/
  children : Table ℕ String := ∅
  /-- The signals that were sent. -/
  signals : List Signal := []

namespace Host

/-- The children after a step: `fork` makes one, `waitpid` ends one. -/
def childrenAfter (jobId : String) : (op : ExecutorOp) → op.Res → Table ℕ String → Table ℕ String
  | .fork .., some pid, children => children.insert pid jobId
  | .waitpid pid, _, children => children.erase pid
  | _, _, children => children

/-- The signals a step sends: `cancel` sends one to the process that is in the map. -/
def signalsSent (op : ExecutorOp) (s : Host) : List Signal :=
  match op with
  | .cancel jobId =>
    match s.executor.runningJobs.lookup jobId with
    | some job => if 0 < job.pid then [⟨jobId, job.pid, s.children.lookup job.pid⟩] else []
    | none => []
  | _ => []

/-- The meaning of the steps. -/
def exec (e : AgentEnv) : (op : HostOp) → Host → op.Res × Host
  | .executor jobId op, s =>
    ((s.executor.exec e op).1,
      { executor := (s.executor.exec e op).2
        children := childrenAfter jobId op (s.executor.exec e op).1 s.children
        signals := s.signals ++ signalsSent op s })
  | .started .., s => ((), s)
  | .completed _, s => ((), s)

end Host

/-- A task of the host: a call from outside, or the thread of a job. -/
inductive HostTask where
  | executeAsync (jobId : String) (spec : JobSpec)
  | cancel (jobId : String)
  | getRunningCount
  | execution (jobId : String) (spec : JobSpec)
  deriving DecidableEq

namespace HostTask

/-- A step of the thread of a job. -/
def call (jobId : String) (op : ExecutorOp) : Prog HostOp.Res op.Res :=
  Prog.op (HostOp.executor jobId op)

/-- The callback for a job that has started. -/
def onStarted (jobId : String) (pid : ℕ) : HostProg := Prog.op (HostOp.started jobId pid)

/-- The callback for a job that is over. -/
def onCompleted (res : JobResult) : HostProg := Prog.op (HostOp.completed res)

/-- The program of a task. -/
def body (workDir : String) : HostTask → HostProg
  | .executeAsync jobId spec => do
    let _ ← call jobId (.executeAsync jobId spec)
  | .cancel jobId => do
    let _ ← call jobId (.cancel jobId)
  | .getRunningCount => do
    let _ ← call "" .getRunningCount
  | .execution jobId spec =>
    JobExecutor.executionThread (call jobId) onStarted onCompleted workDir jobId spec

end HostTask

/-- **An executor that works in `workDir`**: a job that is accepted gets a thread. -/
def host (workDir : String) : System HostOp.Res AgentEnv Host HostTask Unit where
  exec := Host.exec
  body := HostTask.body workDir
  forks
    | .executor _ (.executeAsync jobId spec), true => [.execution jobId spec]
    | _, _ => []

/-- A configuration of the system. -/
abbrev HostConfig := Config HostOp.Res Host HostTask Unit

/-- An event of the system. -/
abbrev HostEvent := Event HostOp.Res AgentEnv HostTask

/-- The executor as it is constructed. -/
def hostStart : HostConfig := ⟨{}, []⟩

/-- The threads of jobs are started by `execute_async` alone. -/
def startsNoThread : HostEvent → Bool
  | .start (.execution _ _) => false
  | _ => true

/-- What the operating system promises of `fork`: the number of a child is positive, and no
child that was not waited for has it. -/
def osPromise (c : HostConfig) : HostEvent → Bool
  | .did _ _ _ (.executor _ (.fork _ _)) (some pid) => 0 < pid ∧ c.state.children.lookup pid = none
  | _ => true

/-! ### Places -/

/-- How far a thread is. The last places of the thread of a job remember whether it has removed
the job from the map. -/
inductive HostPlace where
  /-- In front of the first step: `pipe`, or the call from outside. -/
  | first
  /-- In front of the command that unpacks the archive. -/
  | unpacking
  /-- In front of `fork`. -/
  | forking
  /-- In front of the section that registers the process. -/
  | registering (pid : ℕ)
  /-- In front of the callback for a job that has started. -/
  | starting (pid : ℕ)
  /-- In front of the reads. -/
  | reading (pid : ℕ)
  /-- In front of `waitpid`. -/
  | waiting (pid : ℕ) (chunks : List (List UInt8))
  /-- In front of the section that removes the job from the map. -/
  | removing (pid : ℕ) (res : JobResult)
  /-- In front of the callback for a job that is over. -/
  | completing (removed : Bool) (res : JobResult)
  /-- The thread has returned. -/
  | ended (removed : Bool)

/-- The place in `execution_thread`. -/
def HostPlace.inThread : HostPlace → JobExecutor.ThreadPlace
  | .first => .opening
  | .unpacking => .unpacking
  | .forking => .forking
  | .registering pid => .registering pid
  | .starting pid => .starting pid
  | .reading pid => .reading pid
  | .waiting pid chunks => .waiting pid chunks
  | .removing _ res => .removing res
  | .completing _ res => .completing res
  | .ended _ => .ended

namespace HostTask

/-- The thread of a job from the fork on. -/
def forkChild (workDir jobId : String) (spec : JobSpec) : HostProg :=
  JobExecutor.forkChild (call jobId) onStarted onCompleted workDir jobId spec

/-- What is left of the thread of a job at a place. -/
def executionAt (workDir jobId : String) (spec : JobSpec) (p : HostPlace) : HostProg :=
  JobExecutor.threadAt (call jobId) onStarted onCompleted workDir jobId spec p.inThread

/-- What is left of a task at a place. A call from outside is over after one step. -/
def progAt (workDir : String) : HostTask → HostPlace → HostProg
  | .execution jobId spec, p => executionAt workDir jobId spec p
  | t, .first => t.body workDir
  | _, _ => .ret ()

end HostTask

/-- **What one step of a thread does**: its operation, the answer, and the place after it. -/
inductive HostStep (workDir : String) :
    HostTask → HostPlace → (op : HostOp) → op.Res → HostPlace → Prop
  | executeAsync (jobId : String) (spec : JobSpec) (accepted : Bool) :
      HostStep workDir (.executeAsync jobId spec) .first
        (.executor jobId (.executeAsync jobId spec)) accepted (.ended true)
  | cancel (jobId : String) (sent : Bool) :
      HostStep workDir (.cancel jobId) .first (.executor jobId (.cancel jobId)) sent (.ended true)
  | getRunningCount (n : UInt32) :
      HostStep workDir .getRunningCount .first (.executor "" .getRunningCount) n (.ended true)
  | pipeFailed (jobId : String) (spec : JobSpec) :
      HostStep workDir (.execution jobId spec) .first (.executor jobId .pipe) false
        (.completing false { jobId, exitCode := -1, errorMessage := "Failed to create pipe" })
  | packed (jobId : String) (spec : JobSpec) (h : spec.archivePath ≠ "") :
      HostStep workDir (.execution jobId spec) .first (.executor jobId .pipe) true .unpacking
  | plain (jobId : String) (spec : JobSpec) (h : spec.archivePath = "") :
      HostStep workDir (.execution jobId spec) .first (.executor jobId .pipe) true .forking
  | unpacked (jobId : String) (spec : JobSpec) (status : ℤ) :
      HostStep workDir (.execution jobId spec) .unpacking
        (.executor jobId (.system (JobExecutor.untarCmd workDir jobId spec))) status .forking
  | forkFailed (jobId : String) (spec : JobSpec) :
      HostStep workDir (.execution jobId spec) .forking
        (.executor jobId (.fork (JobExecutor.childDir workDir jobId spec)
          (JobExecutor.childArgs workDir jobId spec))) none
        (.completing false { jobId, exitCode := -1, errorMessage := "Failed to fork" })
  | forked (jobId : String) (spec : JobSpec) (pid : ℕ) :
      HostStep workDir (.execution jobId spec) .forking
        (.executor jobId (.fork (JobExecutor.childDir workDir jobId spec)
          (JobExecutor.childArgs workDir jobId spec))) (some pid) (.registering pid)
  | registered (jobId : String) (spec : JobSpec) (pid : ℕ) :
      HostStep workDir (.execution jobId spec) (.registering pid)
        (.executor jobId (.registerPid jobId pid)) () (.starting pid)
  | started (jobId : String) (spec : JobSpec) (pid : ℕ) :
      HostStep workDir (.execution jobId spec) (.starting pid) (.started jobId pid) ()
        (.reading pid)
  | read (jobId : String) (spec : JobSpec) (pid : ℕ) (chunks : List (List UInt8)) :
      HostStep workDir (.execution jobId spec) (.reading pid) (.executor jobId .readOutput) chunks
        (.waiting pid chunks)
  | waited (jobId : String) (spec : JobSpec) (pid : ℕ) (chunks : List (List UInt8))
      (processEnd : ProcessEnd) :
      HostStep workDir (.execution jobId spec) (.waiting pid chunks)
        (.executor jobId (.waitpid pid)) processEnd
        (.removing pid (jobResult jobId processEnd.status (JobExecutor.stdoutData chunks)))
  | removed (jobId : String) (spec : JobSpec) (pid : ℕ) (res : JobResult) :
      HostStep workDir (.execution jobId spec) (.removing pid res)
        (.executor jobId (.removeRunning jobId)) () (.completing true res)
  | completed (jobId : String) (spec : JobSpec) (removed : Bool) (res : JobResult) :
      HostStep workDir (.execution jobId spec) (.completing removed res) (.completed res) ()
        (.ended removed)

section Step

variable {workDir : String} {p : HostPlace} {op : HostOp}

/-- **One step of the thread of a job.** -/
theorem HostTask.executionAt_step {jobId : String} {spec : JobSpec} {k : op.Res → HostProg}
    (h : HostTask.executionAt workDir jobId spec p = .call op k) (a : op.Res) :
    ∃ p', k a = HostTask.executionAt workDir jobId spec p' ∧
      HostStep workDir (.execution jobId spec) p op a p' := by
  cases p with
  | first =>
    cases h
    cases a with
    | false => exact ⟨_, rfl, .pipeFailed jobId spec⟩
    | true =>
      by_cases hs : spec.archivePath = ""
      · refine ⟨.forking, ?_, .plain jobId spec hs⟩
        simp only [if_pos hs]
        rfl
      · refine ⟨.unpacking, ?_, .packed jobId spec hs⟩
        simp only [if_neg hs]
        rfl
  | unpacking =>
    cases h
    exact ⟨.forking, rfl, .unpacked jobId spec a⟩
  | forking =>
    cases h
    cases a with
    | none => exact ⟨_, rfl, .forkFailed jobId spec⟩
    | some pid => exact ⟨.registering pid, rfl, .forked jobId spec pid⟩
  | registering pid =>
    cases h
    exact ⟨.starting pid, rfl, .registered jobId spec pid⟩
  | starting pid =>
    cases h
    exact ⟨.reading pid, rfl, .started jobId spec pid⟩
  | reading pid =>
    cases h
    exact ⟨.waiting pid a, rfl, .read jobId spec pid a⟩
  | waiting pid chunks =>
    cases h
    exact ⟨.removing pid _, rfl, .waited jobId spec pid chunks a⟩
  | removing pid res =>
    cases h
    exact ⟨.completing true res, rfl, .removed jobId spec pid res⟩
  | completing removed res =>
    cases h
    exact ⟨.ended removed, rfl, .completed jobId spec removed res⟩
  | ended removed => cases h

end Step

/-- **One step of a task.** -/
theorem HostTask.progAt_step {workDir : String} {t : HostTask} {p : HostPlace} {op : HostOp}
    {k : op.Res → HostProg} (h : HostTask.progAt workDir t p = .call op k) (a : op.Res) :
    ∃ p', k a = HostTask.progAt workDir t p' ∧ HostStep workDir t p op a p' := by
  cases t with
  | execution jobId spec => exact HostTask.executionAt_step h a
  | executeAsync jobId spec =>
    cases p with
    | first =>
      cases h
      exact ⟨.ended true, rfl, .executeAsync jobId spec a⟩
    | _ => cases h
  | cancel jobId =>
    cases p with
    | first =>
      cases h
      exact ⟨.ended true, rfl, .cancel jobId a⟩
    | _ => cases h
  | getRunningCount =>
    cases p with
    | first =>
      cases h
      exact ⟨.ended true, rfl, .getRunningCount a⟩
    | _ => cases h

/-- A thread for a task at a place. -/
def HostTask.threadAt (workDir : String) (q : HostTask × HostPlace) :
    Thread HostOp.Res HostTask Unit :=
  ⟨q.1, q.1.progAt workDir q.2⟩

/-- The places of the threads of an executor, each with the task of the thread. -/
def hosting (workDir : String) : Placing (host workDir) (HostTask × HostPlace) where
  start t := (t, .first)
  At q th := th = HostTask.threadAt workDir q
  Step t q op r q' := q.1 = t ∧ q'.1 = t ∧ HostStep workDir t q.2 op r q'.2
  at_start t := by cases t <;> rfl
  step_of_call := by
    intro t q op k h a
    obtain ⟨rfl, hprog⟩ := Thread.mk.inj h
    obtain ⟨p', hcont, hstep⟩ := HostTask.progAt_step hprog.symm a
    exact ⟨(q.1, p'), congrArg (Thread.mk q.1) hcont, rfl, rfl, hstep⟩

/-- The thread at a place. -/
theorem hosting_getElem? {workDir : String} {c : HostConfig} {ps : List (HostTask × HostPlace)}
    (h : (hosting workDir).Placed c ps) (i : ℕ) :
    c.threads[i]? = (ps[i]?).map (HostTask.threadAt workDir) := by
  rw [h.threads_eq fun _ _ hat => hat, List.getElem?_map]

/-- What a thread has at a place, if it is the thread of a job. -/
def HostTask.atExecution {β : Type} (g : String → HostPlace → Option β) :
    HostTask × HostPlace → Option β
  | (.execution jobId _, p) => g jobId p
  | _ => none

theorem HostTask.atExecution_eq_some {β : Type} {g : String → HostPlace → Option β}
    {q : HostTask × HostPlace} {b : β} :
    atExecution g q = some b ↔ ∃ jobId spec, q.1 = .execution jobId spec ∧
      g jobId q.2 = some b := by
  obtain ⟨t, p⟩ := q
  constructor
  · intro h
    cases t with
    | execution jobId spec => exact ⟨jobId, spec, rfl, h⟩
    | _ => cases h
  · rintro ⟨jobId, spec, rfl, h⟩
    exact h

/-! ### What a move does -/

/-- **A move of the threads of an executor**: a call or a job is started from outside, a job is
accepted and gets its thread, or a thread takes another step. -/
inductive HostMoves (workDir : String) :
    List (HostTask × HostPlace) → Host → HostEvent → List (HostTask × HostPlace) → Host → Prop
  | start (ps : List (HostTask × HostPlace)) (s : Host) (t : HostTask) :
      HostMoves workDir ps s (.start t) (ps ++ [(t, .first)]) s
  | accepted {ps : List (HostTask × HostPlace)} {s : Host} {i : ℕ} (e : AgentEnv)
      {jobId : String} {spec : JobSpec} (h : ps[i]? = some (.executeAsync jobId spec, .first))
      (hnew : s.executor.runningJobs.lookup jobId = none) :
      HostMoves workDir ps s
        (.did i (.executeAsync jobId spec) e (.executor jobId (.executeAsync jobId spec)) true)
        (ps.set i (.executeAsync jobId spec, .ended true) ++ [(.execution jobId spec, .first)])
        { s with executor := ⟨s.executor.runningJobs.insert jobId {}⟩ }
  | moved {ps : List (HostTask × HostPlace)} {s : Host} {i : ℕ} {t : HostTask} {p p' : HostPlace}
      (e : AgentEnv) {op : HostOp} (h : ps[i]? = some (t, p))
      (hs : HostStep workDir t p op (s.exec e op).1 p')
      (hforks : (host workDir).forks op (s.exec e op).1 = []) :
      HostMoves workDir ps s (.did i t e op (s.exec e op).1) (ps.set i (t, p')) (s.exec e op).2

section Moves

variable {workDir : String} {ps ps' : List (HostTask × HostPlace)} {s s' : Host} {ev : HostEvent}

theorem HostMoves.of_moves (h : (hosting workDir).Moves ps s ev ps' s') :
    HostMoves workDir ps s ev ps' s' := by
  cases h with
  | start t => exact .start ps s t
  | @did i t q q' e op hi hs =>
    obtain ⟨t, p⟩ := q
    obtain ⟨t', p'⟩ := q'
    obtain ⟨rfl, rfl, hs⟩ : t = _ ∧ t' = _ ∧ HostStep workDir _ p op _ p' := hs
    by_cases hforks : (host workDir).forks op ((host workDir).exec e op s).1 = []
    · rw [hforks, Placing.starts, List.map_nil, List.append_nil]
      exact .moved e hi hs hforks
    · -- the only step that starts a thread is an `execute_async` that accepts the job
      generalize ha : ((host workDir).exec e op s).1 = a at hs hforks
      cases hs with
      | executeAsync jobId spec accepted =>
        cases accepted with
        | false => exact absurd rfl hforks
        | true =>
          have hnew : s.executor.runningJobs.lookup jobId = none := by
            by_contra hold
            obtain ⟨job, hjob⟩ := Option.ne_none_iff_exists'.mp hold
            have hfalse : (s.executor.executeAsync jobId).1 = true := ha
            rw [JobExecutor.executeAsync, hjob] at hfalse
            cases hfalse
          have hstate : ((host workDir).exec e (.executor jobId (.executeAsync jobId spec)) s).2 =
              { s with executor := ⟨s.executor.runningJobs.insert jobId {}⟩ } := by
            simp only [host, Host.exec, Host.childrenAfter, Host.signalsSent, List.append_nil,
              JobExecutor.exec, JobExecutor.executeAsync, hnew]
          rw [hstate]
          exact .accepted e hi hnew
      | _ => exact absurd rfl hforks

end Moves

end CertOS
