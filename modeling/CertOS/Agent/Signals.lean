import CertOS.Agent.RunningMap

/-!
# Where the signals of an executor go

`cancel` signals the process that the map has for a job. The thread of the job puts its child
into the map after the fork, under the mutex, and takes the job out of the map after `waitpid`,
under the mutex again; but it waits for the child without it. Between the two steps the child
is gone and its number still in the map, and a `cancel` that comes now signals a number that
the operating system may have given away (`CertOS.signal_after_wait`).

Every other signal goes to a child of the job that was not waited for
(`CertOS.signals_living_iff`). What carries the proof is that the children are just those of
the threads between fork and `waitpid`, one to each (`CertOS.ChildrenHeld`).
-/

namespace CertOS

open Interleave

/-! ### The law -/

/-- Every signal was sent to a child of the job that was cancelled, and the child was not waited
for yet. -/
def SignalsLiving (s : Host) : Prop := ∀ sig ∈ s.signals, sig.owner = some sig.jobId

/-- The thread has waited for the child of the job, and has not taken the job out of the map
yet. -/
def hasReaped (j : String) (th : Thread HostOp.Res HostTask Unit) : Bool :=
  match th.prog with
  | .call (.executor _ (.removeRunning jobId)) _ => jobId = j
  | _ => false

/-- No job is cancelled between the `waitpid` of its thread and the removal. -/
def cancelsBeforeWait (c : HostConfig) : HostEvent → Bool
  | .did _ _ _ (.executor _ (.cancel jobId)) _ => c.threads.all fun th => !hasReaped jobId th
  | _ => true

/-- What is said of the environment: the threads of jobs are started by the executor, and `fork`
keeps the promise of the operating system. -/
def hosted (c : HostConfig) (ev : HostEvent) : Prop :=
  startsNoThread ev = true ∧ osPromise c ev = true

/-! ### The children of the threads -/

/-- The child of the thread of a job that was forked and not waited for. -/
def HostPlace.child : HostPlace → Option ℕ
  | .registering pid | .starting pid | .reading pid | .waiting pid _ => some pid
  | _ => none

/-- The child of a thread, with its job. -/
def childAt : HostTask × HostPlace → Option (ℕ × String) :=
  HostTask.atExecution fun jobId p => p.child.map (·, jobId)

/-- The number of the child, whether it was waited for or not. -/
def HostPlace.forkedPid : HostPlace → Option ℕ
  | .removing pid _ => some pid
  | p => p.child

theorem childAt_eq_some {q : HostTask × HostPlace} {j : String} {pid : ℕ} :
    childAt q = some (pid, j) ↔ ∃ spec, q.1 = .execution j spec ∧ q.2.child = some pid := by
  rw [childAt, HostTask.atExecution_eq_some]
  constructor
  · rintro ⟨jobId, spec, ht, h⟩
    obtain ⟨pid', hpid, heq⟩ := Option.map_eq_some_iff.mp h
    obtain ⟨rfl, rfl⟩ := Prod.mk.inj heq
    exact ⟨spec, ht, hpid⟩
  · rintro ⟨spec, ht, hpid⟩
    exact ⟨j, spec, ht, Option.map_eq_some_iff.mpr ⟨pid, hpid, rfl⟩⟩

section Steps

variable {workDir : String} {t : HostTask} {p p' : HostPlace} {e : AgentEnv} {op : HostOp}
  {a : op.Res} {s : Host}

/-- **What a step does to the children**: a fork makes a child of the thread, `waitpid` ends it,
and nothing else concerns them. -/
theorem HostStep.child (hs : HostStep workDir t p op a p') (ha : (s.exec e op).1 = a) :
    (childAt (t, p') = childAt (t, p) ∧ (s.exec e op).2.children = s.children) ∨
    (∃ jobId dir args pid, op = .executor jobId (.fork dir args) ∧ HEq a (some pid) ∧
      childAt (t, p) = none ∧ childAt (t, p') = some (pid, jobId) ∧
      (s.exec e op).2.children = s.children.insert pid jobId) ∨
    ∃ jobId pid, childAt (t, p) = some (pid, jobId) ∧ childAt (t, p') = none ∧
      (s.exec e op).2.children = s.children.erase pid := by
  cases hs with
  | forked jobId spec pid =>
    refine Or.inr (Or.inl ⟨jobId, _, _, pid, rfl, HEq.rfl, rfl, rfl, ?_⟩)
    have hpid : e.forkedPid = some pid := ha
    simp only [Host.exec, JobExecutor.exec, hpid, Host.childrenAfter]
  | forkFailed jobId spec =>
    refine Or.inl ⟨rfl, ?_⟩
    have hpid : e.forkedPid = none := ha
    simp only [Host.exec, JobExecutor.exec, hpid, Host.childrenAfter]
  | waited jobId spec pid chunks processEnd => exact Or.inr (Or.inr ⟨jobId, pid, rfl, rfl, rfl⟩)
  | _ => exact Or.inl ⟨rfl, rfl⟩

/-- The number of a child is the one that `fork` returned. -/
theorem HostStep.forkedPid (hs : HostStep workDir t p op a p') {pid : ℕ}
    (hp : p'.forkedPid = some pid) :
    p.forkedPid = some pid ∨
      ∃ jobId dir args, op = .executor jobId (.fork dir args) ∧ HEq a (some pid) := by
  cases hs with
  | forked jobId spec pid' =>
    obtain rfl := Option.some.inj hp
    exact Or.inr ⟨jobId, _, _, rfl, HEq.rfl⟩
  | registered | started | read | waited => exact Or.inl hp
  | _ => cases hp

end Steps

/-! ### The invariant -/

/-- **The invariant of every run**: the map has the entries of the threads, the operating system
has their children, and their numbers are positive. -/
structure ChildrenHeld (s : Host) (ps : List (HostTask × HostPlace)) : Prop where
  entries : Placing.Held entryAt ps fun j => s.executor.runningJobs.lookup j
  children : Placing.Held childAt ps fun pid => s.children.lookup pid
  positive : ∀ q ∈ ps, ∀ pid, q.2.forkedPid = some pid → 0 < pid

section Invariant

variable {workDir : String} {ps ps' : List (HostTask × HostPlace)} {s s' : Host} {ev : HostEvent}
  {es : List HostEvent} {c c' : HostConfig} {j : String}

/-- A number that `fork` returns is positive and free. -/
theorem fork_promise {i : ℕ} {t : HostTask} {e : AgentEnv} {jobId : String} {dir : Option String}
    {args : List String} {a : (HostOp.executor jobId (.fork dir args)).Res} {pid : ℕ}
    (h : osPromise c (.did i t e (.executor jobId (.fork dir args)) a) = true)
    (ha : HEq a (some pid)) : 0 < pid ∧ c.state.children.lookup pid = none := by
  obtain rfl := eq_of_heq ha
  exact of_decide_eq_true h

/-- The children belong to the threads, one to each. -/
theorem HostMoves.childrenHeld (hm : HostMoves workDir ps c.state ev ps' s')
    (hok : osPromise c ev = true)
    (h : Placing.Held childAt ps fun pid => c.state.children.lookup pid) :
    Placing.Held childAt ps' fun pid => s'.children.lookup pid := by
  cases hm with
  | start t => exact h.concat_of_none (by cases t <;> rfl)
  | @accepted i e jobId spec hi hnew =>
    have hcalled : Placing.Held childAt (ps.set i (.executeAsync jobId spec, .ended true))
        fun pid => c.state.children.lookup pid := h.set_of_eq hi rfl
    exact hcalled.concat_of_none rfl
  | @moved i t p p' e op hi hs hforks =>
    rcases hs.child rfl with
      ⟨hsame, hch⟩ | ⟨jobId, dir, args, pid, rfl, ha, hq, hq', hch⟩ | ⟨jobId, pid, hq, hq', hch⟩
    · rw [hch]
      exact h.set_of_eq hi hsame
    · -- no child has the number that `fork` returns
      rw [hch]
      exact h.set_of_none hi (fork_promise hok ha).2 hq hq' fun k => Table.lookup_insert pid k _ _
    · rw [hch]
      exact h.set_of_some (o := none) hi hq hq' fun k => Table.lookup_erase pid k _

/-- The numbers of the children are positive. -/
theorem HostMoves.positive (hm : HostMoves workDir ps c.state ev ps' s')
    (hok : osPromise c ev = true) (h : ∀ q ∈ ps, ∀ pid, q.2.forkedPid = some pid → 0 < pid) :
    ∀ q ∈ ps', ∀ pid, q.2.forkedPid = some pid → 0 < pid := by
  intro q hq pid hpid
  cases hm with
  | start t =>
    rcases List.mem_append.mp hq with hq | hq
    · exact h q hq pid hpid
    · obtain rfl := List.mem_singleton.mp hq
      cases hpid
  | accepted e hi hnew =>
    rcases List.mem_append.mp hq with hq | hq
    · rcases List.mem_or_eq_of_mem_set hq with hq | rfl
      · exact h q hq pid hpid
      · cases hpid
    · obtain rfl := List.mem_singleton.mp hq
      cases hpid
  | moved e hi hs hforks =>
    rcases List.mem_or_eq_of_mem_set hq with hq | rfl
    · exact h q hq pid hpid
    · rcases hs.forkedPid hpid with hold | ⟨jobId, dir, args, rfl, ha⟩
      · exact h _ (List.mem_of_getElem? hi) pid hold
      · exact (fork_promise hok ha).1

theorem ChildrenHeld.moves (h : ChildrenHeld c.state ps) (hok : hosted c ev)
    (hm : HostMoves workDir ps c.state ev ps' s') : ChildrenHeld s' ps' :=
  ⟨hm.held hok.1 h.entries, hm.childrenHeld hok.2 h.children, hm.positive hok.2 h.positive⟩

theorem exists_childrenHeld (h : (host workDir).Run hosted hostStart es c) :
    ∃ ps, (hosting workDir).Placed c ps ∧ ChildrenHeld c.state ps := by
  refine Placing.run_invariant (I := fun _ c ps => ChildrenHeld c.state ps) rfl
    ⟨.nil, .nil, ?_⟩ ?_ h
  · rintro q ⟨⟩
  · intro es c ev c' ps ps' _ _ hI hok _ hmoves
    exact hI.moves hok (HostMoves.of_moves hmoves)

/-! ### One signal -/

/-- A thread is between `waitpid` and the removal just if it stands in front of the removal. -/
theorem hasReaped_thread {q : HostTask × HostPlace} :
    hasReaped j (HostTask.threadAt workDir q) = true ↔
      ∃ spec pid res, q = (.execution j spec, .removing pid res) := by
  obtain ⟨t, p⟩ := q
  constructor
  · intro h
    cases t with
    | execution jobId spec =>
      cases p with
      | removing pid res =>
        obtain rfl : jobId = j := of_decide_eq_true h
        exact ⟨spec, pid, res, rfl⟩
      | _ => cases h
    | _ => cases p <;> cases h
  · rintro ⟨spec, pid, res, heq⟩
    obtain ⟨rfl, rfl⟩ := Prod.mk.inj heq
    exact decide_eq_true rfl

/-- A cancellation is before the wait just if no thread of the job stands in front of the
removal. -/
theorem cancelsBeforeWait_iff (hplaced : (hosting workDir).Placed c ps) {i : ℕ} {t : HostTask}
    {e : AgentEnv} {jobId : String} {r : Bool} :
    cancelsBeforeWait c (.did i t e (.executor jobId (.cancel j)) r) = true ↔
      ¬ ∃ (k : ℕ) (spec : JobSpec) (pid : ℕ) (res : JobResult),
        ps[k]? = some (.execution j spec, .removing pid res) := by
  have hall : cancelsBeforeWait c (.did i t e (.executor jobId (.cancel j)) r) =
      ps.all fun q => !hasReaped j (HostTask.threadAt workDir q) := by
    rw [cancelsBeforeWait, hplaced.threads_eq fun _ _ hat => hat, List.all_map]
    rfl
  rw [hall, List.all_eq_true]
  constructor
  · rintro h ⟨k, spec, pid, res, hk⟩
    have hnot := h _ (List.mem_of_getElem? hk)
    rw [hasReaped_thread.mpr ⟨spec, pid, res, rfl⟩] at hnot
    cases hnot
  · intro h q hq
    obtain ⟨k, hk⟩ := List.getElem?_of_mem hq
    rw [Bool.not_eq_true', Bool.eq_false_iff]
    intro hreaped
    obtain ⟨spec, pid, res, rfl⟩ := hasReaped_thread.mp hreaped
    exact h ⟨k, spec, pid, res, hk⟩

/-- The thread of an entry with a process stands between the registration and the removal. -/
theorem forkedPid_of_entry {p : HostPlace} {pid : ℕ} (h : p.entry = some ⟨pid⟩) (hpid : 0 < pid) :
    p.child = some pid ∨ ∃ res, p = .removing pid res := by
  have hzero {p : HostPlace} (h : p.entry = some {}) (hp : p.entry = some ⟨pid⟩) : False := by
    obtain rfl : (0 : ℕ) = pid := congrArg RunningJob.pid (Option.some.inj (h.symm.trans hp))
    exact absurd hpid (lt_irrefl 0)
  cases p with
  | starting pid' | reading pid' | waiting pid' =>
    obtain rfl : pid' = pid := congrArg RunningJob.pid (Option.some.inj h)
    exact Or.inl rfl
  | removing pid' res =>
    obtain rfl : pid' = pid := congrArg RunningJob.pid (Option.some.inj h)
    exact Or.inr ⟨res, rfl⟩
  | completing removed res =>
    cases removed with
    | false => exact (hzero rfl h).elim
    | true => cases h
  | ended removed =>
    cases removed with
    | false => exact (hzero rfl h).elim
    | true => cases h
  | _ => exact (hzero rfl h).elim

/-- **The child of a job that was waited for is not a child of the job any more**, as long as
its thread has not taken the job out of the map: the job has no other thread that could have
forked. -/
theorem ChildrenHeld.lookup_ne (h : ChildrenHeld s ps) {k : ℕ} {spec : JobSpec} {pid : ℕ}
    {res : JobResult} (hk : ps[k]? = some (.execution j spec, .removing pid res)) :
    s.children.lookup pid ≠ some j := by
  intro hchild
  obtain ⟨k', ⟨t, p⟩, hk', hq⟩ := h.children.lookup_iff.mp hchild
  obtain ⟨spec', rfl, hp⟩ := childAt_eq_some.mp hq
  -- a thread with a child has an entry
  obtain ⟨job, hjob⟩ : ∃ job, p.entry = some job := by
    cases p with
    | registering | starting | reading | waiting => exact ⟨_, rfl⟩
    | _ => cases hp
  obtain rfl := h.entries.unique hk' hk (entryAt_eq_some.mpr ⟨spec', rfl, hjob⟩)
    (entryAt_eq_some.mpr ⟨spec, rfl, rfl⟩)
  obtain ⟨-, rfl⟩ := Prod.mk.inj (Option.some.inj (hk'.symm.trans hk))
  cases hp

/-- **The signals of one cancellation** go to a child of the job that was not waited for, if and
only if no thread of the job has waited for its child and not taken the job out of the map. -/
theorem ChildrenHeld.signalsSent_iff (h : ChildrenHeld s ps) :
    (∀ sig ∈ Host.signalsSent (.cancel j) s, sig.owner = some sig.jobId) ↔
      ¬ ∃ (k : ℕ) (spec : JobSpec) (pid : ℕ) (res : JobResult),
        ps[k]? = some (.execution j spec, .removing pid res) := by
  have hsent {pid : ℕ} (hjob : s.executor.runningJobs.lookup j = some ⟨pid⟩) (hpid : 0 < pid) :
      Host.signalsSent (.cancel j) s = [⟨j, pid, s.children.lookup pid⟩] := by
    simp only [Host.signalsSent, hjob, if_pos hpid]
  constructor
  · rintro hall ⟨k, spec, pid, res, hk⟩
    have hjob : s.executor.runningJobs.lookup j = some ⟨pid⟩ :=
      h.entries.lookup_eq_some hk (entryAt_eq_some.mpr ⟨spec, rfl, rfl⟩)
    have hpid : 0 < pid := h.positive _ (List.mem_of_getElem? hk) pid rfl
    rw [hsent hjob hpid] at hall
    exact h.lookup_ne hk (hall _ List.mem_cons_self)
  · intro hnone sig hsig
    cases hjob : s.executor.runningJobs.lookup j with
    | none =>
      simp only [Host.signalsSent, hjob, List.not_mem_nil] at hsig
    | some job =>
      obtain ⟨pid⟩ := job
      by_cases hpid : 0 < pid
      · rw [hsent hjob hpid] at hsig
        obtain rfl := List.mem_singleton.mp hsig
        -- the entry belongs to a thread, and so does the child
        obtain ⟨k, ⟨t, p⟩, hk, hq⟩ := h.entries.lookup_iff.mp hjob
        obtain ⟨spec, rfl, hentry⟩ := entryAt_eq_some.mp hq
        rcases forkedPid_of_entry hentry hpid with hchild | ⟨res, rfl⟩
        · exact h.children.lookup_eq_some hk (childAt_eq_some.mpr ⟨spec, rfl, hchild⟩)
        · exact absurd ⟨k, spec, pid, res, hk⟩ hnone
      · simp only [Host.signalsSent, hjob, if_neg hpid, List.not_mem_nil] at hsig

/-- **The signals of one step.** -/
theorem ChildrenHeld.step (h : ChildrenHeld c.state ps) (hplaced : (hosting workDir).Placed c ps)
    (hs : (host workDir).Step c ev c') :
    SignalsLiving c'.state ↔ SignalsLiving c.state ∧ cancelsBeforeWait c ev = true := by
  have hsame (hsig : c'.state.signals = c.state.signals) (hev : cancelsBeforeWait c ev = true) :
      SignalsLiving c'.state ↔ SignalsLiving c.state ∧ cancelsBeforeWait c ev = true := by
    rw [SignalsLiving, hsig, hev, and_iff_left rfl]
    rfl
  cases hs with
  | start t => exact hsame rfl rfl
  | did i t e op k hi =>
    cases op with
    | started jobId pid => exact hsame rfl rfl
    | completed res => exact hsame rfl rfl
    | executor jobId op =>
      cases op with
      | cancel j =>
        have hsig : ((host workDir).after c i t e (.executor jobId (.cancel j)) k).state.signals =
            c.state.signals ++ Host.signalsSent (.cancel j) c.state := rfl
        rw [SignalsLiving, hsig, List.forall_mem_append, h.signalsSent_iff,
          cancelsBeforeWait_iff hplaced]
        rfl
      | _ => exact hsame (List.append_nil _) rfl

end Invariant

/-! ### The law, proved -/

/-- **The signals go to living children** of the jobs that were cancelled, in every state of
the runs in which no job is cancelled between the `waitpid` of its thread and the removal, and
in no other run of the executor. -/
theorem signals_living_iff {workDir : String} {es : List HostEvent} {c : HostConfig}
    (h : (host workDir).Run hosted hostStart es c) :
    SignalsLiving c.state ↔ (host workDir).Run
      (fun c ev => hosted c ev ∧ cancelsBeforeWait c ev = true) hostStart es c := by
  constructor
  · intro hsig
    induction h with
    | nil => exact .nil
    | snoc hrun hok hs ih =>
      obtain ⟨ps, hplaced, hI⟩ := exists_childrenHeld hrun
      obtain ⟨hbefore, hev⟩ := (hI.step hplaced hs).mp hsig
      exact (ih hbefore).snoc ⟨hok, hev⟩ hs
  · intro hrun
    clear h
    induction hrun with
    | nil =>
      rintro sig ⟨⟩
    | snoc hrun hok hs ih =>
      obtain ⟨ps, hplaced, hI⟩ := exists_childrenHeld (hrun.mono fun _ _ hok => hok.1)
      exact (hI.step hplaced hs).mpr ⟨ih, hok.2⟩

/-- A job is handed to the executor, and its thread forks and registers the child; then the job
is cancelled. -/
def cancelledInTime : List (Choice AgentEnv HostTask) :=
  [.start (.executeAsync "job-1" {}), .move 0 default, .move 1 default,
    .move 1 { (default : AgentEnv) with forkedPid := some 7 }, .move 1 default,
    .start (.cancel "job-1"), .move 2 default]

/-- The signal goes to the child. -/
theorem signals_living_inTime :
    ∃ es c, (host "/work").Run hosted hostStart es c ∧
      c.state.signals = [⟨"job-1", 7, some "job-1"⟩] ∧ SignalsLiving c.state := by
  obtain ⟨es, c, hrun, hp⟩ := System.exists_trace (S := host "/work")
    (g := fun c ev => (startsNoThread ev && osPromise c ev) && cancelsBeforeWait c ev)
    (c := hostStart) (p := fun _ c => c.state.signals = [⟨"job-1", 7, some "job-1"⟩])
    cancelledInTime (by decide +kernel)
  have hguarded : (host "/work").Run (fun c ev => hosted c ev ∧ cancelsBeforeWait c ev = true)
      hostStart es c := by
    refine hrun.mono fun c ev hg => ?_
    obtain ⟨hhost, hev⟩ := (Bool.and_eq_true _ _).mp hg
    exact ⟨(Bool.and_eq_true _ _).mp hhost, hev⟩
  have hhosted := hguarded.mono fun _ _ hg => hg.1
  exact ⟨es, c, hhosted, of_decide_eq_true hp, (signals_living_iff hhosted).mpr hguarded⟩

/-- The thread of the job has waited for the child, and has not come to the removal when the
job is cancelled. -/
def cancelledLate : List (Choice AgentEnv HostTask) :=
  [.start (.executeAsync "job-1" {}), .move 0 default, .move 1 default,
    .move 1 { (default : AgentEnv) with forkedPid := some 7 }, .move 1 default, .move 1 default,
    .move 1 default, .move 1 default, .start (.cancel "job-1"), .move 2 default]

/-- **A signal goes to a child that was waited for**: process 7 is gone, and the signal for the
job is sent to number 7, which no child has. -/
theorem signal_after_wait :
    ∃ es c, (host "/work").Run hosted hostStart es c ∧
      c.state.signals = [⟨"job-1", 7, none⟩] ∧ ¬ SignalsLiving c.state := by
  obtain ⟨es, c, hrun, hp⟩ := System.exists_trace (S := host "/work")
    (g := fun c ev => startsNoThread ev && osPromise c ev) (c := hostStart)
    (p := fun _ c => c.state.signals = [⟨"job-1", 7, none⟩]) cancelledLate (by decide +kernel)
  have hsig := of_decide_eq_true hp
  refine ⟨es, c, hrun.mono fun c ev hg => (Bool.and_eq_true _ _).mp hg, hsig, fun hliving => ?_⟩
  rw [SignalsLiving, hsig] at hliving
  exact absurd (hliving _ List.mem_cons_self) (Option.some_ne_none _).symm

end CertOS
