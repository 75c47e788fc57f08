import CertOS.Agent.Host

/-!
# What the map of running jobs tracks

A job comes into `running_jobs_` when `execute_async` accepts it, and its thread takes it out
before the callback for a job that is over. A thread that gets no pipe, or cannot fork, makes
that callback as well, and returns: its job stays in the map with nobody left to take it out
(`CertOS.entry_outlives_execution`). It counts as running from then on, and is refused if it
is handed to the executor again.

If no `pipe` and no `fork` fails, the jobs in the map have an execution in progress; if one has
failed, this is wrong as soon as nothing is in progress (`CertOS.running_map_live`).
-/

namespace CertOS

open Interleave

/-! ### The law -/

/-- An execution of the job is in progress: a thread of the job has not returned, and so it has
not come back from the callback for a job that is over. -/
def InProgress (c : HostConfig) (j : String) : Prop :=
  ∃ (i : ℕ) (spec : JobSpec) (op : HostOp) (k : op.Res → HostProg),
    c.threads[i]? = some ⟨.execution j spec, .call op k⟩

/-- No execution is in progress. -/
def NoneInProgress (c : HostConfig) : Prop := ∀ j, ¬ InProgress c j

/-- **The map tracks the executions in progress.** -/
structure TracksLive (c : HostConfig) : Prop where
  /-- A job in the map has an execution in progress. -/
  live : ∀ j, c.state.executor.runningJobs.lookup j ≠ none → InProgress c j
  /-- A job is in the map from the moment it is accepted, until its thread has come to the
  callback for a job that is over. -/
  registered : ∀ (i : ℕ) (j : String) (spec : JobSpec) (op : HostOp) (k : op.Res → HostProg),
    c.threads[i]? = some ⟨.execution j spec, .call op k⟩ → (∀ res, op ≠ .completed res) →
      c.state.executor.runningJobs.lookup j ≠ none
  /-- If no execution is in progress, `get_running_count` is 0. -/
  count : NoneInProgress c → ∀ e, (c.state.executor.exec e .getRunningCount).1 = 0
  /-- A job that has no execution in progress is accepted. -/
  again : ∀ j, ¬ InProgress c j → (c.state.executor.executeAsync j).1 = true

/-- A call of `pipe` or of `fork` has failed. -/
def refused : HostEvent → Bool
  | .did _ _ _ (.executor _ .pipe) false => true
  | .did _ _ _ (.executor _ (.fork _ _)) none => true
  | _ => false

/-! ### What a thread holds in the map -/

/-- The entry that belongs to the thread of a job at a place. -/
def HostPlace.entry : HostPlace → Option RunningJob
  | .first | .unpacking | .forking | .registering _ | .completing false _ | .ended false => some {}
  | .starting pid | .reading pid | .waiting pid _ | .removing pid _ => some ⟨pid⟩
  | .completing true _ | .ended true => none

/-- What a thread holds in the map. -/
def entryAt : HostTask × HostPlace → Option (String × RunningJob) :=
  HostTask.atExecution fun jobId p => p.entry.map (jobId, ·)

/-- The thread of a job could not run it. -/
def failedAt : HostTask × HostPlace → Bool
  | (.execution _ _, .completing false _) | (.execution _ _, .ended false) => true
  | _ => false

theorem entryAt_eq_some {q : HostTask × HostPlace} {j : String} {job : RunningJob} :
    entryAt q = some (j, job) ↔ ∃ spec, q.1 = .execution j spec ∧ q.2.entry = some job := by
  rw [entryAt, HostTask.atExecution_eq_some]
  constructor
  · rintro ⟨jobId, spec, ht, h⟩
    obtain ⟨job', hjob, heq⟩ := Option.map_eq_some_iff.mp h
    obtain ⟨rfl, rfl⟩ := Prod.mk.inj heq
    exact ⟨spec, ht, hjob⟩
  · rintro ⟨spec, ht, hjob⟩
    exact ⟨j, spec, ht, Option.map_eq_some_iff.mpr ⟨job, hjob, rfl⟩⟩

/-- A thread that could not run its job is the thread of a job, and has its first entry. -/
theorem exists_entryAt_of_failedAt {q : HostTask × HostPlace} (h : failedAt q = true) :
    ∃ j, entryAt q = some (j, {}) := by
  obtain ⟨t, p⟩ := q
  cases t with
  | execution j spec =>
    refine ⟨j, ?_⟩
    cases p with
    | completing removed res =>
      cases removed with
      | false => rfl
      | true => cases h
    | ended removed =>
      cases removed with
      | false => rfl
      | true => cases h
    | _ => cases h
  | _ => cases h

section Steps

variable {workDir : String} {t : HostTask} {p p' : HostPlace} {e : AgentEnv} {op : HostOp}
  {a : op.Res} {s : Host}

/-- `execute_async` leaves the map alone if it refuses the job. -/
theorem executeAsync_of_false {m : JobExecutor} {jobId : String}
    (h : (m.executeAsync jobId).1 = false) : (m.executeAsync jobId).2 = m := by
  rw [JobExecutor.executeAsync] at h ⊢
  split
  · rfl
  · rename_i hnone
    rw [hnone] at h
    cases h

/-- **What a step does to the map**: it changes at most the entry of its own thread. -/
theorem HostStep.entry (hs : HostStep workDir t p op a p') (ha : (s.exec e op).1 = a)
    (hforks : (host workDir).forks op a = [])
    (hheld : ∀ jobId job, entryAt (t, p) = some (jobId, job) →
      s.executor.runningJobs.lookup jobId = some job) :
    (entryAt (t, p') = entryAt (t, p) ∧ (s.exec e op).2.executor = s.executor) ∨
      ∃ jobId job o, entryAt (t, p) = some (jobId, job) ∧ entryAt (t, p') = o.map (jobId, ·) ∧
        ∀ k, (s.exec e op).2.executor.runningJobs.lookup k =
          if k = jobId then o else s.executor.runningJobs.lookup k := by
  cases hs with
  | executeAsync jobId spec accepted =>
    refine Or.inl ⟨rfl, executeAsync_of_false (ha.trans ?_)⟩
    cases accepted with
    | false => rfl
    | true => cases hforks
  | registered jobId spec pid =>
    -- the entry is there, and gets the process
    refine Or.inr ⟨jobId, {}, some ⟨pid⟩, rfl, rfl, fun k => ?_⟩
    have hentry := hheld jobId {} rfl
    simp only [Host.exec, JobExecutor.exec, Table.lookup_modify, hentry, Option.map_some]
  | removed jobId spec pid res =>
    exact Or.inr ⟨jobId, ⟨pid⟩, none, rfl, rfl, fun k => Table.lookup_erase jobId k _⟩
  | completed jobId spec removed res =>
    refine Or.inl ⟨?_, rfl⟩
    cases removed <;> rfl
  | _ => exact Or.inl ⟨rfl, rfl⟩

/-- A thread that could not run its job has just been refused, or was before. -/
theorem HostStep.failedAt_iff (hs : HostStep workDir t p op a p') (i : ℕ) :
    failedAt (t, p') = true ↔ failedAt (t, p) = true ∨ refused (.did i t e op a) = true := by
  cases hs with
  | pipeFailed | forkFailed => exact iff_of_true rfl (Or.inr rfl)
  | completed jobId spec removed res =>
    cases removed with
    | false => exact iff_of_true rfl (Or.inl rfl)
    | true =>
      refine iff_of_false Bool.false_ne_true ?_
      rintro (h | h) <;> cases h
  | _ =>
    refine iff_of_false Bool.false_ne_true ?_
    rintro (h | h) <;> cases h

end Steps

/-! ### The invariant -/

section Invariant

variable {workDir : String} {ps ps' : List (HostTask × HostPlace)} {s s' : Host} {ev : HostEvent}
  {es : List HostEvent} {c : HostConfig}

/-- The entries of the map belong to the threads, one to each. -/
theorem HostMoves.held (h : HostMoves workDir ps s ev ps' s') (hev : startsNoThread ev = true)
    (hheld : Placing.Held entryAt ps fun j => s.executor.runningJobs.lookup j) :
    Placing.Held entryAt ps' fun j => s'.executor.runningJobs.lookup j := by
  cases h with
  | start t =>
    refine hheld.concat_of_none ?_
    cases t with
    | execution => cases hev
    | _ => rfl
  | @accepted i e jobId spec hi hnew =>
    have hcalled : Placing.Held entryAt (ps.set i (.executeAsync jobId spec, .ended true))
        fun j => s.executor.runningJobs.lookup j := hheld.set_of_eq hi rfl
    exact hcalled.concat_of_some (k := jobId) (b := {}) hnew rfl
      fun k => Table.lookup_insert jobId k _ _
  | @moved i t p p' e op hi hs hforks =>
    rcases hs.entry rfl hforks fun jobId job hq => hheld.lookup_eq_some hi hq with
      ⟨hsame, hmap⟩ | ⟨jobId, job, o, hq, hq', hmap⟩
    · rw [hmap]
      exact hheld.set_of_eq hi hsame
    · exact hheld.set_of_some hi hq hq' hmap

/-- One element of a list is replaced by one that has a property if it had it. -/
theorem exists_mem_set_iff {α : Type} {f : α → Bool} {l : List α} {i : ℕ} {a b : α}
    (hi : l[i]? = some a) (hab : f a = true → f b = true) :
    (∃ q ∈ l.set i b, f q = true) ↔ (∃ q ∈ l, f q = true) ∨ f b = true := by
  have hb : b ∈ l.set i b :=
    List.mem_of_getElem? (List.getElem?_set_self (List.getElem?_eq_some_iff.mp hi).1)
  constructor
  · rintro ⟨q, hq, hf⟩
    rcases List.mem_or_eq_of_mem_set hq with hq | rfl
    · exact Or.inl ⟨q, hq, hf⟩
    · exact Or.inr hf
  · rintro (⟨q, hq, hf⟩ | hf)
    · obtain ⟨j, hj⟩ := List.getElem?_of_mem hq
      by_cases hji : j = i
      · subst hji
        obtain rfl := Option.some.inj (hi.symm.trans hj)
        exact ⟨b, hb, hab hf⟩
      · refine ⟨q, List.mem_of_getElem? (i := j) ?_, hf⟩
        rw [List.getElem?_set_ne (Ne.symm hji), hj]
    · exact ⟨b, hb, hf⟩

/-- The threads that could not run their job are those that were refused. -/
theorem HostMoves.failed (h : HostMoves workDir ps s ev ps' s') :
    (∃ q ∈ ps', failedAt q = true) ↔ (∃ q ∈ ps, failedAt q = true) ∨ refused ev = true := by
  have hfirst (t : HostTask) : failedAt (t, .first) = false := by cases t <;> rfl
  have hconcat (qs : List (HostTask × HostPlace)) (t : HostTask) :
      (∃ q ∈ qs ++ [(t, .first)], failedAt q = true) ↔ ∃ q ∈ qs, failedAt q = true := by
    simp [or_and_right, exists_or, hfirst]
  cases h with
  | start t =>
    rw [hconcat]
    exact (or_iff_left Bool.false_ne_true).symm
  | accepted e hi hnew =>
    rw [hconcat, exists_mem_set_iff hi fun h => by cases h]
    exact Iff.rfl
  | @moved i t p p' e op hi hs hforks =>
    have hfail := hs.failedAt_iff (e := e) i
    rw [exists_mem_set_iff hi fun h => hfail.mpr (Or.inl h), hfail, ← or_assoc]
    refine or_congr_left ⟨?_, Or.inl⟩
    rintro (h | h)
    · exact h
    · exact ⟨_, List.mem_of_getElem? hi, h⟩

/-- **The invariant of every run**: the map has what the threads hold, and a thread could not
run its job just if a call of it was refused. -/
structure Tracks (es : List HostEvent) (s : Host) (ps : List (HostTask × HostPlace)) : Prop where
  held : Placing.Held entryAt ps fun j => s.executor.runningJobs.lookup j
  failed : (∃ q ∈ ps, failedAt q = true) ↔ ∃ ev ∈ es, refused ev = true

theorem exists_tracks
    (h : (host workDir).Run (fun _ ev => startsNoThread ev = true) hostStart es c) :
    ∃ ps, (hosting workDir).Placed c ps ∧ Tracks es c.state ps := by
  refine Placing.run_invariant (I := fun es c ps => Tracks es c.state ps) rfl ⟨.nil, ?_⟩ ?_ h
  · simp
  · intro es c ev c' ps ps' _ _ hI hev _ hmoves
    have hmoves := HostMoves.of_moves hmoves
    refine ⟨hmoves.held hev hI.held, ?_⟩
    rw [hmoves.failed, hI.failed]
    simp [or_and_right, exists_or]

end Invariant

/-! ### The law, proved -/

section Law

variable {workDir : String} {ps : List (HostTask × HostPlace)} {es : List HostEvent}
  {c : HostConfig} {j : String}

/-- A thread of a job that has not returned is in front of an operation. -/
theorem executionAt_eq_call {spec : JobSpec} {p : HostPlace} (hp : ∀ removed, p ≠ .ended removed) :
    ∃ op k, HostTask.executionAt workDir j spec p = .call op k := by
  cases p with
  | ended removed => exact absurd rfl (hp removed)
  | _ => exact ⟨_, _, rfl⟩

/-- A thread that has no entry has come to the callback for a job that is over. -/
theorem completed_of_entry_eq_none {spec : JobSpec} {p : HostPlace} {op : HostOp}
    {k : op.Res → HostProg} (hp : p.entry = none)
    (h : HostTask.executionAt workDir j spec p = .call op k) : ∃ res, op = .completed res := by
  cases p with
  | completing removed res =>
    cases h
    exact ⟨res, rfl⟩
  | ended removed => cases h
  | _ => cases hp

/-- A job in the map has a thread, at a place where it has an entry. -/
theorem Tracks.exists_thread (hI : Tracks es c.state ps) (hplaced : (hosting workDir).Placed c ps)
    (hj : c.state.executor.runningJobs.lookup j ≠ none) :
    ∃ (i : ℕ) (spec : JobSpec) (p : HostPlace) (job : RunningJob),
      ps[i]? = some (.execution j spec, p) ∧ p.entry = some job ∧
      c.threads[i]? = some ⟨.execution j spec, HostTask.executionAt workDir j spec p⟩ := by
  obtain ⟨job, hjob⟩ := Option.ne_none_iff_exists'.mp hj
  obtain ⟨i, ⟨t, p⟩, hi, hq⟩ := hI.held.lookup_iff.mp hjob
  obtain ⟨spec, rfl, hentry⟩ := entryAt_eq_some.mp hq
  refine ⟨i, spec, p, job, hi, hentry, ?_⟩
  rw [hosting_getElem? hplaced i, hi]
  rfl

/-- A thread of the pool that is about a job, and in front of an operation, stands at a place of
its program. -/
theorem exists_place (hplaced : (hosting workDir).Placed c ps) {i : ℕ} {spec : JobSpec}
    {prog : HostProg} (hi : c.threads[i]? = some ⟨.execution j spec, prog⟩) :
    ∃ p, ps[i]? = some (.execution j spec, p) ∧
      prog = HostTask.executionAt workDir j spec p := by
  obtain ⟨⟨t, p⟩, hq, hth⟩ := Option.map_eq_some_iff.mp
    ((hosting_getElem? hplaced i).symm.trans hi)
  obtain ⟨rfl, rfl⟩ := Thread.mk.inj hth
  exact ⟨p, hq, rfl⟩

/-- What is not in the map can be handed to the executor. -/
theorem executeAsync_of_none {m : JobExecutor} (h : m.runningJobs.lookup j = none) :
    (m.executeAsync j).1 = true := by
  rw [JobExecutor.executeAsync, h]

theorem getRunningCount_of_forall_none {m : JobExecutor}
    (h : ∀ j, m.runningJobs.lookup j = none) (e : AgentEnv) :
    (m.exec e .getRunningCount).1 = 0 := by
  have hnil : m.runningJobs.entries = [] := by
    rw [List.eq_nil_iff_forall_not_mem]
    rintro ⟨j, job⟩ hmem
    have hjob := Table.mem_entries.mp hmem
    rw [h j] at hjob
    cases hjob
  rw [JobExecutor.exec, hnil]
  rfl

/-- If no call was refused, the map tracks the executions in progress. -/
theorem Tracks.tracksLive (hI : Tracks es c.state ps) (hplaced : (hosting workDir).Placed c ps)
    (hes : ∀ ev ∈ es, refused ev = false) : TracksLive c := by
  have hlive (j : String) (hj : c.state.executor.runningJobs.lookup j ≠ none) :
      InProgress c j := by
    obtain ⟨i, spec, p, job, hi, hentry, hth⟩ := hI.exists_thread hplaced hj
    have hp (removed : Bool) : p ≠ .ended removed := by
      rintro rfl
      cases removed with
      | true => cases hentry
      | false =>
        -- such a thread was refused
        obtain ⟨ev, hev, href⟩ := hI.failed.mp ⟨_, List.mem_of_getElem? hi, rfl⟩
        rw [hes ev hev] at href
        cases href
    obtain ⟨op, k, hprog⟩ : ∃ op k, HostTask.executionAt workDir j spec p = .call op k :=
      executionAt_eq_call hp
    exact ⟨i, spec, op, k, hprog ▸ hth⟩
  have hnone (j : String) (hj : ¬ InProgress c j) :
      c.state.executor.runningJobs.lookup j = none := by
    by_contra hne
    exact hj (hlive j hne)
  refine ⟨hlive, ?_, fun hidle e => ?_, fun j hj => executeAsync_of_none (hnone j hj)⟩
  · intro i j spec op k hth hop
    obtain ⟨p, hi, hprog⟩ := exists_place hplaced hth
    cases hentry : p.entry with
    | none =>
      obtain ⟨res, hres⟩ := completed_of_entry_eq_none hentry hprog.symm
      exact absurd hres (hop res)
    | some job =>
      have hq : entryAt (.execution j spec, p) = some (j, job) :=
        entryAt_eq_some.mpr ⟨spec, rfl, hentry⟩
      have hlookup : c.state.executor.runningJobs.lookup j = some job :=
        hI.held.lookup_eq_some hi hq
      rw [hlookup]
      exact Option.some_ne_none job
  · exact getRunningCount_of_forall_none (fun j => hnone j (hidle j)) e

/-- **The map tracks the executions in progress** in every state of a run in which no `pipe`
and no `fork` fails; in a run in which one does, the map fails to as soon as no execution is in
progress. -/
theorem running_map_live
    (h : (host workDir).Run (fun _ ev => startsNoThread ev = true) hostStart es c) :
    ((∀ ev ∈ es, refused ev = false) → TracksLive c) ∧
      (NoneInProgress c → TracksLive c → ∀ ev ∈ es, refused ev = false) := by
  obtain ⟨ps, hplaced, hI⟩ := exists_tracks h
  refine ⟨hI.tracksLive hplaced, fun hidle hlive ev hev => ?_⟩
  by_contra href
  obtain ⟨q, hq, hfail⟩ := hI.failed.mpr ⟨ev, hev, Bool.eq_true_of_not_eq_false href⟩
  obtain ⟨j, hentry⟩ := exists_entryAt_of_failedAt hfail
  obtain ⟨i, hi⟩ := List.getElem?_of_mem hq
  have hjob : c.state.executor.runningJobs.lookup j = some {} := hI.held.lookup_eq_some hi hentry
  refine hidle j (hlive.live j ?_)
  rw [hjob]
  exact Option.some_ne_none _

end Law

/-- A configuration whose threads have all returned is idle. -/
theorem idle_of_forall {c : HostConfig} (h : ∀ th ∈ c.threads, th.result.isSome = true) :
    NoneInProgress c := by
  rintro j ⟨i, spec, op, k, hi⟩
  cases h _ (List.mem_of_getElem? hi)

/-- A job is handed to the executor, and its thread forks. -/
def oneJob : List (Choice AgentEnv HostTask) :=
  [.start (.executeAsync "job-1" {}), .move 0 default, .move 1 default, .move 1 default,
    .move 1 default]

/-- While the job runs, its entry in the map is that of an execution in progress. -/
theorem running_map_live_oneJob :
    ∃ es c, (host "/work").Run (fun _ ev => startsNoThread ev = true) hostStart es c ∧
      c.state.executor.runningJobs.lookup "job-1" = some ⟨1⟩ ∧ InProgress c "job-1" := by
  obtain ⟨es, c, hrun, hp⟩ := System.exists_trace (S := host "/work")
    (g := fun _ ev => startsNoThread ev) (c := hostStart)
    (p := fun es c => (∀ ev ∈ es, refused ev = false) ∧
      c.state.executor.runningJobs.lookup "job-1" = some ⟨1⟩)
    oneJob (by decide +kernel)
  obtain ⟨hnone, hjob⟩ := of_decide_eq_true hp
  refine ⟨es, c, hrun, hjob, ((running_map_live hrun).1 hnone).live "job-1" ?_⟩
  rw [hjob]
  exact Option.some_ne_none _

/-- A job is handed to the executor, and its thread gets no pipe. -/
def noPipe : List (Choice AgentEnv HostTask) :=
  [.start (.executeAsync "job-1" {}), .move 0 default,
    .move 1 { (default : AgentEnv) with pipeOk := false }, .move 1 default]

/-- **An entry outlives its execution**: the thread of a job that got no pipe has made the
callback and returned, and nothing is in progress; one job counts as running, and is refused. -/
theorem entry_outlives_execution :
    ∃ es c, (host "/work").Run (fun _ ev => startsNoThread ev = true) hostStart es c ∧
      NoneInProgress c ∧ (c.state.executor.exec default .getRunningCount).1 = 1 ∧
      (c.state.executor.executeAsync "job-1").1 = false ∧ ¬ TracksLive c := by
  obtain ⟨es, c, hrun, hp⟩ := System.exists_trace (S := host "/work")
    (g := fun _ ev => startsNoThread ev) (c := hostStart)
    (p := fun _ c => (∀ th ∈ c.threads, th.result.isSome = true) ∧
      (c.state.executor.exec default .getRunningCount).1 = 1 ∧
      (c.state.executor.executeAsync "job-1").1 = false)
    noPipe (by decide +kernel)
  obtain ⟨hended, hcount, hrefused⟩ := of_decide_eq_true hp
  have hidle := idle_of_forall hended
  refine ⟨es, c, hrun, hidle, hcount, hrefused, fun hlive => ?_⟩
  have hzero := hlive.count hidle default
  rw [hcount] at hzero
  exact absurd hzero (by decide)

end CertOS
