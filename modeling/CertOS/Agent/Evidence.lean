import CertOS.Agent.ExitStatus
import CertOS.Agent.Provenance

/-!
# What a status is evidence of

The master believes whoever reports (`CertOS.reports_carried_out`), so a status proves
nothing in general. If the only reports are those of the agent's own threads
(`CertOS.ownReports`), it does: a job that is running or completed has been forked, a
job that is completed has been waited for, and a job that has failed is one whose pipe
or whose fork has failed (`CertOS.status_is_evidence`).

A thread reports what it has done, in the order in which it has done it; so for each of
its places the history shows what its next report will say (`CertOS.Evident`). The
other threads write `ASSIGNED` and `CANCELLED` only, which claim nothing about a
process.
-/

namespace CertOS

open Interleave

variable {Db Fs : Type} {P : Platform Db Fs} {nodeId workDir : String}

/-! ### The events -/

/-- The event waits for the end of a process of the job. -/
def waitsFor (j : String) : ClusterEvent → Bool
  | .did _ (.execution jobId _) _ (.executor (.waitpid _)) _ => jobId = j
  | _ => false

/-- The event is a pipe or a fork for the job that fails. -/
def failsToStart (j : String) : ClusterEvent → Bool
  | .did _ (.execution jobId _) _ (.executor .pipe) opened => jobId = j && !opened
  | .did _ (.execution jobId _) _ (.executor (.fork _ _)) none => jobId = j
  | _ => false

/-- The call reports on a job. -/
def Rpc.isReport : Rpc → Bool
  | .reportJobStarted _ | .reportJobCompleted _ | .reportJobFailed _ => true
  | _ => false

/-- **The reports are the agent's**: no report arrives at the master from outside. -/
def ownReports : ClusterEvent → Bool
  | .start (.master (.rpc _ call)) => !call.isReport
  | _ => true

/-- What the history has to show for a status of the job. -/
def Shown (es : List ClusterEvent) (j : String) : JobStatus → Prop
  | .running => ∃ ev ∈ es, forksJob j ev = true
  | .completed => (∃ ev ∈ es, forksJob j ev = true) ∧ ∃ ev ∈ es, waitsFor j ev = true
  | .failed => ∃ ev ∈ es, failsToStart j ev = true
  | _ => True

theorem Shown.append {es : List ClusterEvent} {j : String} {status : JobStatus}
    (h : Shown es j status) (es' : List ClusterEvent) : Shown (es ++ es') j status := by
  have hmem {q : ClusterEvent → Bool} (hq : ∃ ev ∈ es, q ev = true) :
      ∃ ev ∈ es ++ es', q ev = true := by
    obtain ⟨ev, hev, h⟩ := hq
    exact ⟨ev, List.mem_append_left _ hev, h⟩
  cases status with
  | running => exact hmem h
  | completed => exact ⟨hmem h.1, hmem h.2⟩
  | failed => exact hmem h
  | _ => trivial

/-! ### The thread of a job -/

/-- **What the history shows of a thread of a job**: once it has forked, the fork; and once
the outcome is known, what the report of it will say. -/
def Evident (es : List ClusterEvent) : Place → Prop
  | .execution j _ (.registering _) | .execution j _ (.stampingStart _)
  | .execution j _ (.reportingStart _) | .execution j _ (.reading _)
  | .execution j _ (.waiting _ _) => Shown es j .running
  | .execution j _ (.removing res) | .execution j _ (.stampingEnd _ res)
  | .execution j _ (.reportingEnd _ res) => res.jobId = j ∧ Shown es j (endStatus res)
  | _ => True

theorem Evident.append {es : List ClusterEvent} {p : Place} (h : Evident es p)
    (es' : List ClusterEvent) : Evident (es ++ es') p := by
  cases p with
  | execution j spec pl =>
    cases pl with
    | registering | stampingStart | reportingStart | reading | waiting =>
      have hrun : Shown es j .running := h
      exact hrun.append es'
    | removing | stampingEnd | reportingEnd => exact ⟨h.1, h.2.append es'⟩
    | _ => trivial
  | _ => trivial

/-- **One step of the thread of a job.** -/
theorem ExecutionStep.evident {es : List ClusterEvent} {j : String} {spec : JobSpec}
    {pl pl' : ExecutionPlace} {op : ClusterOp} {a : op.Res}
    (hs : ExecutionStep nodeId workDir j spec pl op a pl') (i : ℕ) (e : ClusterEnv)
    (h : Evident es (.execution j spec pl)) :
    Evident (es ++ [.did i (.execution j spec) e op a]) (.execution j spec pl') := by
  have hlast {q : ClusterEvent → Bool} (hq : q (.did i (.execution j spec) e op a) = true) :
      ∃ ev ∈ es ++ [.did i (.execution j spec) e op a], q ev = true :=
    ⟨_, List.mem_append_right _ List.mem_cons_self, hq⟩
  cases hs with
  | pipeFailed => exact ⟨rfl, hlast (q := failsToStart j) (by simp [failsToStart])⟩
  | packed | plain | unpacked => trivial
  | forkFailed => exact ⟨rfl, hlast (q := failsToStart j) (by simp [failsToStart])⟩
  | forked pid => exact hlast (q := forksJob j) (by simp [forksJob])
  | registered | stampedStart | reportedStart | read =>
    have hrun : Shown es j .running := h
    exact hrun.append _
  | waited pid chunks processEnd =>
    have hrun : Shown es j .running := h
    refine ⟨jobResult_jobId _ _ _, ?_⟩
    rw [endStatus_jobResult]
    exact ⟨hrun.append _, hlast (q := waitsFor j) (by simp [waitsFor])⟩
  | removed | stampedEnd => exact ⟨h.1, h.2.append _⟩
  | reportedEnd => trivial

/-- The status a thread of a job writes is shown by the history. -/
theorem ExecutionStep.shown {es : List ClusterEvent} {j jobId n : String} {spec : JobSpec}
    {pl pl' : ExecutionPlace} {status : JobStatus} {a : Bool}
    (hs : ExecutionStep nodeId workDir j spec pl
      (.master (.job (.updateJobStatus jobId status n))) a pl')
    (h : Evident es (.execution j spec pl)) : Shown es jobId status := by
  cases hs with
  | reportedStart pid ok => exact h
  | reportedEnd removed res ok =>
    rw [h.1]
    exact h.2

/-! ### The other threads -/

/-- The operation writes no status that claims something about a process. -/
def claimsNothing : ClusterOp → Bool
  | .master (.job (.updateJobStatus _ status _)) => status = .assigned
  | .master (.job (.failJobsOnNode _)) => false
  | _ => true

/-- The calls other than the reports claim nothing, and neither does the scheduler. -/
theorem claimsNothing_of_task {t : Task}
    (ht : ∀ metadata call, t = .rpc metadata call → call.isReport = false)
    (hfail : ∀ n, t ≠ .failJobsOnNode n) :
    (Agent.onMaster ((master P).body t)).Only fun op => claimsNothing op = true := by
  refine Prog.Only.mono (Prog.Only.embed (Prog.Only.and (only_mayDo P t) (only_writes P t))) ?_
  rintro _ ⟨op, rfl, hmay, hwrites⟩
  cases op with
  | job o =>
    cases o with
    | updateJobStatus jobId status n =>
      have hw := hwrites jobId status n rfl
      cases t with
      | rpc metadata call =>
        have hnot := ht metadata call rfl
        cases call <;> first | cases hw | cases hnot
      | schedulePass sort => cases status <;> first | rfl | cases hw
      | _ => cases hw
    | failJobsOnNode n =>
      cases t with
      | failJobsOnNode n' => exact absurd rfl (hfail n')
      | rpc metadata call => cases call <;> cases hmay
      | _ => cases hmay
    | _ => rfl
  | _ => rfl

theorem claimsNothing_rpc {call : Rpc} (h : call.isReport = false) :
    (Agent.rpc P call).Only fun op => claimsNothing op = true := by
  refine claimsNothing_of_task (P := P) (t := .rpc [] call) ?_ nofun
  rintro metadata call' ⟨⟩
  exact h

theorem claimsNothing_cancelAll (jids : List String) :
    (Agent.cancelAll jids).Only fun op => claimsNothing op = true := by
  induction jids with
  | nil => trivial
  | cons jid jids ih => exact .op_bind rfl fun _ => ih

theorem claimsNothing_heartbeatRound :
    (Agent.heartbeatRound P nodeId).Only fun op => claimsNothing op = true := by
  refine .op_bind rfl fun runningJobs => ?_
  refine .bind (.op_bind rfl fun timestamp => (claimsNothing_rpc rfl).bind fun _ => trivial)
    fun result => ?_
  cases result with
  | none => trivial
  | some jobsToCancel => exact claimsNothing_cancelAll jobsToCancel

/-- The tasks at quiet places claim nothing, if the reports are the agent's. -/
theorem claimsNothing_body {c : ClusterConfig Db Fs} {t : ClusterTask}
    (hw : clusterWired c (.start t) = true) (ho : ownReports (.start t) = true)
    (ht : startPlace t = .quiet) :
    ((cluster P nodeId workDir).body t).Only fun op => claimsNothing op = true := by
  cases t with
  | master t =>
    refine claimsNothing_of_task (fun metadata call ht => ?_) fun n hn => ?_
    · subst ht
      simpa [ownReports] using ho
    · subst hn
      cases hw
  | heartbeat => exact Prog.only_map.mpr claimsNothing_heartbeatRound
  | _ => cases ht

/-! ### The table -/

/-- A sweep whose status, if it writes one, is shown keeps the statuses shown. -/
theorem shown_touch {es : List ClusterEvent} {now : ℤ} {o : JobOp} {j : String} {info : JobInfo}
    (hu : ∀ jobId status n, o = .updateJobStatus jobId status n → Shown es jobId status)
    (hf : ∀ n, o ≠ .failJobsOnNode n) (h : Shown es j info.status) :
    Shown es j (o.touch now j info).status := by
  cases o with
  | updateJobStatus jobId status n =>
    rw [JobOp.touch]
    split
    · rename_i hid
      subst hid
      rw [JobManager.setStatus_status]
      exact hu j status n rfl
    · exact h
  | failJobsOnNode n => exact absurd rfl (hf n)
  | cancelJob jobId =>
    simp only [JobOp.touch, JobManager.cancel]
    split_ifs
    · exact h
    · trivial
    · exact h
  | _ => exact h

/-- What a run in which the reports are the agent's has shown so far. -/
structure Witnessed (es : List ClusterEvent) (c : ClusterConfig Db Fs) (ps : List Place) :
    Prop where
  places : ∀ p ∈ ps, Evident es p
  quiets : ∀ (i : ℕ) th, c.threads[i]? = some th → ps[i]? = some .quiet →
    th.prog.Only fun op => claimsNothing op = true
  jobs : ∀ j info, c.state.master.jobMgr.jobs.lookup j = some info → Shown es j info.status

/-- What an operation on the job table writes is shown. -/
theorem Witnessed.shown {es : List ClusterEvent} {c c' : ClusterConfig Db Fs} {ps ps' : List Place}
    {i : ℕ} {t : ClusterTask} {e : ClusterEnv} {o : JobOp} {r : o.Res} (h : Witnessed es c ps)
    (hs : (cluster P nodeId workDir).Step c (.did i t e (.master (.job o)) r) c')
    (hm : Moves P nodeId workDir ps c.state (.did i t e (.master (.job o)) r) ps' c'.state) :
    (∀ jobId status n, o = .updateJobStatus jobId status n → Shown es jobId status) ∧
      ∀ n, o ≠ .failJobsOnNode n := by
  generalize hev : (Event.did i t e (.master (.job o)) r : ClusterEvent) = ev at hm
  generalize c'.state = s' at hm
  cases hm with
  | started => cases hev
  | quiet t e hk hq =>
    cases hev
    obtain ⟨k, hi, -, -⟩ := hs.did_inv
    have honly := (h.quiets _ _ hi hk).1
    refine ⟨fun jobId status n ho => ?_, fun n ho => ?_⟩
    · subst ho
      obtain rfl : status = .assigned := of_decide_eq_true honly
      trivial
    · subst ho
      cases honly
  | fetched t e hk =>
    cases hev
    exact ⟨nofun, nofun⟩
  | handed => cases hev
  | refused => cases hev
  | executed e hk hstep =>
    cases hev
    refine ⟨fun jobId status n ho => ?_, fun n ho => ?_⟩
    · subst ho
      exact hstep.shown (h.places _ (List.mem_of_getElem? hk))
    · subst ho
      generalize (c.state.exec P e (.master (.job (.failJobsOnNode n)))).1 = a at hstep
      cases hstep

/-- **A step keeps what is shown.** -/
theorem Witnessed.step {es : List ClusterEvent} {c c' : ClusterConfig Db Fs} {ps ps' : List Place}
    {ev : ClusterEvent} (h : Witnessed es c ps) (hplaced : Placed P nodeId workDir c ps)
    (hw : clusterWired c ev = true) (ho : ownReports ev = true)
    (hs : (cluster P nodeId workDir).Step c ev c')
    (hm : Moves P nodeId workDir ps c.state ev ps' c'.state) :
    Witnessed (es ++ [ev]) c' ps' where
  places := by
    have hold (p : Place) (hp : p ∈ ps) : Evident (es ++ [ev]) p := (h.places p hp).append _
    have hset {i : ℕ} {w : Place} (hw' : Evident (es ++ [ev]) w) (p : Place)
        (hp : p ∈ ps.set i w) : Evident (es ++ [ev]) p := by
      rcases List.mem_or_eq_of_mem_set hp with hp | rfl
      · exact hold p hp
      · exact hw'
    generalize c'.state = s' at hm
    cases hm with
    | started t =>
      intro p hp
      rcases List.mem_append.mp hp with hp | hp
      · exact hold p hp
      · obtain rfl := List.mem_singleton.mp hp
        cases t <;> trivial
    | quiet t e hi hq => exact hold
    | fetched t e hi => exact hset (w := .polling _) trivial
    | handed t e hi hnew =>
      intro p hp
      rcases List.mem_append.mp hp with hp | hp
      · exact hset (w := .polling .ended) trivial p hp
      · obtain rfl := List.mem_singleton.mp hp
        trivial
    | refused t e hi hold => exact hset (w := .polling .ended) trivial
    | executed e hi hstep =>
      exact hset (w := .execution _ _ _) (hstep.evident _ e (h.places _ (List.mem_of_getElem? hi)))
  quiets := hplaced.quiet_step hs hm h.quiets
    (fun t ht => by
      subst ht
      exact claimsNothing_body hw ho)
    (fun i t e op k _ _ hk => hk.2 _) fun p hp => hp
  jobs := by
    have hold (j : String) (info : JobInfo)
        (hj : c.state.master.jobMgr.jobs.lookup j = some info) :
        Shown (es ++ [ev]) j info.status := (h.jobs j info hj).append _
    rcases hm.jobMgr with heq | ⟨i, t, e, o, rfl, heq⟩
    · rw [heq]
      exact hold
    · obtain ⟨hu, hf⟩ := h.shown hs hm
      rw [heq]
      exact JobManager.forall_exec _ _ _ (fun _ _ _ _ => trivial)
        (fun j info hi => shown_touch (fun _ _ _ hop => (hu _ _ _ hop).append _) hf hi) hold

/-- **A status is evidence**: in every run of the master and one agent as they are wired, in
which no report arrives from outside, a job that is running has been forked, one that is
completed has been forked and waited for, and for one that has failed a pipe or a fork has
failed. -/
theorem status_is_evidence {db : Option Db} {adminDb : Db} {fairShare : Fs}
    {es : List ClusterEvent} {c : ClusterConfig Db Fs}
    (h : (cluster P nodeId workDir).Run
      (fun c ev => clusterWired c ev = true ∧ ownReports ev = true)
      (clusterStart db adminDb fairShare) es c) {j : String} {info : JobInfo}
    (hj : c.state.master.jobMgr.jobs.lookup j = some info) :
    (info.status = .running → ∃ ev ∈ es, forksJob j ev = true) ∧
      (info.status = .completed →
        (∃ ev ∈ es, forksJob j ev = true) ∧ ∃ ev ∈ es, waitsFor j ev = true) ∧
      (info.status = .failed → ∃ ev ∈ es, failsToStart j ev = true) := by
  obtain ⟨ps, -, hI⟩ := run_places_of_run (I := Witnessed)
    ⟨fun p hp => (by cases hp), fun i th hi => (by cases hi), fun j info hj => (by cases hj)⟩
    (fun es c ev c' ps ps' _ hplaced hI hok hs hm => hI.step hplaced hok.1 hok.2 hs hm) h
  have hshown := hI.jobs j info hj
  refine ⟨fun hst => ?_, fun hst => ?_, fun hst => ?_⟩
  · rw [hst] at hshown
    exact hshown
  · rw [hst] at hshown
    exact hshown
  · rw [hst] at hshown
    exact hshown

/-- The law at work: the job of `runThenFetch` is completed, so it has been forked and waited
for. -/
theorem status_is_evidence_run :
    ∃ es c, (cluster barePlatform "node-00000000" "/work").Run
        (fun c ev => clusterWired c ev = true ∧ ownReports ev = true)
        (clusterStart none {} ()) es c ∧
      (c.state.master.jobMgr.jobs.lookup "job-00000000").map JobInfo.status = some .completed ∧
      (∃ ev ∈ es, forksJob "job-00000000" ev = true) ∧
      ∃ ev ∈ es, waitsFor "job-00000000" ev = true := by
  obtain ⟨es, c, hrun, hp⟩ := System.exists_run
    (S := cluster barePlatform "node-00000000" "/work")
    (g := fun c ev => clusterWired c ev && ownReports ev) (c := clusterStart none {} ())
    (p := fun c =>
      (c.state.master.jobMgr.jobs.lookup "job-00000000").map JobInfo.status = some .completed)
    runThenFetch (by decide +kernel)
  have hst := of_decide_eq_true hp
  obtain ⟨info, hj, hi⟩ := Option.map_eq_some_iff.mp hst
  have hrun' := hrun.mono fun c ev hg => (Bool.and_eq_true _ _).mp hg
  obtain ⟨hforks, hwaits⟩ := (status_is_evidence hrun' hj).2.1 hi
  exact ⟨es, c, hrun', hst, hforks, hwaits⟩

end CertOS
