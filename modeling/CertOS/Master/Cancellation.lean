import CertOS.Master.Server

/-!
# Delivery of a cancellation

`CancelJob` only marks the job. The agent learns of it from the reply to a later
heartbeat, for which `get_jobs_to_cancel_for_node` collects the jobs that are
marked as cancelled, are assigned to the node and were cancelled less than a
minute ago. So the message to the agent is not stored anywhere: it is read off
three fields of the record (`CertOS.Undelivered`), and it is lost when another
operation overwrites one of them.

The one operation that does is `update_job_status`: a `ReportJobStarted` that
was on its way when the job was cancelled makes it `RUNNING`, and so does a
scheduler that works from a stale snapshot. `CertOS.cancellation_delivered` is
the law for the runs without such an update (`CertOS.revives`), and
`CertOS.cancellation_lost` a run with one.
-/

namespace CertOS

open Interleave

variable {Db Fs : Type} {P : Platform Db Fs}

/-! ### The record of a cancellation -/

/-- The record says that job `j` of node `n` was cancelled at time `t`. -/
def Undelivered (j n : String) (t : ℤ) (m : JobManager Db) : Prop :=
  ∃ info, m.jobs.lookup j = some info ∧ info.status = .cancelled ∧ info.assignedNodeId = n ∧
    info.completedAt = t

/-- A cancellation that succeeds leaves its record, and keeps the node. -/
theorem undelivered_of_cancelJob {e : Env} {j : String} {m : JobManager Db} {info : JobInfo}
    (hj : m.jobs.lookup j = some info) (h : (m.cancelJob e j).1 = true) :
    Undelivered j info.assignedNodeId e.now (m.cancelJob e j).2 := by
  by_cases hd : info.status = .completed ∨ info.status = .failed ∨ info.status = .cancelled
  · simp [JobManager.cancelJob, hj, hd] at h
  · refine ⟨JobManager.cancel e.now info, ?_, ?_, ?_, ?_⟩
    · simp [JobManager.cancelJob, hj, hd]
    · rw [JobManager.cancel, if_neg hd]
    · rw [JobManager.cancel, if_neg hd]
    · rw [JobManager.cancel, if_neg hd]

/-- **A heartbeat within the minute lists the job**. -/
theorem mem_getJobsToCancelForNode {e : Env} {j n : String} {t : ℤ} {m : JobManager Db}
    (hk : m.Keyed) (h : Undelivered j n t m) (ht : e.now < t + 60) :
    j ∈ m.getJobsToCancelForNode e n := by
  obtain ⟨info, hj, hst, hn, hc⟩ := h
  refine List.mem_map.mpr ⟨info, List.mem_filter.mpr ⟨?_, ?_⟩, hk j info hj⟩
  · exact e.jobOrder.mem_iff.mpr (Table.mem_values.mpr ⟨j, hj⟩)
  · have hlt : e.now - info.completedAt < 60 := by omega
    simp [hst, hn, hlt]

/-! ### What overwrites it -/

/-- **The step revives the job**: it sets the status of `j` to one that is not
an end. -/
def revives (j : String) : MasterEvent → Bool
  | .did _ _ _ (.job (.updateJobStatus jobId status _)) _ => jobId = j && !status.isTerminal
  | _ => false

/-- The step is a terminal report for the job. -/
def endsJob (j : String) : MasterEvent → Bool
  | .did _ _ _ (.job (.updateJobStatus jobId status _)) _ => jobId = j && status.isTerminal
  | _ => false

/-- A sweep over a cancelled job leaves its record alone, unless it is an update
of that job. -/
theorem touch_of_cancelled {now : ℤ} {o : JobOp} {j : String} {info : JobInfo}
    (hst : info.status = .cancelled)
    (hu : ∀ status nodeId, o ≠ .updateJobStatus j status nodeId) : o.touch now j info = info := by
  cases o with
  | updateJobStatus jobId status nodeId =>
    have hne : j ≠ jobId := by
      rintro rfl
      exact hu status nodeId rfl
    rw [JobOp.touch, if_neg hne]
  | failJobsOnNode nodeId =>
    rw [JobOp.touch, JobManager.failOnNode, hst, if_neg]
    rintro ⟨h | h, -⟩ <;> cases h
  | cancelJob jobId =>
    rw [JobOp.touch, JobManager.cancel_of_isTerminal (by rw [hst]; rfl), ite_self]
  | _ => rfl

/-- **One step** that neither draws the identifier of the job again nor revives or ends the
job keeps the record of its cancellation. -/
theorem Undelivered.step {c c' : MasterConfig Db Fs} {ev : MasterEvent} {j n : String} {t : ℤ}
    (h : Undelivered j n t c.state.jobMgr) (hstep : (master P).Step c ev c')
    (hd : drawsJob j ev = false) (hr : revives j ev = false) (he : endsJob j ev = false) :
    Undelivered j n t c'.state.jobMgr := by
  obtain ⟨info, hj, hst, hn, hc⟩ := h
  cases hstep with
  | start t => exact ⟨info, hj, hst, hn, hc⟩
  | did i t e op k hi =>
    rcases lookup_of_not_drawsJob hd hj with h | ⟨o, rfl, -, h⟩
    · exact ⟨info, h, hst, hn, hc⟩
    · have hsame : o.touch e.now j info = info := by
        refine touch_of_cancelled hst ?_
        rintro status nodeId rfl
        cases hs : status.isTerminal <;> simp [revives, endsJob, hs] at hr he
      exact ⟨info, by rw [← hsame]; exact h, hst, hn, hc⟩

/-- **The condition is exact**: right after a step that revives the job, a
heartbeat does not list it. -/
theorem not_listed_of_revives {c c' : MasterConfig Db Fs} {ev : MasterEvent} {j n : String}
    (hk : c'.state.jobMgr.Keyed) (hstep : (master P).Step c ev c') (hr : revives j ev = true)
    (e : Env) : j ∉ c'.state.jobMgr.getJobsToCancelForNode e n := by
  intro hmem
  obtain ⟨info, hinfo, hid⟩ := List.mem_map.mp hmem
  obtain ⟨hval, hcond⟩ := List.mem_filter.mp hinfo
  obtain ⟨j', hj'⟩ := Table.mem_values.mp (e.jobOrder.mem_iff.mp hval)
  obtain rfl : j' = j := (hk j' info hj').symm.trans hid
  have hst : info.status = .cancelled := (of_decide_eq_true hcond).1
  cases hstep with
  | start t => cases hr
  | did i t e op k hi =>
    cases op with
    | job o =>
      cases o with
      | updateJobStatus jobId status nodeId =>
        obtain ⟨rfl, hnot⟩ : jobId = j' ∧ status.isTerminal = false := by simpa [revives] using hr
        have hl : (c.state.jobMgr.exec P.store e
            (.updateJobStatus jobId status nodeId)).2.jobs.lookup jobId = _ :=
          JobManager.lookup_exec _ _ _ rfl jobId
        obtain ⟨info₀, -, hset⟩ := Option.map_eq_some_iff.mp (hl.symm.trans hj')
        rw [JobOp.touch, if_pos rfl] at hset
        rw [← hset, JobManager.setStatus_status] at hst
        rw [hst] at hnot
        cases hnot
      | _ => cases hr
    | _ => cases hr

/-! ### The two events -/

/-- The event is a cancellation of `j` that succeeds at time `t`. -/
def cancelsAt (j : String) (t : ℤ) : MasterEvent → Bool
  | .did _ _ e (.job (.cancelJob jobId)) ok => jobId = j && e.now = t && ok
  | _ => false

theorem eq_of_cancelsAt {j : String} {t : ℤ} {ev : MasterEvent} (h : cancelsAt j t ev = true) :
    ∃ i task e, ev = .did i task e (.job (.cancelJob j)) true ∧ e.now = t := by
  cases ev with
  | start task => cases h
  | did i task e op r =>
    cases op with
    | job o =>
      cases o with
      | cancelJob jobId =>
        obtain ⟨⟨rfl, rfl⟩, rfl⟩ : (jobId = j ∧ e.now = t) ∧ r = true := by
          simpa [cancelsAt] using h
        exact ⟨i, task, e, rfl, rfl⟩
      | _ => cases h
    | _ => cases h

/-- The event is a step of the heartbeat of `n` that thread `i` serves, at time
`t`. -/
def beatsAt (i : ℕ) (n : String) (t : ℤ) : MasterEvent → Bool
  | .did i' (.rpc _ (.sendHeartbeat request)) e _ _ =>
    i' = i && request.nodeId = n && e.now = t
  | _ => false

theorem eq_of_beatsAt {i : ℕ} {n : String} {t : ℤ} {ev : MasterEvent}
    (h : beatsAt i n t ev = true) :
    ∃ metadata request e op r, ev = .did i (.rpc metadata (.sendHeartbeat request)) e op r ∧
      request.nodeId = n ∧ e.now = t := by
  cases ev with
  | start task => cases h
  | did i task e op r =>
    cases task with
    | rpc metadata rpc =>
      cases rpc with
      | sendHeartbeat request =>
        obtain ⟨⟨rfl, hn⟩, ht⟩ : (_ ∧ request.nodeId = n) ∧ e.now = t := by
          simpa [beatsAt] using h
        exact ⟨metadata, request, e, op, r, rfl, hn, ht⟩
      | _ => cases h
    | _ => cases h

/-! ### The heartbeat -/

/-- `SendHeartbeat`, operation by operation. -/
theorem handle_sendHeartbeat (J : JsonCodec) (metadata : Metadata) (request : HeartbeatRequest) :
    (Rpc.sendHeartbeat request).handle J metadata =
      .call (.node (.updateHeartbeat request.nodeId request.availableResources request.runningJobs))
        fun ok : Bool =>
          if ok then .call (.job (.getJobsToCancelForNode request.nodeId)) fun toCancel =>
            .ret (.heartbeat { acknowledged := true, jobsToCancel := toCancel })
          else .ret (.heartbeat { acknowledged := false, message := "Node not registered" }) := by
  refine congrArg (Prog.call _) (funext fun ok => ?_)
  cases ok <;> rfl

/-- **An acknowledged heartbeat lists what the table says** at the moment it is
processed. -/
theorem jobsToCancel_of_acknowledged {c c' : MasterConfig Db Fs} {i : ℕ} {e : Env} {op : MasterOp}
    {r : op.Res} {metadata : Metadata} {request : HeartbeatRequest} {resp : HeartbeatResponse}
    (hres : ∀ th ∈ c.threads, ((master P).body th.task).Residual th.prog)
    (hstep : (master P).Step c (.did i (.rpc metadata (.sendHeartbeat request)) e op r) c')
    (hret : c'.result i = some (.heartbeat resp)) (hack : resp.acknowledged = true) :
    resp.jobsToCancel = c.state.jobMgr.getJobsToCancelForNode e request.nodeId := by
  obtain ⟨k, hi, hr, rfl⟩ := hstep.did_inv
  obtain ⟨t, hret⟩ := Config.result_eq_some.mp hret
  -- the thread that moved is the one that has now returned
  have hk : k ((master P).exec e op c.state).1 = .ret (.heartbeat resp) := by
    rcases System.getElem?_after hret with ⟨-, h⟩ | ⟨hne, -⟩ | ⟨hle, -⟩
    · exact (congrArg Thread.prog h).symm
    · exact absurd rfl hne
    · have hlt := (List.getElem?_eq_some_iff.mp hi).1
      omega
  have hleft := hres _ (List.mem_of_getElem? hi)
  rw [master_body_rpc, handle_sendHeartbeat, Prog.residual_call] at hleft
  rcases hleft with h | ⟨ok, h⟩
  · -- after the first operation it has returned only if the node is unknown
    cases h
    cases hok : ((master P).exec e (.node (.updateHeartbeat request.nodeId
        request.availableResources request.runningJobs)) c.state).1 with
    | true =>
      rw [hok] at hk
      cases hk
    | false =>
      rw [hok] at hk
      obtain rfl : (_ : HeartbeatResponse) = resp := by simpa using hk
      cases hack
  · cases ok with
    | false => simp at h
    | true =>
      rcases Prog.residual_call.mp h with h | ⟨toCancel, h⟩
      · cases h
        obtain rfl : (_ : HeartbeatResponse) = resp := by simpa using hk
        rfl
      · simp at h

/-- **An acknowledged cancellation is delivered**, in every run from the start
of the master in which no later step revives the job or draws its identifier
again: if the cancellation of a job that is active on node `n` succeeds at time
`t`, and no terminal report for the job is processed afterwards, every
acknowledged heartbeat of the node that is processed before `t + 60` lists the
job. -/
theorem cancellation_delivered {db : Option Db} {adminDb : Db} {fs : Fs}
    {ok : MasterConfig Db Fs → MasterEvent → Prop} {c₁ c₂ c₃ c₄ : MasterConfig Db Fs}
    {es₁ es₂ : List MasterEvent} {ev ev' : MasterEvent} {i : ℕ} {t t' : ℤ} {j n : String}
    {info : JobInfo} {resp : HeartbeatResponse}
    (h₁ : (master P).Run ok (masterStart db adminDb fs) es₁ c₁)
    (hj : c₁.state.jobMgr.jobs.lookup j = some info) (hact : holdsOn n info = true)
    (hc : (master P).Step c₁ ev c₂) (hcancel : cancelsAt j t ev = true)
    (h₂ : (master P).Run (fun _ ev => drawsJob j ev = false ∧ revives j ev = false) c₂ es₂ c₃)
    (hend : ∀ ev ∈ es₂, endsJob j ev = false)
    (hh : (master P).Step c₃ ev' c₄) (hbeat : beatsAt i n t' ev' = true)
    (hret : c₄.result i = some (.heartbeat resp)) (hack : resp.acknowledged = true)
    (ht : t' < t + 60) : j ∈ resp.jobsToCancel := by
  obtain ⟨i₁, task, e, rfl, rfl⟩ := eq_of_cancelsAt hcancel
  obtain ⟨metadata, request, e', op, r, rfl, hn, rfl⟩ := eq_of_beatsAt hbeat
  obtain ⟨-, hnode⟩ : _ ∧ info.assignedNodeId = n := by simpa [holdsOn] using hact
  -- the run as a whole keeps the table under its identifiers and the threads to their tasks
  have hrun : (master P).Run (fun _ _ => True) (masterStart db adminDb fs) (es₁ ++ [_] ++ es₂) c₃ :=
    ((h₁.mono fun _ _ _ => trivial).snoc trivial hc).append (h₂.mono fun _ _ _ => trivial)
  have hk : c₃.state.jobMgr.Keyed := keyed_of_run hrun fun _ _ h => by cases h
  have hres := hrun.residual (by intro th hth; cases hth)
  -- the record made by the cancellation is still there
  have hrec : Undelivered j n e.now c₂.state.jobMgr := by
    obtain ⟨k, -, hr, rfl⟩ := hc.did_inv
    exact hnode ▸ undelivered_of_cancelJob hj hr.symm
  have hrec' : Undelivered j n e.now c₃.state.jobMgr := by
    refine h₂.invariant (I := fun es c => (∀ ev ∈ es, endsJob j ev = false) →
      Undelivered j n e.now c.state.jobMgr) (fun _ => hrec) ?_ hend
    intro es c ev c' ih hok hstep hes
    have hold := ih fun ev' h => hes ev' (List.mem_append_left _ h)
    exact hold.step hstep hok.1 hok.2 (hes ev (by simp))
  rw [jobsToCancel_of_acknowledged hres hh hret hack, hn]
  exact mem_getJobsToCancelForNode hk hrec' ht

/-! ### A cancellation and a heartbeat -/

/-- A check of what happens after a run to `c₁`: `job-00000000` is active on its
node, thread 4 cancels it at time 104, the choices `as` are made under the guard
`g`, and the heartbeat in thread 6 is processed at time 106 and answered with
`resp`. -/
def cancelThenBeat (g : MasterConfig Tables Unit → MasterEvent → Bool)
    (as : List (Choice Env Task)) (resp : HeartbeatResponse) (c₁ : MasterConfig Tables Unit) :
    Bool :=
  (c₁.state.jobMgr.jobs.lookup "job-00000000").any (holdsOn "node-00000000") &&
  ((master barePlatform).move c₁ (.move 4 { now := 104 })).any fun r =>
    cancelsAt "job-00000000" 104 r.1 && ((master barePlatform).play g r.2 as).any fun c₃ =>
      ((master barePlatform).move c₃ (.move 6 { now := 106 })).any fun r =>
        beatsAt 6 "node-00000000" 106 r.1 && r.2.result 6 = some (.heartbeat resp)

theorem run_of_cancelThenBeat {g : MasterConfig Tables Unit → MasterEvent → Bool}
    {as : List (Choice Env Task)} {resp : HeartbeatResponse} {c₁ : MasterConfig Tables Unit}
    (h : cancelThenBeat g as resp c₁ = true) :
    ∃ info ev c₂ es c₃ ev' c₄, c₁.state.jobMgr.jobs.lookup "job-00000000" = some info ∧
      holdsOn "node-00000000" info = true ∧ (master barePlatform).Step c₁ ev c₂ ∧
      cancelsAt "job-00000000" 104 ev = true ∧
      (master barePlatform).Run (fun c ev => g c ev = true) c₂ es c₃ ∧
      (master barePlatform).Step c₃ ev' c₄ ∧ beatsAt 6 "node-00000000" 106 ev' = true ∧
      c₄.result 6 = some (.heartbeat resp) := by
  obtain ⟨hany, h⟩ := (Bool.and_eq_true _ _).mp h
  obtain ⟨ev, c₂, hstep, h⟩ := System.exists_step _ h
  obtain ⟨hcancel, h⟩ := (Bool.and_eq_true _ _).mp h
  obtain ⟨es, c₃, hrun, h⟩ := System.exists_run as h
  obtain ⟨ev', c₄, hstep', h⟩ := System.exists_step _ h
  obtain ⟨hbeat, hret⟩ := (Bool.and_eq_true _ _).mp h
  cases hj : c₁.state.jobMgr.jobs.lookup "job-00000000" with
  | none => simp [hj] at hany
  | some info =>
    exact ⟨info, ev, c₂, es, c₃, ev', c₄, rfl, by simpa [hj] using hany, hstep, hcancel, hrun,
      hstep', hbeat, of_decide_eq_true hret⟩

/-- The job of `assignSchedule`, with its cancellation on the way. -/
def cancelOnTheWay : List (Choice Env Task) :=
  assignSchedule ++ [.start (.rpc [] (.cancelJob "job-00000000"))]

/-- The node sends a heartbeat, which is registered. -/
def heartbeatOnTheWay : List (Choice Env Task) :=
  performs 6 (.rpc [] (.sendHeartbeat { nodeId := "node-00000000" })) { now := 106 } 1

/-- The law at work: after the cancellation a client asks for the job, and the
next heartbeat lists it. -/
theorem cancellation_delivered_next :
    ∃ es₁ c₁ info ev c₂ es₂ c₃ ev' c₄ resp,
      (master barePlatform).Run (fun _ _ => true = true) (masterStart none {} ()) es₁ c₁ ∧
      c₁.state.jobMgr.jobs.lookup "job-00000000" = some info ∧
      holdsOn "node-00000000" info = true ∧ (master barePlatform).Step c₁ ev c₂ ∧
      cancelsAt "job-00000000" 104 ev = true ∧
      (master barePlatform).Run
        (fun _ ev => drawsJob "job-00000000" ev = false ∧ revives "job-00000000" ev = false)
        c₂ es₂ c₃ ∧
      (∀ ev ∈ es₂, endsJob "job-00000000" ev = false) ∧
      (master barePlatform).Step c₃ ev' c₄ ∧ beatsAt 6 "node-00000000" 106 ev' = true ∧
      c₄.result 6 = some (.heartbeat resp) ∧ "job-00000000" ∈ resp.jobsToCancel := by
  obtain ⟨es₁, c₁, h₁, h⟩ := System.exists_run (S := master barePlatform)
    (g := fun _ _ => true) (c := masterStart none {} ())
    (p := cancelThenBeat (fun _ ev => !drawsJob "job-00000000" ev &&
        !revives "job-00000000" ev && !endsJob "job-00000000" ev)
      (performs 5 (.rpc [] (.getJobStatus "job-00000000")) { now := 105 } 1 ++ heartbeatOnTheWay)
      { acknowledged := true, jobsToCancel := ["job-00000000"] })
    cancelOnTheWay (by decide)
  obtain ⟨info, ev, c₂, es₂, c₃, ev', c₄, hj, hact, hc, hcancel, h₂, hh, hbeat, hret⟩ :=
    run_of_cancelThenBeat h
  have hguard := h₂.mono fun c ev hg =>
    (show (drawsJob "job-00000000" ev = false ∧ revives "job-00000000" ev = false) ∧
      endsJob "job-00000000" ev = false by simpa using hg)
  have hend := hguard.forall_mem fun _ _ hg => hg.2
  have hrun := hguard.mono fun _ _ hg => hg.1
  exact ⟨es₁, c₁, info, ev, c₂, es₂, c₃, ev', c₄, _, h₁, hj, hact, hc, hcancel, hrun, hend, hh,
    hbeat, hret,
    cancellation_delivered h₁ hj hact hc hcancel hrun hend hh hbeat hret rfl (by decide)⟩

/-- **A cancellation is lost**: in a run of the server, `job-00000000` is
cancelled at time 104, the report that it has started arrives after that, and
the heartbeat that its node sends at time 106 is acknowledged and lists
nothing. -/
theorem cancellation_lost :
    ∃ es₁ c₁ info ev c₂ es₂ c₃ ev' c₄,
      (master barePlatform).Run (fun c ev => (wired c ev && freshJobId c ev) = true)
        (masterStart none {} ()) es₁ c₁ ∧
      c₁.state.jobMgr.jobs.lookup "job-00000000" = some info ∧
      holdsOn "node-00000000" info = true ∧ (master barePlatform).Step c₁ ev c₂ ∧
      cancelsAt "job-00000000" 104 ev = true ∧
      (master barePlatform).Run (fun c ev => (wired c ev && freshJobId c ev &&
        !endsJob "job-00000000" ev) = true) c₂ es₂ c₃ ∧
      (master barePlatform).Step c₃ ev' c₄ ∧ beatsAt 6 "node-00000000" 106 ev' = true ∧
      c₄.result 6 = some (.heartbeat { acknowledged := true, jobsToCancel := [] }) := by
  obtain ⟨es₁, c₁, h₁, h⟩ := System.exists_run (S := master barePlatform)
    (g := fun c ev => wired c ev && freshJobId c ev) (c := masterStart none {} ())
    (p := cancelThenBeat (fun c ev => wired c ev && freshJobId c ev && !endsJob "job-00000000" ev)
      (performs 5 (.rpc [] (.reportJobStarted
        { nodeId := "node-00000000", jobId := "job-00000000" })) { now := 105 } 1 ++
        heartbeatOnTheWay)
      { acknowledged := true, jobsToCancel := [] })
    cancelOnTheWay (by decide)
  obtain ⟨info, ev, c₂, es₂, c₃, ev', c₄, hj, hact, hc, hcancel, h₂, hh, hbeat, hret⟩ :=
    run_of_cancelThenBeat h
  exact ⟨es₁, c₁, info, ev, c₂, es₂, c₃, ev', c₄, h₁, hj, hact, hc, hcancel, h₂, hh, hbeat, hret⟩

end CertOS
