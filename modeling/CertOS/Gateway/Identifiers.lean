import CertOS.Gateway.Web
import CertOS.Interleave.Fresh
import Mathlib.Data.Fintype.BigOperators
import Mathlib.Tactic.NormNum

/-!
# The identifiers of jobs

Most laws of this development are about runs with fresh job identifiers. That is a condition
on the table of jobs, and the table is the master's; but a job never leaves it, and no other
operation draws a name. So freshness is a condition on the random generator alone, on the
eight digits it yields for each submission (`CertOS.fresh_iff_draws`): whatever else the
system does in between, a run has fresh identifiers exactly as long as no two submissions
have drawn the same digits. It also has an end: after `2 ^ 32` of them there is no fresh
identifier left.
-/

namespace CertOS

open Interleave

variable {Db Fs : Type} {P : Platform Db Fs}

/-! ### The generator -/

/-- The digits that a short identifier keeps. -/
def UuidDraw.digits (d : UuidDraw) (i : Fin 8) : Fin 16 := d.dist i

/-- The identifier of a job, by its digits. -/
def jobIdOf (ds : Fin 8 → Fin 16) : String := "job-" ++ String.ofList (List.ofFn (hexDigit ∘ ds))

theorem hexDigit_injective : Function.Injective hexDigit := by
  intro i j h
  revert i j
  decide

theorem shortId_eq (d : UuidDraw) : shortId "job-" d = jobIdOf d.digits := rfl

theorem jobIdOf_injective : Function.Injective jobIdOf := by
  intro ds ds' h
  rw [jobIdOf, jobIdOf] at h
  have hchars := String.ofList_injective ((String.append_right_inj _).mp h)
  exact hexDigit_injective.comp_left (List.ofFn_injective hchars)

/-! ### The table of jobs -/

/-- The digits an operation of the master draws for a job. -/
def MasterOp.draws (e : Env) : MasterOp → Option (Fin 8 → Fin 16)
  | .job (.submitJob _ _ _) => some e.uuid.digits
  | _ => none

/-- The digits of the jobs in the table. -/
def MasterState.usedDigits (s : MasterState Db Fs) : Set (Fin 8 → Fin 16) :=
  {ds | (s.jobMgr.jobs.lookup (jobIdOf ds)).isSome}

/-- A job is there once it is submitted, and for ever. -/
theorem mem_usedDigits_exec (s : MasterState Db Fs) (e : Env) (op : MasterOp)
    (ds : Fin 8 → Fin 16) :
    ds ∈ (s.exec P e op).2.usedDigits ↔ ds ∈ s.usedDigits ∨ op.draws e = some ds := by
  cases op with
  | job o =>
    cases hs : o.isSubmit with
    | false =>
      have hnone : MasterOp.draws e (.job o) = none := by
        cases o with
        | submitJob => cases hs
        | _ => rfl
      simp [MasterState.usedDigits, JobManager.lookup_exec _ _ _ hs, hnone]
    | true =>
      cases o with
      | submitJob spec userId username =>
        have hmem : ds ∈ (s.exec P e (.job (.submitJob spec userId username))).2.usedDigits ↔
            jobIdOf ds = jobIdOf e.uuid.digits ∨ ds ∈ s.usedDigits := by
          simp only [MasterState.usedDigits, Set.mem_ofPred_eq, MasterState.exec_job,
            JobManager.exec_submitJob_jobs, Table.lookup_insert, shortId_eq]
          split_ifs with h
          · simp [h]
          · simp [h]
        rw [hmem, jobIdOf_injective.eq_iff, or_comm, MasterOp.draws, Option.some.injEq, eq_comm]
      | _ => cases hs
  | _ => simp [MasterState.usedDigits, MasterOp.draws, MasterState.exec]

/-! ### The whole system -/

/-- The digits an event draws for a job. -/
def drawnDigits : WebEvent → Option (Fin 8 → Fin 16)
  | .did _ _ e (.cluster (.master op)) _ => op.draws e.cluster.master
  | _ => none

variable {L : BridgeJson} {nodeId workDir webRoot : String}

theorem web_naming : (web L P nodeId workDir webRoot).Naming
    (fun s => s.master.usedDigits) drawnDigits fun c ev => freshWebJobId c ev = true where
  used_step hs ds := by
    cases hs with
    | start t => simp [drawnDigits]
    | did i t e op k hi =>
      cases op with
      | cluster op =>
        cases op with
        | master op => exact mem_usedDigits_exec _ e.cluster.master op ds
        | _ => simp [drawnDigits, System.after, web, Web.exec, ClusterState.exec]
      | _ => simp [drawnDigits, System.after, web, Web.exec]
  fresh_step {c _ _} hs := by
    cases hs with
    | start t => simp [drawnDigits, freshWebJobId]
    | did i t e op k hi =>
      cases op with
      | cluster op =>
        cases op with
        | master op =>
          cases op with
          | job o =>
            cases o with
            | submitJob spec userId username =>
              change (c.state.master.jobMgr.jobs.lookup
                (jobIdOf e.cluster.master.uuid.digits)).isNone = true ↔ _
              simp [drawnDigits, MasterOp.draws, MasterState.usedDigits]
            | _ => simp [drawnDigits, freshWebJobId, MasterOp.draws]
          | _ => simp [drawnDigits, freshWebJobId, MasterOp.draws]
        | _ => simp [drawnDigits, freshWebJobId]
      | _ => simp [drawnDigits, freshWebJobId]

/-- **Identifiers are fresh as long as the digits differ**: a run of gateway, master and agent
has fresh job identifiers if and only if no two submissions in it have drawn the same digits,
and then there are no more than `2 ^ 32` of them. -/
theorem fresh_iff_draws {ok : WebConfig Db Fs → WebEvent → Prop} {db : Option Db} {adminDb : Db}
    {fairShare : Fs} {es : List WebEvent} {c : WebConfig Db Fs}
    (h : (web L P nodeId workDir webRoot).Run ok (webStart db adminDb fairShare) es c) :
    ((web L P nodeId workDir webRoot).Run (fun c ev => ok c ev ∧ freshWebJobId c ev = true)
        (webStart db adminDb fairShare) es c ↔ (es.filterMap drawnDigits).Nodup) ∧
      ((es.filterMap drawnDigits).Nodup → (es.filterMap drawnDigits).length ≤ 2 ^ 32) := by
  have hempty : (webStart db adminDb fairShare).state.master.usedDigits = ∅ :=
    Set.eq_empty_iff_forall_notMem.mpr fun ds hds => by cases hds
  refine ⟨web_naming.fresh_iff_nodup hempty h, fun hnodup => ?_⟩
  have hcard : Fintype.card (Fin 8 → Fin 16) = 2 ^ 32 := by
    rw [Fintype.card_fun, Fintype.card_fin, Fintype.card_fin]
    norm_num
  exact hnodup.length_le_card.trans_eq hcard

/-- Two jobs are submitted, with these two draws. -/
def twoDraws (d d' : UuidDraw) : List (Choice WebEnv WebTask) :=
  [.start (.inside (.master (.rpc [] (.submitJob {})))),
    .move 0 { cluster := { master := { uuid := d } } },
    .start (.inside (.master (.rpc [] (.submitJob {})))),
    .move 1 { cluster := { master := { uuid := d' } } }]

/-- The law at work: two submissions with different digits are fresh, and two with the same
digits are not. -/
theorem fresh_iff_draws_two :
    (∃ es c, (web visitorsJson barePlatform "node-00000000" "/work" "web").Run
        (fun c ev => webWired c ev = true ∧ freshWebJobId c ev = true) (webStart none {} ()) es c ∧
      es.filterMap drawnDigits = [UuidDraw.digits default, secondDraw.digits]) ∧
    ∃ es c, (web visitorsJson barePlatform "node-00000000" "/work" "web").Run
        (fun c ev => webWired c ev = true) (webStart none {} ()) es c ∧
      es.filterMap drawnDigits = [UuidDraw.digits default, UuidDraw.digits default] ∧
      ¬ (web visitorsJson barePlatform "node-00000000" "/work" "web").Run
        (fun c ev => webWired c ev = true ∧ freshWebJobId c ev = true)
        (webStart none {} ()) es c := by
  refine ⟨?_, ?_⟩
  · obtain ⟨es, c, hrun, hp⟩ := System.exists_trace
      (S := web visitorsJson barePlatform "node-00000000" "/work" "web")
      (g := webWired) (c := webStart none {} ())
      (p := fun es _ => es.filterMap drawnDigits = [UuidDraw.digits default, secondDraw.digits])
      (twoDraws default secondDraw) (by decide +kernel)
    have hdrawn := of_decide_eq_true hp
    refine ⟨es, c, (fresh_iff_draws hrun).1.mpr ?_, hdrawn⟩
    rw [hdrawn]
    decide
  · obtain ⟨es, c, hrun, hp⟩ := System.exists_trace
      (S := web visitorsJson barePlatform "node-00000000" "/work" "web")
      (g := webWired) (c := webStart none {} ())
      (p := fun es _ => es.filterMap drawnDigits =
        [UuidDraw.digits default, UuidDraw.digits default])
      (twoDraws default default) (by decide +kernel)
    have hdrawn := of_decide_eq_true hp
    refine ⟨es, c, hrun, hdrawn, fun hfresh => ?_⟩
    have hnodup := (fresh_iff_draws hrun).1.mp hfresh
    rw [hdrawn] at hnodup
    exact absurd hnodup (by decide)

end CertOS
