import CertOS.Interleave.Inline
import CertOS.Master.Server

/-!
# The master inside a larger system

A system that contains the master (`Interleave.Contains`) calls it from its own threads and
has tasks that are tasks of the master. That the server in it is wired as
`MasterServer::start` wires it is then a condition on the larger system: its threads make
calls and nothing else, and it starts a pass of the scheduler when none of its threads is
one under way (`CertOS.wired_of_covered`).
-/

namespace CertOS

open Interleave

variable {Db Fs : Type} {P : Platform Db Fs} {Op' : Type} {Res' : Op' → Type}
  {Env' St' τ' α' : Type} {T : System Res' Env' St' τ' α'} {C : Contains (master P) T}
  {c : Config Res' St' τ' α'}
  {d : MasterConfig Db Fs}

/-- **The wiring of the server in a larger system**: a task that is started there is a call, or
a pass while no thread of the system is a pass under way. -/
theorem wired_of_covered (hcov : C.Covered c d)
    (hcalls : ∀ t' t, C.calls t' t → ∃ metadata call, t = .rpc metadata call) {t : Task}
    (ht : (∃ metadata call, t = .rpc metadata call) ∨ ∃ sort, t = .schedulePass sort ∧
      ∀ t' op p sort', (⟨t', .call op p⟩ : Thread Res' τ' α') ∈ c.threads →
        C.opens t' ≠ some (.schedulePass sort')) :
    wired d (.start t) = true := by
  rcases ht with ⟨metadata, call, rfl⟩ | ⟨sort, rfl, hidle⟩
  · rfl
  · refine List.all_eq_true.mpr fun th hth => ?_
    cases hpass : isPass th with
    | false => rfl
    | true =>
      -- the pass belongs to a thread of the system, which would be a pass under way
      obtain ⟨u, p⟩ := th
      cases u with
      | schedulePass sort' =>
        cases p with
        | ret a => cases hpass
        | call op q =>
          obtain ⟨u', p', hmem, hserves⟩ := hcov _ op q hth
          rcases hserves with hopens | hcall
          · exact absurd hopens (hidle u' _ p' sort' hmem)
          · obtain ⟨metadata, call, hrpc⟩ := hcalls _ _ hcall
            cases hrpc
      | _ => cases p <;> cases hpass

end CertOS
