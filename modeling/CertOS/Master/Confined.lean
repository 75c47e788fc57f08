import CertOS.Master.Server
import CertOS.Master.SqlStore

/-!
# Runs whose texts stay in their literals

`set_kv` pastes the name and the password of an account into an SQL text, and a text that
leaves its literal is carried out as whatever statement it has become, on any table of the
database. So a law about the table of requests, or about the accounts, holds of the runs in
which no text does (`CertOS.contained`).

Such a run is one of another system, whose store drops the writes that leave their literals
(`CertOS.confined_run`). In that system a law can be proved as if there were no SQL.
-/

namespace CertOS

open Interleave

/-- The operation pastes no text that leaves its literal. -/
def MasterOp.contained : MasterOp → Bool
  | .store op => op.contained
  | _ => true

/-- **No text leaves its literal** in this step. -/
def contained : MasterEvent → Bool
  | .did _ _ _ op _ => op.contained
  | .start _ => true

/-- The platform without the writes that leave their literals. -/
def Platform.confined {Fs : Type} (P : Platform Tables Fs) (E : SqlEngine) : Platform Tables Fs :=
  { P with store := confinedStore E }

/-- The platform on SQLite. -/
def Platform.onSql {Fs : Type} (P : Platform Tables Fs) (E : SqlEngine) : Platform Tables Fs :=
  { P with store := sqlStore E }

/-- A platform on SQLite, with an engine that refuses what it is asked. -/
def sqlPlatform : Platform Tables Unit := barePlatform.onSql .refusing

variable {Fs : Type} {P : Platform Tables Fs} {E : SqlEngine}

/-- The two platforms agree on the other operations. -/
theorem MasterState.exec_confined (hP : P.store = sqlStore E) {e : Env} {op : MasterOp}
    (h : op.contained = true) (s : MasterState Tables Fs) :
    s.exec (P.confined E) e op = s.exec P e op := by
  cases op with
  | store op =>
    simp only [MasterState.exec_store, hP, Platform.confined, confinedStore_exec E _ h]
  | job op =>
    cases op with
    | submitJob spec userId username =>
      simp only [MasterState.exec_job, JobManager.exec, JobManager.submitJob, hP,
        Platform.confined, confinedStore_exec E _ (contained_setKv_job e.uuid)]
    | _ => rfl
  | _ => rfl

/-- **A query that stays in its literal** looks up its key, if it is carried out. -/
theorem exec_getKv_of_paired (hP : P.store = sqlStore E) {e : Env} {k : String} (hk : NulFree k)
    (hkp : Paired k) (s : MasterState Tables Fs) :
    s.exec P e (.store (.getKv k)) =
      (if e.sqliteOk = true then (s.adminDb.kvStore.lookup (collapse k)).map cStr else none,
        s) := by
  simp only [MasterState.exec_store, hP, sqlStore]
  cases e.sqliteOk with
  | false => rw [StateStore.getKv_refused, if_neg Bool.false_ne_true]
  | true => rw [StateStore.getKv_of_paired hk hkp, if_pos rfl]

/-- **A write that stays in its literals** makes one entry, if it is carried out. -/
theorem exec_setKv_of_contained (hP : P.store = sqlStore E) {e : Env} {k v : String}
    (h : (StoreOp.setKv k v).contained = true) (s : MasterState Tables Fs) :
    (s.exec P e (.store (.setKv k v))).2 = { s with adminDb := { s.adminDb with
      kvStore := if e.sqliteOk = true then s.adminDb.kvStore.insert (collapse k) (collapse v)
        else s.adminDb.kvStore } } := by
  obtain ⟨hk, hv, hkp, hvp⟩ := of_decide_eq_true h
  simp only [MasterState.exec_store, hP, sqlStore]
  cases e.sqliteOk with
  | false => rw [StateStore.setKv_refused, if_neg Bool.false_ne_true]
  | true => rw [StateStore.setKv_of_paired hk hv hkp hvp, if_pos rfl]

/-- **A run whose texts stay in their literals** is a run on the platform that drops the other
writes. -/
theorem confined_run (hP : P.store = sqlStore E)
    {ok : MasterConfig Tables Fs → MasterEvent → Prop} {c c' : MasterConfig Tables Fs}
    {es : List MasterEvent} (hok : ∀ c ev, ok c ev → contained ev = true)
    (h : (master P).Run ok c es c') : (master (P.confined E)).Run ok c es c' := by
  have hbody : (master (P.confined E)).body = (master P).body := rfl
  have hforks : (master (P.confined E)).forks = (master P).forks := rfl
  refine h.of_exec_eq hbody hforks fun c i t e op r hg => ?_
  exact MasterState.exec_confined hP (hok c (.did i t e op r) hg) c.state

/-! ### Plain texts -/

/-- The operation pastes texts without a quote, and what it reads comes back whole. -/
def MasterOp.plainIn (s : MasterState Tables Fs) : MasterOp → Bool
  | .store (.setKv k v) => decide (NulFree k ∧ QuoteFree k ∧ NulFree v ∧ QuoteFree v)
  | .store (.getKv k) =>
    decide (NulFree k ∧ QuoteFree k) && (s.adminDb.kvStore.lookup k).all fun v => decide (NulFree v)
  | _ => true

/-- **The texts of the step are plain.** -/
def plainStep (c : MasterConfig Tables Fs) : MasterEvent → Bool
  | .did _ _ _ op _ => op.plainIn c.state
  | .start _ => true

/-- **On plain texts the store is an ideal map.** -/
theorem MasterState.exec_onSql (hP : P.store = idealStore) {e : Env} {op : MasterOp}
    {s : MasterState Tables Fs} (h : op.plainIn s = true) :
    s.exec (P.onSql E) e op = s.exec P e op := by
  cases op with
  | store op =>
    cases op with
    | setKv k v =>
      obtain ⟨hk, hkq, hv, hvq⟩ := of_decide_eq_true h
      simp only [MasterState.exec_store, hP, Platform.onSql, sqlStore, idealStore]
      cases e.sqliteOk with
      | false => rw [StateStore.setKv_refused, if_neg Bool.false_ne_true]
      | true => rw [StateStore.setKv_of_quoteFree hk hv hkq hvq, if_pos rfl]
    | getKv k =>
      obtain ⟨hk, hvalue⟩ := (Bool.and_eq_true _ _).mp h
      obtain ⟨hk, hkq⟩ := of_decide_eq_true hk
      have hwhole : (s.adminDb.kvStore.lookup k).map cStr = s.adminDb.kvStore.lookup k := by
        cases hv : s.adminDb.kvStore.lookup k with
        | none => rfl
        | some v =>
          rw [hv, Option.all_some] at hvalue
          rw [Option.map_some, cStr_of_nul_not_mem (of_decide_eq_true hvalue)]
      rw [exec_getKv_of_paired rfl hk hkq.paired, (collapse_eq_self hkq.paired).mpr hkq, hwhole]
      simp only [MasterState.exec_store, hP, idealStore]
    | _ => simp only [MasterState.exec_store, hP, Platform.onSql, sqlStore, idealStore]
  | job op =>
    cases op with
    | submitJob spec userId username =>
      simp only [MasterState.exec_job, JobManager.exec, JobManager.submitJob, hP, Platform.onSql,
        sqlStore, idealStore, setKv_job]
      cases e.sqliteOk <;> rfl
    | _ => rfl
  | _ => rfl

/-- **A run on the ideal map whose texts are plain** is a run on SQLite. -/
theorem onSql_run (hP : P.store = idealStore) (E : SqlEngine)
    {ok : MasterConfig Tables Fs → MasterEvent → Prop} {c c' : MasterConfig Tables Fs}
    {es : List MasterEvent} (hok : ∀ c ev, ok c ev → plainStep c ev = true)
    (h : (master P).Run ok c es c') : (master (P.onSql E)).Run ok c es c' := by
  have hbody : (master (P.onSql E)).body = (master P).body := rfl
  have hforks : (master (P.onSql E)).forks = (master P).forks := rfl
  refine h.of_exec_eq hbody hforks fun c i t e op r hg => ?_
  exact MasterState.exec_onSql hP (hok c (.did i t e op r) hg)

end CertOS
