import CertOS.Common
import Mathlib.Data.List.Sort

/-!
# The state store

`StateStore` is the master's SQLite database: a key-value table and the table
of job requests. The master uses it through five calls (`CertOS.StoreOp`), each
of which holds the store's mutex, so each is one atomic step. What the calls do
is a parameter of the rest of the development, `CertOS.StoreBackend`; this file
gives the backend in which the key-value table is an ideal map,
`CertOS.idealStore`. The backend that builds the SQL text of the key-value
calls as the source does is in `CertOS.Master.SqlStore`.

The calls on the request table bind their arguments to a prepared statement,
so no text is parsed; all that happens to a string on the way is that
`c_str()` ends it at its first NUL (`CertOS.cStr`).
-/

namespace CertOS

/-- A literal is free of NUL when the list of its characters is. -/
theorem nul_not_mem_ofList {l : List Char} (h : '\x00' ∉ l) :
    '\x00' ∉ (String.ofList l).toList := by
  rwa [String.toList_ofList]

/-- A string without a NUL. -/
def NulFree (s : String) : Prop := '\x00' ∉ s.toList

instance (s : String) : Decidable (NulFree s) := inferInstanceAs (Decidable (_ ∉ _))

theorem NulFree.append {s t : String} (hs : NulFree s) (ht : NulFree t) : NulFree (s ++ t) := by
  rw [NulFree, String.toList_append, List.mem_append, not_or]
  exact ⟨hs, ht⟩

/-- The digits of a number have no NUL. -/
theorem nulFree_toString_nat (n : ℕ) : NulFree (toString n) := by
  intro h
  have hmem : '\x00' ∈ Nat.toDigits 10 n := by simpa [Nat.toString_eq_repr, Nat.repr] using h
  exact absurd (Nat.isDigit_of_mem_toDigits (by decide) (by decide) hmem) (by decide)

theorem nulFree_toString_int (n : ℤ) : NulFree (toString n) := by
  cases n with
  | ofNat n => exact nulFree_toString_nat n
  | negSucc n =>
    have hsign : NulFree "-" := nul_not_mem_ofList (by decide)
    exact hsign.append (nulFree_toString_nat (n + 1))

/-! ### The tables -/

/-- A row of `job_requests`, less its primary key. -/
structure RequestRow where
  applicantEmail : String
  status : ℤ
  /-- The request as JSON. -/
  data : String
  deriving DecidableEq

/-- The contents of the database. -/
structure Tables where
  /-- `kv_store`. -/
  kvStore : Table String String := ∅
  /-- `job_requests`, by primary key. -/
  jobRequests : Table String RequestRow := ∅

/-- The tables have the same rows, in whatever order. -/
structure Tables.Same (t t' : Tables) : Prop where
  kvStore : ∀ k, t'.kvStore.lookup k = t.kvStore.lookup k
  jobRequests : ∀ k, t'.jobRequests.lookup k = t.jobRequests.lookup k

theorem Tables.Same.refl (t : Tables) : t.Same t := ⟨fun _ => rfl, fun _ => rfl⟩

namespace StateStore

/-- `add_job_request`: an insertion, which the primary key may refuse. -/
def addJobRequest (ok : Bool) (reqId email : String) (status : ℤ) (data : String) (t : Tables) :
    Bool × Tables :=
  if ok = true ∧ t.jobRequests.lookup (cStr reqId) = none then
    (true,
      { t with jobRequests := t.jobRequests.insert (cStr reqId) ⟨cStr email, status, cStr data⟩ })
  else (false, t)

/-- `update_request_status`: an update of the row with this key, if there is
one. SQLite reports success also when no row matched. -/
def updateRequestStatus (ok : Bool) (reqId : String) (status : ℤ) (data : String) (t : Tables) :
    Bool × Tables :=
  if ok = true then
    (true, { t with
      jobRequests := t.jobRequests.modify (cStr reqId) fun row =>
        { row with status := status, data := cStr data } })
  else (false, t)

/-- `list_requests`: keys and JSON, in descending order of the keys. -/
def listRequests (ok : Bool) (t : Tables) : List (String × String) :=
  if ok = true then
    (t.jobRequests.pairs.map fun p => (p.1, p.2.data)).insertionSort fun a b => b.1 ≤ a.1
  else []

/-- The calls on the request table leave the key-value table alone. -/
theorem kvStore_addJobRequest (ok : Bool) (reqId email : String) (status : ℤ) (data : String)
    (t : Tables) : (addJobRequest ok reqId email status data t).2.kvStore = t.kvStore := by
  rw [addJobRequest]
  split <;> rfl

theorem kvStore_updateRequestStatus (ok : Bool) (reqId : String) (status : ℤ) (data : String)
    (t : Tables) : (updateRequestStatus ok reqId status data t).2.kvStore = t.kvStore := by
  rw [updateRequestStatus]
  split <;> rfl

theorem mem_listRequests {t : Tables} {p : String × String} :
    p ∈ listRequests true t ↔ ∃ row, t.jobRequests.lookup p.1 = some row ∧ row.data = p.2 := by
  simp only [listRequests, if_pos, List.mem_insertionSort, List.mem_map, Prod.exists]
  constructor
  · rintro ⟨k, row, h, rfl⟩
    exact ⟨row, Table.mem_pairs.mp h, rfl⟩
  · rintro ⟨row, h, hd⟩
    exact ⟨p.1, row, Table.mem_pairs.mpr h, Prod.ext rfl hd⟩

end StateStore

/-! ### The interface -/

/-- The calls of the store. -/
inductive StoreOp where
  | setKv (key value : String)
  | getKv (key : String)
  | addJobRequest (reqId email : String) (status : ℤ) (data : String)
  | updateRequestStatus (reqId : String) (status : ℤ) (data : String)
  | listRequests
  deriving DecidableEq

/-- What the calls return. -/
@[reducible] def StoreOp.Res : StoreOp → Type
  | .setKv .. | .addJobRequest .. | .updateRequestStatus .. => Bool
  | .getKv _ => Option String
  | .listRequests => List (String × String)

/-- A database that answers the calls. The flag says whether SQLite carries the
statement of this call out. -/
structure StoreBackend (Db : Type) where
  /-- The meaning of a call. -/
  exec : Bool → (op : StoreOp) → Db → op.Res × Db

/-- **The ideal store**: the key-value table is a map from strings to strings,
and the request table is the one above. -/
def idealStore : StoreBackend Tables where
  exec ok op t :=
    match op with
    | .setKv k v =>
        if ok = true then (true, { t with kvStore := t.kvStore.insert k v }) else (false, t)
    | .getKv k => (if ok = true then t.kvStore.lookup k else none, t)
    | .addJobRequest id email st data => StateStore.addJobRequest ok id email st data t
    | .updateRequestStatus id st data => StateStore.updateRequestStatus ok id st data t
    | .listRequests => (StateStore.listRequests ok t, t)

/-- **A store that keeps its request table**: the calls on the table are those above, and the
calls on the key-value table leave it alone. -/
structure StoreBackend.KeepsRequests (B : StoreBackend Tables) : Prop where
  getKv : ∀ ok k t, (B.exec ok (.getKv k) t).2.jobRequests = t.jobRequests
  setKv : ∀ ok k v t, (B.exec ok (.setKv k v) t).2.jobRequests = t.jobRequests
  addJobRequest : ∀ ok id email st data t,
    B.exec ok (.addJobRequest id email st data) t =
      StateStore.addJobRequest ok id email st data t
  updateRequestStatus : ∀ ok id st data t,
    B.exec ok (.updateRequestStatus id st data) t = StateStore.updateRequestStatus ok id st data t
  listRequests : ∀ ok t, B.exec ok .listRequests t = (StateStore.listRequests ok t, t)

theorem idealStore_keepsRequests : idealStore.KeepsRequests where
  getKv _ _ _ := rfl
  setKv ok _ _ _ := by
    simp only [idealStore]
    split <;> rfl
  addJobRequest _ _ _ _ _ _ := rfl
  updateRequestStatus _ _ _ _ _ := rfl
  listRequests _ _ := rfl

/-- **A store that keeps its key-value table**: only `set_kv` writes it. -/
def StoreBackend.KeepsKv (B : StoreBackend Tables) : Prop :=
  ∀ ok op t, (∀ k v, op ≠ .setKv k v) → (B.exec ok op t).2.kvStore = t.kvStore

theorem idealStore_keepsKv : idealStore.KeepsKv := by
  intro ok op t h
  cases op with
  | setKv k v => exact absurd rfl (h k v)
  | getKv k => rfl
  | addJobRequest id email st data => exact StateStore.kvStore_addJobRequest ok id email st data t
  | updateRequestStatus id st data =>
    exact StateStore.kvStore_updateRequestStatus ok id st data t
  | listRequests => rfl

theorem keepsRequests_of_eq {B : StoreBackend Tables} (h : B = idealStore) : B.KeepsRequests :=
  h ▸ idealStore_keepsRequests

theorem keepsKv_of_eq {B : StoreBackend Tables} (h : B = idealStore) : B.KeepsKv :=
  h ▸ idealStore_keepsKv

end CertOS
