import CertOS.Proto
import CertOS.Table
import Mathlib.Data.List.TakeWhile

/-!
# The environment of an atomic step

`lib/common`: the clock and the identifier generator. Both are read inside the
critical sections of the master, so one atomic step of a component gets its own
`CertOS.Env`: what the clock showed, what the random generators drew, whether
SQLite carried the statement out, and in which order the step walked a hash
map. Nothing is assumed about any of them; a law that needs, say, fresh
identifiers states it as a condition on the steps of the run.

What crosses into C, a path, a bound text or an argument of a process, ends at its first
NUL (`CertOS.cStr`).
-/

namespace CertOS

/-! ### Strings as C sees them -/

/-- A string as C sees it: up to its first NUL. -/
def cStr (s : String) : String := String.ofList (s.toList.takeWhile (· ≠ '\x00'))

/-- A string without a NUL passes through C unchanged. -/
theorem cStr_of_nul_not_mem {s : String} (h : '\x00' ∉ s.toList) : cStr s = s := by
  have hw : s.toList.takeWhile (· ≠ '\x00') = s.toList := by
    rw [List.takeWhile_eq_self_iff]
    intro c hc
    have : c ≠ '\x00' := fun he => h (he ▸ hc)
    simpa using this
  rw [cStr, hw, String.ofList_toList]

/-! ### Identifiers -/

/-- The digits `generate_uuid` chooses from. -/
def hexDigit (i : Fin 16) : Char :=
  ['0', '1', '2', '3', '4', '5', '6', '7', '8', '9', 'a', 'b', 'c', 'd', 'e', 'f'].get i

/-- What `generate_uuid` draws from its two distributions. -/
structure UuidDraw where
  /-- The digit drawn for each place. -/
  dist : ℕ → Fin 16
  /-- The variant digit, one of `8`, `9`, `a`, `b`. -/
  dist2 : Fin 4

instance : Inhabited UuidDraw := ⟨⟨fun _ => 0, 0⟩⟩

/-- Another draw of the identifier generator. -/
def secondDraw : UuidDraw := ⟨fun _ => 1, 1⟩

/-- The character `generate_uuid` writes at a place. -/
def uuidChar (d : UuidDraw) (i : ℕ) : Char :=
  if i = 8 ∨ i = 13 ∨ i = 18 ∨ i = 23 then '-'
  else if i = 14 then '4'
  else if i = 19 then hexDigit ⟨8 + d.dist2, by omega⟩
  else hexDigit (d.dist i)

/-- `generate_uuid`: `xxxxxxxx-xxxx-4xxx-yxxx-xxxxxxxxxxxx`. -/
def generateUuid (d : UuidDraw) : List Char := (List.range 36).map (uuidChar d)

/-- A prefix followed by the first eight characters of a UUID: the shape of job
and node identifiers. -/
def shortId (kind : String) (d : UuidDraw) : String :=
  kind ++ String.ofList ((generateUuid d).take 8)

/-! ### The environment -/

/-- What an atomic step sees of its environment. -/
structure Env where
  /-- `now_unix()`. -/
  now : ℤ := 0
  /-- What `generate_uuid` draws. -/
  uuid : UuidDraw := default
  /-- `rand()`. -/
  rand : ℕ := 0
  /-- Whether SQLite prepares and carries out the statement of this step. -/
  sqliteOk : Bool := true
  /-- The order in which the step walks `jobs_`. -/
  jobOrder : Reorder JobInfo := .id
  /-- The order in which the step walks `nodes_`. -/
  nodeOrder : Reorder (String × NodeInfo) := .id

instance : Inhabited Env := ⟨{}⟩

end CertOS
