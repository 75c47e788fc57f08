import Mathlib.Data.List.Basic
import Mathlib.Data.List.TakeWhile

/-!
# Filling a record under one handler

A record is filled by assignments that come one after the other, and each of them may throw an
exception. There is one handler around all of them, and what is returned behind it is the record
as it stands (`Assignment.runAll`).

So the record is a mixture: the fields in front of the first exception have been assigned, and
the others are as they were. This is what `Assignment.get_runAll` says, where no two of the
assignments are about the same field (`Assignment.Apart`).
-/

/-- An assignment to a field of a record of type `C`: how the field is read and written, and what
is assigned to it, which may depend on what it holds. -/
structure Assignment (ε C : Type) where
  Value : Type
  get : C → Value
  set : Value → C → C
  /-- What is written is read back. -/
  get_set : ∀ v c, get (set v c) = v
  /-- The value to assign, from what the field holds, or the exception. -/
  value : Value → Except ε Value

namespace Assignment

variable {ε C : Type}

/-- What comes of the right-hand side for a record. -/
def outcome (a : Assignment ε C) (c : C) : Except ε a.Value := a.value (a.get c)

/-- The right-hand side does not throw. -/
def succeeds (c : C) (a : Assignment ε C) : Bool := (a.outcome c).isOk

/-- The assignments, one after the other up to an exception. -/
def runAll : List (Assignment ε C) → C → C
  | [], c => c
  | a :: as, c =>
    match a.outcome c with
    | .error _ => c
    | .ok v => runAll as (a.set v c)

/-- **Two assignments are about different fields.** -/
structure Apart (a b : Assignment ε C) : Prop where
  left : ∀ v c, a.get (b.set v c) = a.get c
  right : ∀ v c, b.get (a.set v c) = b.get c

variable {a b : Assignment ε C} {as : List (Assignment ε C)} {c : C}

theorem runAll_cons_error {e : ε} (h : a.outcome c = .error e) : runAll (a :: as) c = c := by
  rw [runAll, h]

theorem runAll_cons_ok {v : a.Value} (h : a.outcome c = .ok v) :
    runAll (a :: as) c = runAll as (a.set v c) := by
  rw [runAll, h]

theorem succeeds_eq_false {e : ε} (h : a.outcome c = .error e) : succeeds c a = false := by
  rw [succeeds, h]
  rfl

theorem succeeds_eq_true {v : a.Value} (h : a.outcome c = .ok v) : succeeds c a = true := by
  rw [succeeds, h]
  rfl

/-- An assignment to another field leaves an outcome as it is. -/
theorem outcome_set (h : a.Apart b) (v : a.Value) (c : C) :
    b.outcome (a.set v c) = b.outcome c := by
  rw [outcome, outcome, h.right]

/-- **A field keeps its value** under assignments to other fields. -/
theorem get_runAll_of_apart (h : ∀ b ∈ as, a.Apart b) (c : C) :
    a.get (runAll as c) = a.get c := by
  induction as generalizing c with
  | nil => rfl
  | cons b as ih =>
    cases hout : b.outcome c with
    | error e => rw [runAll_cons_error hout]
    | ok v =>
      rw [runAll_cons_ok hout, ih fun b hb => h b (List.mem_cons_of_mem _ hb)]
      exact (h b List.mem_cons_self).left v c

theorem takeWhile_congr {α : Type*} {p q : α → Bool} {l : List α} (h : ∀ x ∈ l, p x = q x) :
    l.takeWhile p = l.takeWhile q ∧ l.dropWhile p = l.dropWhile q := by
  induction l with
  | nil => exact ⟨rfl, rfl⟩
  | cons x l ih =>
    obtain ⟨htake, hdrop⟩ := ih fun y hy => h y (List.mem_cons_of_mem _ hy)
    rw [List.takeWhile_cons, List.takeWhile_cons, List.dropWhile_cons, List.dropWhile_cons,
      h x List.mem_cons_self, htake, hdrop]
    exact ⟨rfl, rfl⟩

/-- **The record is a mixture**: the fields in front of the first exception hold what comes of
their right-hand sides for the record at the start, and the others what they held there. -/
theorem get_runAll (h : as.Pairwise Apart) (c : C) :
    (∀ a ∈ as.takeWhile (succeeds c), a.outcome c = .ok (a.get (runAll as c))) ∧
      ∀ a ∈ as.dropWhile (succeeds c), a.get (runAll as c) = a.get c := by
  induction as generalizing c with
  | nil => exact ⟨fun a ha => absurd ha List.not_mem_nil, fun a ha => absurd ha List.not_mem_nil⟩
  | cons a as ih =>
    obtain ⟨hhead, htail⟩ := List.pairwise_cons.mp h
    cases hout : a.outcome c with
    | error e =>
      have hneg := succeeds_eq_false hout
      rw [List.takeWhile_cons_of_neg (by rw [hneg]; exact Bool.false_ne_true),
        runAll_cons_error hout]
      exact ⟨fun a ha => absurd ha List.not_mem_nil, fun a _ => rfl⟩
    | ok v =>
      have hpos := succeeds_eq_true hout
      -- the assignment changes no outcome behind it
      have hsame : ∀ b ∈ as, b.outcome (a.set v c) = b.outcome c :=
        fun b hb => outcome_set (hhead b hb) v c
      have hsucceeds : ∀ b ∈ as, succeeds (a.set v c) b = succeeds c b := by
        intro b hb
        rw [succeeds, succeeds, hsame b hb]
      obtain ⟨htake, hdrop⟩ := takeWhile_congr hsucceeds
      obtain ⟨hdone, hleft⟩ := ih htail (a.set v c)
      rw [htake] at hdone
      rw [hdrop] at hleft
      rw [List.takeWhile_cons_of_pos hpos, List.dropWhile_cons_of_pos hpos, runAll_cons_ok hout]
      constructor
      · intro b hb
        rcases List.mem_cons.mp hb with rfl | hb
        · rw [hout, get_runAll_of_apart hhead, b.get_set]
        · rw [← hsame b ((List.takeWhile_prefix _).subset hb)]
          exact hdone b hb
      · intro b hb
        rw [hleft b hb]
        exact (hhead b ((List.dropWhile_suffix _).subset hb)).right v c

end Assignment
