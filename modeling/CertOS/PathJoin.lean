import CertOS.LexicalPath
import Mathlib.Data.List.TakeWhile

/-!
# Joining paths

A program that serves the files of a directory joins the directory and what it is asked for. A
path that begins with the separator starts at the root, and a join with such a path forgets the
directory (`LexicalPath.join`).

Read on its own, a path first climbs some directories and then goes down some names
(`LexicalPath.climbs`, `LexicalPath.names`), and joined to a directory it does so from there
(`LexicalPath.route_join`). So the join stays inside of the directory
just if the names begin with those of the directories it has climbed
(`LexicalPath.inside_join_iff`).
-/

namespace LexicalPath

/-! ### Climbing and going down -/

/-- One component of a walk that has climbed some directories and then gone down, the
innermost name first. -/
def turn (r : ℕ × List (List Char)) (c : List Char) : ℕ × List (List Char) :=
  if c = [] ∨ c = here then r
  else if c = up then
    match r.2 with
    | [] => (r.1 + 1, [])
    | _ :: rest => (r.1, rest)
  else (r.1, c :: r.2)

/-- How a path goes: the directories it climbs, and the names it ends with, the innermost
first. -/
def route (path : List Char) : ℕ × List (List Char) := (components path).foldl turn (0, [])

/-- **How many directories a path climbs.** -/
def climbs (path : List Char) : ℕ := (route path).1

/-- **The names a path goes down** after it has climbed. -/
def names (path : List Char) : List (List Char) := (route path).2.reverse

section Turn

variable {c : List Char} {k : ℕ} {stack : List (List Char)}

theorem turn_of_skip {r : ℕ × List (List Char)} (h : c = [] ∨ c = here) : turn r c = r := if_pos h

theorem turn_nil_up : turn (k, []) up = (k + 1, []) := rfl

theorem turn_cons_up {top : List Char} : turn (k, top :: stack) up = (k, stack) := rfl

theorem turn_of_name {r : ℕ × List (List Char)} (h : ¬(c = [] ∨ c = here)) (hup : c ≠ up) :
    turn r c = (r.1, c :: r.2) := by
  rw [turn, if_neg h, if_neg hup]

/-- No name is the component that goes up. -/
theorem up_not_mem_turn {r : ℕ × List (List Char)} (h : up ∉ r.2) : up ∉ (turn r c).2 := by
  obtain ⟨k, stack⟩ := r
  by_cases hskip : c = [] ∨ c = here
  · rwa [turn_of_skip hskip]
  · by_cases hup : c = up
    · subst hup
      cases stack with
      | nil => exact h
      | cons top stack => exact List.not_mem_of_not_mem_cons h
    · rw [turn_of_name hskip hup]
      exact List.not_mem_cons_of_ne_of_not_mem (Ne.symm hup) h

/-- A step of the walk, with the directories it has climbed at the bottom of its stack. -/
theorem step_append (h : up ∉ stack) : step (stack ++ List.replicate k up) c =
    (turn (k, stack) c).2 ++ List.replicate (turn (k, stack) c).1 up := by
  by_cases hskip : c = [] ∨ c = here
  · rw [step_of_skip hskip, turn_of_skip hskip]
  · by_cases hup : c = up
    · subst hup
      rw [step_up]
      cases stack with
      | nil =>
        rw [turn_nil_up]
        cases k with
        | zero => rfl
        | succ k => rfl
      | cons top stack =>
        have htop : top ≠ up := fun h' => h (h' ▸ List.mem_cons_self)
        rw [turn_cons_up, List.cons_append, climb, if_neg htop]
    · rw [step_of_name hskip hup, turn_of_name hskip hup, List.cons_append]

end Turn

theorem up_not_mem_names (path : List Char) : up ∉ names path := by
  rw [names, List.mem_reverse, route]
  induction components path using List.reverseRecOn with
  | nil => exact List.not_mem_nil
  | append_singleton cs c ih =>
    rw [List.foldl_append]
    exact up_not_mem_turn ih

/-- A path resolves to the directories it climbs and the names it goes down. -/
theorem resolve_eq (path : List Char) :
    resolve path = List.replicate (climbs path) up ++ names path := by
  have hwalk (cs : List (List Char)) : up ∉ (cs.foldl turn (0, [])).2 ∧ cs.foldl step [] =
      (cs.foldl turn (0, [])).2 ++ List.replicate (cs.foldl turn (0, [])).1 up := by
    induction cs using List.reverseRecOn with
    | nil => exact ⟨List.not_mem_nil, rfl⟩
    | append_singleton cs c ih =>
      obtain ⟨hup, heq⟩ := ih
      rw [List.foldl_append, List.foldl_append, heq]
      exact ⟨up_not_mem_turn hup, step_append hup⟩
  rw [resolve, (hwalk _).2, List.reverse_append, List.reverse_replicate]
  rfl

/-! ### The join -/

/-- The path starts at the root. -/
def IsAbsolute (path : List Char) : Prop := path.head? = some '/'

instance (path : List Char) : Decidable (IsAbsolute path) := inferInstanceAs (Decidable (_ = _))

/-- **The path behind a directory**: one that starts at the root stays as it is. -/
def join (dir path : List Char) : List Char :=
  if IsAbsolute path ∨ dir = [] then path
  else if dir.getLast? = some '/' then dir ++ path
  else dir ++ '/' :: path

variable {dir path : List Char}

theorem join_of_absolute (h : IsAbsolute path) : join dir path = path := if_pos (Or.inl h)

theorem isAbsolute_join (h : ¬ IsAbsolute path) :
    IsAbsolute (join dir path) ↔ IsAbsolute dir := by
  rw [join]
  split
  · rename_i hor
    rw [hor.resolve_left h]
    exact iff_of_false h (by decide)
  · rename_i hor
    obtain ⟨c, cs, rfl⟩ := List.exists_cons_of_ne_nil (not_or.mp hor).2
    split <;> rfl

/-- The components of a join are those of the directory and of the path, up to empty ones. -/
theorem foldl_components_join {β : Type} {f : β → List Char → β} (hf : ∀ b, f b [] = b) (b : β)
    (h : ¬ IsAbsolute path) : (components (join dir path)).foldl f b =
      (components path).foldl f ((components dir).foldl f b) := by
  have hempty (b : β) : (components []).foldl f b = b := hf b
  rw [join]
  split
  · rename_i hor
    rw [hor.resolve_left h, hempty]
  · split
    · rename_i hlast
      obtain ⟨init, rfl⟩ := List.getLast?_eq_some_iff.mp hlast
      rw [List.append_assoc, List.singleton_append, components_append, components_append,
        List.foldl_append, List.foldl_append, hempty]
    · rw [components_append, List.foldl_append]

/-- **A walk from another place**: what it climbs, it climbs from the names that are there. -/
theorem foldl_turn (cs : List (List Char)) (k : ℕ) (stack : List (List Char)) :
    cs.foldl turn (k, stack) =
      (k + ((cs.foldl turn (0, [])).1 - stack.length),
        (cs.foldl turn (0, [])).2 ++ stack.drop (cs.foldl turn (0, [])).1) := by
  induction cs using List.reverseRecOn with
  | nil => simp
  | append_singleton cs c ih =>
    rw [List.foldl_append, List.foldl_append, ih]
    generalize cs.foldl turn (0, []) = r
    obtain ⟨h, below⟩ := r
    simp only [List.foldl_cons, List.foldl_nil]
    by_cases hskip : c = [] ∨ c = here
    · rw [turn_of_skip hskip, turn_of_skip hskip]
    · by_cases hup : c = up
      · subst hup
        cases below with
        | cons top below => rfl
        | nil =>
          rw [turn_nil_up, List.nil_append, List.nil_append]
          rcases Nat.lt_or_ge h stack.length with hlt | hge
          · -- there is a name left to climb from
            rw [List.drop_eq_getElem_cons hlt, turn_cons_up]
            have hzero : h - stack.length = h + 1 - stack.length := by omega
            rw [hzero]
          · rw [List.drop_eq_nil_of_le hge, turn_nil_up, List.drop_eq_nil_of_le (by omega)]
            have hone : h + 1 - stack.length = h - stack.length + 1 := by omega
            rw [hone, Nat.add_assoc]
      · rw [turn_of_name hskip hup, turn_of_name hskip hup, List.cons_append]

theorem route_join (h : ¬ IsAbsolute path) : route (join dir path) =
    ((route dir).1 + ((route path).1 - (route dir).2.length),
      (route path).2 ++ (route dir).2.drop (route path).1) := by
  rw [route, foldl_components_join (fun _ => turn_of_skip (Or.inl rfl)) _ h, foldl_turn]
  rfl

theorem climbs_join (h : ¬ IsAbsolute path) :
    climbs (join dir path) = climbs dir + (climbs path - (names dir).length) := by
  rw [climbs, route_join h, names, List.length_reverse]
  rfl

theorem names_join (h : ¬ IsAbsolute path) : names (join dir path) =
    (names dir).take ((names dir).length - climbs path) ++ names path := by
  rw [names, route_join h, List.reverse_append, List.reverse_drop]
  simp only [names, climbs, List.length_reverse]

/-! ### Inside of a directory -/

/-- Where a path leads to. What climbs from the root stays there. -/
def place (path : List Char) : List (List Char) :=
  if IsAbsolute path then (resolve path).dropWhile (· = up) else resolve path

/-- **The path leads to the place of `dir` or below it**: it starts where `dir` does, and goes
on from there without climbing. -/
def Inside (dir path : List Char) : Prop :=
  (IsAbsolute path ↔ IsAbsolute dir) ∧ place dir <+: place path ∧
    up ∉ (place path).drop (place dir).length

instance (dir path : List Char) : Decidable (Inside dir path) :=
  inferInstanceAs (Decidable (_ ∧ _))

theorem inside_self (dir : List Char) : Inside dir dir :=
  ⟨Iff.rfl, List.prefix_refl _, by simp⟩

theorem place_of_absolute (h : IsAbsolute path) : place path = names path := by
  rw [place, if_pos h, resolve_eq]
  have hnames : (names path).dropWhile (fun c => decide (c = up)) = names path := by
    rw [List.dropWhile_eq_self_iff]
    intro hpos heq
    exact up_not_mem_names path (of_decide_eq_true heq ▸ List.getElem_mem hpos)
  rw [List.dropWhile_append_of_pos fun c hc =>
    decide_eq_true (List.eq_of_mem_replicate hc), hnames]

theorem place_of_relative (h : ¬ IsAbsolute path) :
    place path = List.replicate (climbs path) up ++ names path := by
  rw [place, if_neg h, resolve_eq]

/-- Of two places the second is below the first if both climb as much, and the names of the
first are the first names of the second. -/
theorem prefix_replicate_iff {ms ns : List (List Char)} (hms : up ∉ ms) (hns : up ∉ ns) (k k' : ℕ) :
    (List.replicate k up ++ ms <+: List.replicate k' up ++ ns ∧
      up ∉ (List.replicate k' up ++ ns).drop (List.replicate k up ++ ms).length) ↔
      k = k' ∧ ms <+: ns := by
  induction k generalizing k' with
  | zero =>
    cases k' with
    | zero =>
      have hdrop : up ∉ ns.drop ms.length := fun h => hns (List.mem_of_mem_drop h)
      simp [hdrop]
    | succ k' =>
      refine iff_of_false (fun h => ?_) fun h => absurd h.1 (Nat.succ_ne_zero k').symm
      obtain ⟨hpre, hdrop⟩ := h
      cases ms with
      | nil => exact hdrop List.mem_cons_self
      | cons m ms => exact hms ((List.cons_prefix_cons.mp hpre).1 ▸ List.mem_cons_self)
  | succ k ih =>
    cases k' with
    | zero =>
      refine iff_of_false (fun h => ?_) fun h => absurd h.1 (Nat.succ_ne_zero k)
      cases ns with
      | nil => exact absurd (List.prefix_nil.mp h.1) (List.cons_ne_nil _ _)
      | cons n ns => exact hns ((List.cons_prefix_cons.mp h.1).1 ▸ List.mem_cons_self)
    | succ k' =>
      have hstep := ih k'
      simp only [List.replicate_succ, List.cons_append, List.cons_prefix_cons, List.length_cons,
        List.drop_succ_cons, true_and, Nat.succ_inj]
      exact hstep

/-- **When a path is inside**: it starts where the directory does, climbs as much unless both
start at the root, and goes down the names of the directory first. -/
theorem inside_iff : Inside dir path ↔ (IsAbsolute path ↔ IsAbsolute dir) ∧
    (IsAbsolute dir ∨ climbs dir = climbs path) ∧ names dir <+: names path := by
  refine and_congr_right fun hstart => ?_
  by_cases h : IsAbsolute dir
  · have hdrop : up ∉ (names path).drop (names dir).length := fun hup =>
      up_not_mem_names path (List.mem_of_mem_drop hup)
    rw [place_of_absolute h, place_of_absolute (hstart.mpr h)]
    simp [h, hdrop]
  · rw [place_of_relative h, place_of_relative (hstart.not.mpr h),
      prefix_replicate_iff (up_not_mem_names dir) (up_not_mem_names path)]
    simp [h]

/-- A list is a prefix of its first part and some more if the rest of it is one of that. -/
theorem prefix_take_append_iff {β : Type} {ms ns : List β} (n : ℕ) :
    ms <+: ms.take n ++ ns ↔ ms.drop n <+: ns := by
  have h : ms.take n ++ ms.drop n <+: ms.take n ++ ns ↔ ms.drop n <+: ns :=
    List.prefix_append_right_inj _
  rwa [List.take_append_drop] at h

/-- **When a join stays inside of the directory**: a path that starts at the root has to be
inside itself. Any other one must not climb above the start of a relative directory, and has to
go down again the names of the directories that it has climbed. -/
theorem inside_join_iff : Inside dir (join dir path) ↔
    if IsAbsolute path then IsAbsolute dir ∧ names dir <+: names path
    else (IsAbsolute dir ∨ climbs path ≤ (names dir).length) ∧
      (names dir).drop ((names dir).length - climbs path) <+: names path := by
  rw [inside_iff]
  split
  · rename_i h
    rw [join_of_absolute h]
    simp only [h, true_iff]
    tauto
  · rename_i h
    have hclimbs : climbs dir = climbs dir + (climbs path - (names dir).length) ↔
        climbs path ≤ (names dir).length := by
      omega
    rw [climbs_join h, names_join h, hclimbs, prefix_take_append_iff]
    simp [isAbsolute_join h]

end LexicalPath
