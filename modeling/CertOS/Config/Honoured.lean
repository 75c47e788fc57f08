import CertOS.Agent.Fleet
import CertOS.Config.Loaders
import Mathlib.Data.Rat.Defs

/-!
# What is loaded from a configuration file

One would have a loader return what the file says, or, if the file says something that cannot be,
the defaults. Two things stand against it. An exception leaves the fields in front of it as they
have been assigned, so that a wrong value in the middle of a file makes for a mixture; and a
number is read as an `int` and stored with no check, so that a port of 70000 becomes one of 4464,
and a number that a field could hold, but an `int` cannot, counts as wrong.

So a file is honoured just if all of its values fit into their fields and into an `int`, or if
one does not and yet nothing shows: whatever is assigned in front of the first exception is the
default (`CertOS.ConfigFile.config_honoured_iff`).
-/

namespace CertOS

namespace ConfigFile

variable {R C : Type} {y : YamlCpp R}

/-! ### Values -/

/-- **`as<int>` reads an integer** where one is written that an `int` can be, and throws anywhere
else. -/
def ReadsInt (y : YamlCpp R) (integer : y.Node → Option ℤ) : Prop :=
  ∀ value i, y.asInt value = .ok i ↔ integer value = some i.toInt

namespace Kind

/-- **What is written**, as a value of a field: for a number without a sign, the integer. -/
def Writes (y : YamlCpp R) (integer : y.Node → Option ℤ) : (k : Kind) → y.Node → k.Value R → Prop
  | string, value, v => y.asString value = .ok v
  | uint _, value, v => integer value = some (v.toNat : ℤ)
  | double, value, v => y.asDouble value = .ok v
  | bool, value, v => y.asBool value = .ok v

variable {integer : y.Node → Option ℤ} {k : Kind} {value : y.Node}

/-- A value that is written and that an `int` can be is read and stored. -/
theorem as_of_writes (hint : ReadsInt y integer) {v : k.Value R} (hw : k.Writes y integer value v)
    (hs : k.Small v) : ∃ x, k.as y value = .ok x ∧ k.narrow x = v := by
  cases k with
  | uint width =>
    have hlt : (v.toNat : ℤ) < 2 ^ 31 := by exact_mod_cast hs
    have hi : (Int32.ofInt v.toNat).toInt = v.toNat :=
      Int32.toInt_ofInt_of_le (by omega) hlt
    refine ⟨Int32.ofInt v.toNat, (hint _ _).mpr (by rw [hi]; exact hw), ?_⟩
    exact narrow_widen (k := .uint width) hs
  | string => exact ⟨v, hw, rfl⟩
  | double => exact ⟨v, hw, rfl⟩
  | bool => exact ⟨v, hw, rfl⟩

/-- What has been read is small, if it is what is written. -/
theorem small_of_writes (hint : ReadsInt y integer) {x : k.Read R} (hx : k.as y value = .ok x)
    (hw : k.Writes y integer value (k.narrow x)) : k.Small (k.narrow x) := by
  cases k with
  | uint width =>
    have hi : integer value = some x.toInt := (hint _ _).mp hx
    have heq : x.toInt = ((narrow (.uint width) x : BitVec width).toNat : ℤ) :=
      Option.some.inj (hi.symm.trans hw)
    have hlt := x.toInt_lt
    exact (by omega : (narrow (.uint width) x : BitVec width).toNat < 2 ^ 31)
  | string => trivial
  | double => trivial
  | bool => trivial

end Kind

/-! ### One file -/

namespace Loader

variable (L : Loader R C) (y) (integer : y.Node → Option ℤ) (path : String)

/-- The value of a key in the section, if there is one. -/
def valueAt (key : String) : Option y.Node :=
  match L.findSection y path with
  | .ok (some node) =>
    match y.subscript node with
    | .ok sub => sub key
    | .error _ => none
  | _ => none

/-- **A field is as the file says**: what is written there, or the default. -/
def Exact (cfg : C) (s : Setting R C) : Prop :=
  match L.valueAt y path s.key with
  | some value => s.kind.Writes y integer value (s.get cfg)
  | none => s.get cfg = s.get L.defaults

/-- Some value of the file cannot be represented in its field. -/
def Misfit : Prop :=
  ∃ s ∈ L.settings, ∃ value, L.valueAt y path s.key = some value ∧
    ∀ v, ¬ s.kind.Writes y integer value v

/-- **A file is honoured** exactly or not at all. -/
def Honoured (cfg : C) : Prop :=
  (∀ s ∈ L.settings, L.Exact y integer path cfg s) ∨ (L.Misfit y integer path ∧ cfg = L.defaults)

/-- All values of a file fit into their fields, and into an `int` if they are numbers without a
sign. -/
def Fits : Prop :=
  ∀ s ∈ L.settings, ∀ value, L.valueAt y path s.key = some value →
    ∃ v, s.kind.Writes y integer value v ∧ s.kind.Small v

/-- The value of a key is converted without an exception, if there is one. -/
def accepts (s : Setting R C) : Bool :=
  match L.valueAt y path s.key with
  | some value => (s.kind.as y value).isOk
  | none => true

/-- Nothing shows of what is assigned in front of the first exception. -/
def Unnoticed : Prop :=
  ∀ s ∈ L.settings.takeWhile (L.accepts y path), ∀ value, L.valueAt y path s.key = some value →
    ∀ x, s.kind.as y value = .ok x → s.kind.narrow x = s.get L.defaults

/-! ### What a loader returns -/

/-- **A field that has been assigned**: what is read at its key, stored, or the default. -/
def Assigned (cfg : C) (s : Setting R C) : Prop :=
  match L.valueAt y path s.key with
  | some value => ∃ x, s.kind.as y value = .ok x ∧ s.get cfg = s.kind.narrow x
  | none => s.get cfg = s.get L.defaults

variable {L y integer path}

section Keys

variable {node : y.Node} {sub : String → Option y.Node} {s : Setting R C}

theorem valueAt_of_subscript (hsection : L.findSection y path = .ok (some node))
    (hsub : y.subscript node = .ok sub) (key : String) : L.valueAt y path key = sub key := by
  simp only [valueAt, hsection, hsub]

theorem outcome_of_absent (hsub : y.subscript node = .ok sub) (hkey : sub s.key = none) (c : C) :
    (s.assignment y node).outcome c = .ok (s.kind.narrow (s.kind.widen (s.get c))) := by
  have hget : y.yamlGet (s.kind.as y) node s.key (s.kind.widen (s.get c)) =
      .ok (s.kind.widen (s.get c)) := by
    simp only [YamlCpp.yamlGet, hsub, hkey, bind, Except.bind, pure, Except.pure]
  simp only [Assignment.outcome, Setting.assignment, hget]
  rfl

theorem outcome_of_error {e : y.Exception} (hsub : y.subscript node = .error e) (c : C) :
    (s.assignment y node).outcome c = .error e := by
  have hget : y.yamlGet (s.kind.as y) node s.key (s.kind.widen (s.get c)) = .error e := by
    simp only [YamlCpp.yamlGet, hsub, bind, Except.bind]
  simp only [Assignment.outcome, Setting.assignment, hget]
  rfl

theorem outcome_of_present (hsub : y.subscript node = .ok sub) {value : y.Node}
    (hkey : sub s.key = some value) (c : C) :
    (s.assignment y node).outcome c = (s.kind.as y value).map s.kind.narrow := by
  have hget : y.yamlGet (s.kind.as y) node s.key (s.kind.widen (s.get c)) =
      s.kind.as y value := by
    simp only [YamlCpp.yamlGet, hsub, hkey, bind, Except.bind]
  simp only [Assignment.outcome, Setting.assignment, hget]
  rfl

/-- At a node with keys, the assignments that do not throw are those whose values are converted. -/
theorem succeeds_assignment (hsection : L.findSection y path = .ok (some node))
    (hsub : y.subscript node = .ok sub) :
    Assignment.succeeds L.defaults ∘ Setting.assignment y node = L.accepts y path := by
  funext s
  rw [Function.comp, Assignment.succeeds, accepts, valueAt_of_subscript hsection hsub]
  cases hkey : sub s.key with
  | none =>
    rw [outcome_of_absent hsub hkey]
    rfl
  | some value =>
    rw [outcome_of_present hsub hkey]
    change ((s.kind.as y value).map s.kind.narrow).isOk = (s.kind.as y value).isOk
    cases s.kind.as y value with
    | error e => rfl
    | ok x => rfl

/-- A field that holds what came of its right-hand side has been assigned. -/
theorem assigned_of_outcome (hsection : L.findSection y path = .ok (some node))
    (hsub : y.subscript node = .ok sub) (hs : s ∈ L.settings) {cfg : C}
    (hout : (s.assignment y node).outcome L.defaults = .ok (s.get cfg)) :
    L.Assigned y path cfg s := by
  rw [Assigned, valueAt_of_subscript hsection hsub]
  cases hkey : sub s.key with
  | none =>
    rw [outcome_of_absent hsub hkey, Kind.narrow_widen (L.small s hs)] at hout
    exact (Except.ok.inj hout).symm
  | some value =>
    rw [outcome_of_present hsub hkey] at hout
    cases hread : s.kind.as y value with
    | error e =>
      rw [hread] at hout
      cases hout
    | ok x =>
      rw [hread] at hout
      exact ⟨x, hread, (Except.ok.inj hout).symm⟩

/-- **What a loader returns** at a node with keys. -/
theorem assigned_of_subscript (hsection : L.findSection y path = .ok (some node))
    (hsub : y.subscript node = .ok sub) :
    (∀ s ∈ L.settings.takeWhile (L.accepts y path), L.Assigned y path (L.load y path) s) ∧
      ∀ s ∈ L.settings.dropWhile (L.accepts y path),
        s.get (L.load y path) = s.get L.defaults := by
  have hload : L.load y path =
      Assignment.runAll (L.settings.map (Setting.assignment y node)) L.defaults := by
    simp only [load, hsection]
  have hapart : (L.settings.map (Setting.assignment y node)).Pairwise Assignment.Apart :=
    List.pairwise_map.mpr (L.apart.imp fun h => ⟨h.left, h.right⟩)
  have hsucceeds := succeeds_assignment hsection hsub
  obtain ⟨hdone, hleft⟩ := Assignment.get_runAll hapart L.defaults
  rw [List.takeWhile_map, hsucceeds, ← hload] at hdone
  rw [List.dropWhile_map, hsucceeds, ← hload] at hleft
  constructor
  · intro s hs
    exact assigned_of_outcome hsection hsub ((List.takeWhile_prefix _).subset hs)
      (hdone _ (List.mem_map_of_mem hs))
  · intro s hs
    exact hleft _ (List.mem_map_of_mem hs)

end Keys

/-- A file without any of the keys leaves the defaults. -/
theorem assigned_of_defaults (hload : L.load y path = L.defaults)
    (hvalue : ∀ key, L.valueAt y path key = none) :
    (∀ s ∈ L.settings.takeWhile (L.accepts y path), L.Assigned y path (L.load y path) s) ∧
      ∀ s ∈ L.settings.dropWhile (L.accepts y path),
        s.get (L.load y path) = s.get L.defaults := by
  constructor
  · intro s _
    rw [Assigned, hvalue, hload]
  · intro s _
    rw [hload]

/-- **What a loader returns**: the fields whose keys are in front of the first exception have
been assigned, and the others are the defaults. -/
theorem assigned_load (L : Loader R C) (y : YamlCpp R) (path : String) :
    (∀ s ∈ L.settings.takeWhile (L.accepts y path), L.Assigned y path (L.load y path) s) ∧
      ∀ s ∈ L.settings.dropWhile (L.accepts y path),
        s.get (L.load y path) = s.get L.defaults := by
  cases hsection : L.findSection y path with
  | error e =>
    refine assigned_of_defaults ?_ fun key => ?_
    · simp only [load, hsection]
    · simp only [valueAt, hsection]
  | ok found =>
    cases found with
    | none =>
      refine assigned_of_defaults ?_ fun key => ?_
      · simp only [load, hsection]
      · simp only [valueAt, hsection]
    | some node =>
      cases hsub : y.subscript node with
      | ok sub => exact assigned_of_subscript hsection hsub
      | error e =>
        refine assigned_of_defaults ?_ fun key => ?_
        · -- a section that is no map throws at the first key
          simp only [load, hsection]
          cases L.settings with
          | nil => rfl
          | cons s ss => exact Assignment.runAll_cons_error (outcome_of_error hsub L.defaults)
        · simp only [valueAt, hsection, hsub]

/-! ### Every file -/

variable {s : Setting R C}

/-- A key is in front of the first exception or behind it. -/
theorem mem_parts (L : Loader R C) (y : YamlCpp R) (path : String) (hs : s ∈ L.settings) :
    s ∈ L.settings.takeWhile (L.accepts y path) ∨
      s ∈ L.settings.dropWhile (L.accepts y path) := by
  rw [← List.mem_append, List.takeWhile_append_dropWhile]
  exact hs

/-- A file that is honoured key by key fits. -/
theorem fits_of_exact (hint : ReadsInt y integer)
    (h : ∀ s ∈ L.settings, L.Exact y integer path (L.load y path) s) :
    L.Fits y integer path := by
  intro s hs value hvalue
  obtain ⟨hdone, hleft⟩ := assigned_load L y path
  have hexact := h s hs
  rw [Exact, hvalue] at hexact
  refine ⟨s.get (L.load y path), hexact, ?_⟩
  rcases mem_parts L y path hs with hmem | hmem
  · have hass := hdone s hmem
    rw [Assigned, hvalue] at hass
    obtain ⟨x, hx, hget⟩ := hass
    rw [hget] at hexact ⊢
    exact Kind.small_of_writes hint hx hexact
  · rw [hleft s hmem]
    exact L.small s hs

/-- A file that fits is honoured key by key. -/
theorem exact_of_fits (hint : ReadsInt y integer) (h : L.Fits y integer path) :
    ∀ s ∈ L.settings, L.Exact y integer path (L.load y path) s := by
  have haccepts : ∀ s ∈ L.settings, L.accepts y path s = true := by
    intro s hs
    rw [accepts]
    cases hvalue : L.valueAt y path s.key with
    | none => rfl
    | some value =>
      obtain ⟨v, hwrites, hsmall⟩ := h s hs value hvalue
      obtain ⟨x, hx, -⟩ := Kind.as_of_writes hint hwrites hsmall
      simp only [hx]
      rfl
  have hdone := (assigned_load L y path).1
  rw [List.takeWhile_eq_self_iff.mpr haccepts] at hdone
  intro s hs
  have hass := hdone s hs
  rw [Assigned] at hass
  rw [Exact]
  cases hvalue : L.valueAt y path s.key with
  | none =>
    rw [hvalue] at hass
    exact hass
  | some value =>
    rw [hvalue] at hass
    obtain ⟨x, hx, hget⟩ := hass
    obtain ⟨v, hwrites, hsmall⟩ := h s hs value hvalue
    obtain ⟨x', hx', rfl⟩ := Kind.as_of_writes hint hwrites hsmall
    obtain rfl := Except.ok.inj (hx.symm.trans hx')
    rw [hget]
    exact hwrites

/-- **Nothing is loaded** just if nothing shows of what is assigned. -/
theorem load_eq_defaults_iff (L : Loader R C) (y : YamlCpp R) (path : String) :
    L.load y path = L.defaults ↔ L.Unnoticed y path := by
  obtain ⟨hdone, hleft⟩ := assigned_load L y path
  constructor
  · intro hload s hs value hvalue x hx
    have hass := hdone s hs
    rw [Assigned, hvalue, hload] at hass
    obtain ⟨x', hx', hget⟩ := hass
    obtain rfl := Except.ok.inj (hx.symm.trans hx')
    exact hget.symm
  · intro h
    refine L.complete fun s hs => ?_
    rcases mem_parts L y path hs with hmem | hmem
    · have hass := hdone s hmem
      rw [Assigned] at hass
      cases hvalue : L.valueAt y path s.key with
      | none =>
        rw [hvalue] at hass
        exact hass
      | some value =>
        rw [hvalue] at hass
        obtain ⟨x, hx, hget⟩ := hass
        rw [hget, h s hmem value hvalue x hx]
    · exact hleft s hmem

/-- **A loader honours a file** just if all values fit, or one cannot be represented and nothing
shows of the others. -/
theorem honoured_load_iff (hint : ReadsInt y integer) :
    L.Honoured y integer path (L.load y path) ↔
      L.Fits y integer path ∨ (L.Misfit y integer path ∧ L.Unnoticed y path) := by
  rw [Honoured, load_eq_defaults_iff]
  exact or_congr_left ⟨fits_of_exact hint, exact_of_fits hint⟩

end Loader

/-! ### What an agent registers with -/

/-- The part of a configuration that an agent starts with. -/
def AgentConfig.overrides (cfg : AgentConfig) : CertOS.AgentConfig :=
  ⟨cfg.cpuCores, cfg.ramMb, cfg.gpuCount⟩

/-- **An agent registers with the cores of its file**, if the file fits and names any. -/
theorem registration_of_fits {integer : y.Node → Option ℤ} {path : String}
    (hint : ReadsInt y integer) (hfits : (agentLoader R).Fits y integer path) {value : y.Node}
    (hvalue : (agentLoader R).valueAt y path "cpu_cores" = some value) {n : ℤ}
    (hn : integer value = some n) (hpos : 0 < n) :
    ((Agent.registration (loadAgentConfig y path).overrides).totalResources.cpuCores.toNat : ℤ) =
      n := by
  have hexact := Loader.exact_of_fits hint hfits
    (.mk "cpu_cores" (.uint 32) (·.cpuCores.toBitVec) fun v c => { c with cpuCores := ⟨v⟩ })
    (List.mem_of_getElem? (i := 11) rfl)
  simp only [Loader.Exact, hvalue] at hexact
  have hcores : ((loadAgentConfig y path).overrides.cpuCores.toNat : ℤ) = n :=
    Option.some.inj (hexact.symm.trans hn)
  have hsome : (loadAgentConfig y path).overrides.cpuCores > 0 := by
    rw [gt_iff_lt, UInt32.lt_iff_toNat_lt]
    change 0 < (loadAgentConfig y path).overrides.cpuCores.toNat
    omega
  simp only [Agent.registration, if_pos hsome]
  exact hcores

/-! ### Main result -/

/-- **A configuration file is honoured exactly or not at all** by each of the three loaders just
if all values of the section fit into their fields, and into an `int` if they are numbers without
a sign, or if one of them cannot be represented and what is assigned in front of the first
exception are the defaults: for every file, and whatever yaml-cpp makes of it, as long as
`as<int>` reads the integers that an `int` can be and throws on anything else. -/
theorem config_honoured_iff [NatCast R] {integer : y.Node → Option ℤ} (hint : ReadsInt y integer)
    (path : String) :
    ((masterLoader R).Honoured y integer path (loadMasterConfig y path) ↔
      (masterLoader R).Fits y integer path ∨
        ((masterLoader R).Misfit y integer path ∧ (masterLoader R).Unnoticed y path)) ∧
    ((agentLoader R).Honoured y integer path (loadAgentConfig y path) ↔
      (agentLoader R).Fits y integer path ∨
        ((agentLoader R).Misfit y integer path ∧ (agentLoader R).Unnoticed y path)) ∧
    ((gatewayLoader R).Honoured y integer path (loadGatewayConfig y path) ↔
      (gatewayLoader R).Fits y integer path ∨
        ((gatewayLoader R).Misfit y integer path ∧ (gatewayLoader R).Unnoticed y path)) :=
  ⟨Loader.honoured_load_iff hint, Loader.honoured_load_iff hint, Loader.honoured_load_iff hint⟩

/-! ### Plain files -/

/-- A document of plain scalars and maps. -/
inductive Yaml where
  | scalar (text : List Char)
  | mapping (entries : List (String × Yaml))

namespace Yaml

/-- The integer that a scalar writes in decimal. -/
def integer : Yaml → Option ℤ
  | scalar text =>
    let (negative, digits) := match text with
      | '-' :: digits => (true, digits)
      | digits => (false, digits)
    if digits = [] ∨ ¬ digits.all Char.isDigit then none
    else
      let n : ℤ := Nat.ofDigitChars 10 digits 0
      some (if negative then -n else n)
  | mapping _ => none

/-- What yaml-cpp makes of such a document. -/
def cpp (doc : Yaml) : YamlCpp ℚ where
  Node := Yaml
  Exception := Unit
  loadFile _ := .ok doc
  subscript
    | scalar _ => .error ()
    | mapping entries => .ok fun key => (entries.find? (·.1 = key)).map (·.2)
  asString
    | scalar text => .ok (String.ofList text)
    | mapping _ => .error ()
  asInt value :=
    match value.integer with
    | some n => if -2 ^ 31 ≤ n ∧ n < 2 ^ 31 then .ok (Int32.ofInt n) else .error ()
    | none => .error ()
  asDouble value :=
    match value.integer with
    | some n => .ok (n : ℚ)
    | none => .error ()
  asBool
    | scalar ['t', 'r', 'u', 'e'] => .ok true
    | scalar ['f', 'a', 'l', 's', 'e'] => .ok false
    | _ => .error ()

theorem readsInt_cpp (doc : Yaml) : ReadsInt doc.cpp integer := by
  intro value i
  simp only [cpp]
  cases value.integer with
  | none => simp
  | some n =>
    have hlt := i.toInt_lt
    have hle := i.le_toInt
    dsimp only
    by_cases h : -2 ^ 31 ≤ n ∧ n < 2 ^ 31
    · rw [if_pos h]
      constructor
      · intro hok
        rw [← Except.ok.inj hok, Int32.toInt_ofInt_of_le h.1 h.2]
      · intro hn
        rw [Option.some.inj hn, Int32.ofInt_toInt]
    · rw [if_neg h]
      constructor
      · intro hok
        cases hok
      · intro hn
        obtain rfl := Option.some.inj hn
        exact absurd ⟨hle, hlt⟩ h

end Yaml

/-- A file of one section with these keys. -/
def fileOf (root : String) (entries : List (String × List Char)) : Yaml :=
  .mapping [(root, .mapping (entries.map fun entry => (entry.1, .scalar entry.2)))]

/-- A file for the gateway. -/
def gatewayFile : Yaml :=
  fileOf "gateway" [("http_port", ['8', '0', '8', '1']), ("cors_origin", ['*'])]

theorem config_honoured_gatewayFile :
    ReadsInt gatewayFile.cpp Yaml.integer ∧
    (((masterLoader ℚ).Honoured gatewayFile.cpp Yaml.integer "gateway.yaml"
          (loadMasterConfig gatewayFile.cpp "gateway.yaml") ↔
        (masterLoader ℚ).Fits gatewayFile.cpp Yaml.integer "gateway.yaml" ∨
          ((masterLoader ℚ).Misfit gatewayFile.cpp Yaml.integer "gateway.yaml" ∧
            (masterLoader ℚ).Unnoticed gatewayFile.cpp "gateway.yaml")) ∧
      ((agentLoader ℚ).Honoured gatewayFile.cpp Yaml.integer "gateway.yaml"
          (loadAgentConfig gatewayFile.cpp "gateway.yaml") ↔
        (agentLoader ℚ).Fits gatewayFile.cpp Yaml.integer "gateway.yaml" ∨
          ((agentLoader ℚ).Misfit gatewayFile.cpp Yaml.integer "gateway.yaml" ∧
            (agentLoader ℚ).Unnoticed gatewayFile.cpp "gateway.yaml")) ∧
      ((gatewayLoader ℚ).Honoured gatewayFile.cpp Yaml.integer "gateway.yaml"
          (loadGatewayConfig gatewayFile.cpp "gateway.yaml") ↔
        (gatewayLoader ℚ).Fits gatewayFile.cpp Yaml.integer "gateway.yaml" ∨
          ((gatewayLoader ℚ).Misfit gatewayFile.cpp Yaml.integer "gateway.yaml" ∧
            (gatewayLoader ℚ).Unnoticed gatewayFile.cpp "gateway.yaml"))) :=
  ⟨gatewayFile.readsInt_cpp, config_honoured_iff gatewayFile.readsInt_cpp "gateway.yaml"⟩

/-- A file for the master, with a port that is too large, a lifetime that is no number, and a
timeout behind it. -/
def brokenFile : Yaml :=
  fileOf "master" [("grpc_port", ['7', '0', '0', '0', '0']),
    ("jwt_expiry_sec", ['s', 'o', 'o', 'n']), ("heartbeat_timeout_sec", ['6', '0'])]

/-- **A broken file is loaded in part**: the port is stored as another one, and the timeout, whose
key is behind the value that cannot be read, is left at its default. -/
theorem broken_file_in_part :
    ReadsInt brokenFile.cpp Yaml.integer ∧
    (loadMasterConfig brokenFile.cpp "master.yaml").grpcPort = 4464 ∧
    (loadMasterConfig brokenFile.cpp "master.yaml").heartbeatTimeoutSec = 15 ∧
    ¬ (masterLoader ℚ).Honoured brokenFile.cpp Yaml.integer "master.yaml"
        (loadMasterConfig brokenFile.cpp "master.yaml") := by
  have hport : (loadMasterConfig brokenFile.cpp "master.yaml").grpcPort = 4464 := by decide
  refine ⟨brokenFile.readsInt_cpp, hport, by decide, ?_⟩
  rintro (h | ⟨-, h⟩)
  · have hexact := h (.mk "grpc_port" (.uint 16) (·.grpcPort.toBitVec)
      fun v c => { c with grpcPort := ⟨v⟩ }) (List.mem_cons_of_mem _ List.mem_cons_self)
    have hport : Yaml.integer (.scalar ['7', '0', '0', '0', '0']) = some 4464 := hexact
    exact absurd hport (by decide)
  · rw [h] at hport
    exact absurd hport (by decide)

end ConfigFile

end CertOS
