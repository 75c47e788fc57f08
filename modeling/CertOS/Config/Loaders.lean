import CertOS.Assignments
import Mathlib.Algebra.Group.Nat.Defs
import Mathlib.Data.Nat.Cast.Defs

/-!
# The configuration files

Each of the three programs reads one section of a YAML file. A loader starts with the defaults
and assigns the fields one by one, each from its key, under one handler for what yaml-cpp
throws; a key that is not there leaves the field as it is. Numbers are read as `int` and stored
in fields of 16, 32 or 64 bits without a sign.

yaml-cpp is a parameter (`CertOS.ConfigFile.YamlCpp`). A loader is given by its section, its
defaults and its settings (`CertOS.ConfigFile.Loader`), which name the fields in the order in
which they are assigned.
-/

namespace CertOS

namespace ConfigFile

/-! ### yaml-cpp -/

/-- What the loaders call of yaml-cpp; `R` is the type `double`. -/
structure YamlCpp (R : Type) where
  Node : Type
  Exception : Type
  /-- `YAML::LoadFile`. -/
  loadFile : String → Except Exception Node
  /-- `operator[]`: a node that has no keys throws. -/
  subscript : Node → Except Exception (String → Option Node)
  /-- `as<std::string>`. -/
  asString : Node → Except Exception String
  /-- `as<int>`. -/
  asInt : Node → Except Exception Int32
  /-- `as<double>`. -/
  asDouble : Node → Except Exception R
  /-- `as<bool>`. -/
  asBool : Node → Except Exception Bool

/-- `yaml_get`, for a type with the conversion `as`. -/
def YamlCpp.yamlGet {R T : Type} (y : YamlCpp R) (as : y.Node → Except y.Exception T)
    (node : y.Node) (key : String) (defaultVal : T) : Except y.Exception T := do
  let sub ← y.subscript node
  match sub key with
  | some value => as value
  | none => return defaultVal

/-! ### Fields -/

/-- The types of the fields. -/
inductive Kind where
  /-- `std::string`. -/
  | string
  /-- An unsigned number of that many bits. -/
  | uint (width : ℕ)
  /-- `double`. -/
  | double
  /-- `bool`. -/
  | bool
  deriving DecidableEq

namespace Kind

/-- What a field holds. -/
@[reducible] def Value (R : Type) : Kind → Type
  | string => String
  | uint width => BitVec width
  | double => R
  | bool => Bool

/-- The type at which `yaml_get` is called for the field. -/
@[reducible] def Read (R : Type) : Kind → Type
  | string => String
  | uint _ => Int32
  | double => R
  | bool => Bool

variable {R : Type}

/-- The conversion of what a field holds, for the default of `yaml_get`. -/
def widen : (k : Kind) → k.Value R → k.Read R
  | string, v => v
  | uint _, v => Int32.ofInt v.toNat
  | double, v => v
  | bool, v => v

/-- The conversion of the assignment. -/
def narrow : (k : Kind) → k.Read R → k.Value R
  | string, v => v
  | uint width, v => BitVec.ofInt width v.toInt
  | double, v => v
  | bool, v => v

/-- The values that an `int` can be, if they are numbers without a sign. -/
def Small : (k : Kind) → k.Value R → Prop
  | uint _, v => v.toNat < 2 ^ 31
  | string, _ | double, _ | bool, _ => True

/-- A value that an `int` can be comes back from the default of `yaml_get`. -/
theorem narrow_widen {k : Kind} {v : k.Value R} (h : k.Small v) : k.narrow (k.widen v) = v := by
  cases k with
  | uint width =>
    have hle : -2 ^ 31 ≤ (v.toNat : ℤ) := by omega
    have hlt : (v.toNat : ℤ) < 2 ^ 31 := by exact_mod_cast h
    rw [widen, narrow, Int32.toInt_ofInt_of_le hle hlt, BitVec.ofInt_natCast, BitVec.ofNat_toNat,
      BitVec.setWidth_eq]
  | string => rfl
  | double => rfl
  | bool => rfl

/-- The conversion of yaml-cpp that `yaml_get` uses. -/
def as (y : YamlCpp R) : (k : Kind) → y.Node → Except y.Exception (k.Read R)
  | string => y.asString
  | uint _ => y.asInt
  | double => y.asDouble
  | bool => y.asBool

end Kind

/-- A field of a configuration with its key. -/
structure Setting (R C : Type) where
  key : String
  kind : Kind
  get : C → kind.Value R
  set : kind.Value R → C → C
  get_set : ∀ v c, get (set v c) = v := by intros; rfl

namespace Setting

variable {R C : Type}

/-- **Two settings are about different fields.** -/
structure Apart (s t : Setting R C) : Prop where
  left : ∀ v c, s.get (t.set v c) = s.get c
  right : ∀ v c, t.get (s.set v c) = t.get c

/-- **One line of a loader**: `cfg.f = yaml_get<T>(node, "f", cfg.f)`. -/
def assignment (y : YamlCpp R) (node : y.Node) (s : Setting R C) : Assignment y.Exception C where
  Value := s.kind.Value R
  get := s.get
  set := s.set
  get_set := s.get_set
  value v := do return s.kind.narrow (← y.yamlGet (s.kind.as y) node s.key (s.kind.widen v))

end Setting

/-! ### Loaders -/

/-- A loader: the section it reads, the defaults, and the fields in the order in which they are
assigned. -/
structure Loader (R C : Type) where
  root : String
  defaults : C
  settings : List (Setting R C)
  /-- Each field is assigned once. -/
  apart : settings.Pairwise Setting.Apart
  /-- Every field is assigned. -/
  complete : ∀ {c c' : C}, (∀ s ∈ settings, s.get c = s.get c') → c = c'
  /-- The defaults survive the conversions. -/
  small : ∀ s ∈ settings, s.kind.Small (s.get defaults)

namespace Loader

variable {R C : Type} (L : Loader R C) (y : YamlCpp R) (path : String)

/-- The section of a file, if the file can be read and has it. -/
def findSection : Except y.Exception (Option y.Node) := do
  let root ← y.loadFile path
  let sub ← y.subscript root
  return sub L.root

/-- **A loader at work**: behind an exception, what has been assigned so far is returned. -/
def load : C :=
  match L.findSection y path with
  | .error _ => L.defaults
  -- there is no such section
  | .ok none => L.defaults
  | .ok (some node) => Assignment.runAll (L.settings.map (Setting.assignment y node)) L.defaults

end Loader

section Programs

variable (R : Type)

/-! ### The master -/

/-- `MasterConfig`. -/
@[ext] structure MasterConfig where
  bindAddress : String := "0.0.0.0"
  grpcPort : UInt16 := 50051
  dbPath : String := "certosc.db"
  logDir : String := "/var/log/certosc"
  logLevel : String := "info"
  jwtSecret : String := "certosc-dev-secret-change-in-production"
  jwtExpirySec : UInt32 := 3600
  heartbeatTimeoutSec : UInt32 := 15
  schedulerIntervalMs : UInt32 := 1000
  backfillWindowSec : UInt32 := 3600
  maxBackfillJobs : UInt32 := 50
  fairShareDecayHours : R
  enableTls : Bool := false
  tlsCertPath : String := ""
  tlsKeyPath : String := ""
  nodeAuthKey : String := "certosc-node-key"

/-- What `load_master_config` assigns. -/
def masterSettings : List (Setting R (MasterConfig R)) :=
  [.mk "bind_address" .string (·.bindAddress) fun v c => { c with bindAddress := v },
    .mk "grpc_port" (.uint 16) (·.grpcPort.toBitVec) fun v c => { c with grpcPort := ⟨v⟩ },
    .mk "db_path" .string (·.dbPath) fun v c => { c with dbPath := v },
    .mk "log_dir" .string (·.logDir) fun v c => { c with logDir := v },
    .mk "log_level" .string (·.logLevel) fun v c => { c with logLevel := v },
    .mk "jwt_secret" .string (·.jwtSecret) fun v c => { c with jwtSecret := v },
    .mk "jwt_expiry_sec" (.uint 32) (·.jwtExpirySec.toBitVec)
      fun v c => { c with jwtExpirySec := ⟨v⟩ },
    .mk "heartbeat_timeout_sec" (.uint 32) (·.heartbeatTimeoutSec.toBitVec)
      fun v c => { c with heartbeatTimeoutSec := ⟨v⟩ },
    .mk "scheduler_interval_ms" (.uint 32) (·.schedulerIntervalMs.toBitVec)
      fun v c => { c with schedulerIntervalMs := ⟨v⟩ },
    .mk "backfill_window_sec" (.uint 32) (·.backfillWindowSec.toBitVec)
      fun v c => { c with backfillWindowSec := ⟨v⟩ },
    .mk "max_backfill_jobs" (.uint 32) (·.maxBackfillJobs.toBitVec)
      fun v c => { c with maxBackfillJobs := ⟨v⟩ },
    .mk "fair_share_decay_hours" .double (·.fairShareDecayHours)
      fun v c => { c with fairShareDecayHours := v },
    .mk "enable_tls" .bool (·.enableTls) fun v c => { c with enableTls := v },
    .mk "tls_cert_path" .string (·.tlsCertPath) fun v c => { c with tlsCertPath := v },
    .mk "tls_key_path" .string (·.tlsKeyPath) fun v c => { c with tlsKeyPath := v },
    .mk "node_auth_key" .string (·.nodeAuthKey) fun v c => { c with nodeAuthKey := v }]

theorem apart_masterSettings : (masterSettings R).Pairwise Setting.Apart := by
  simp only [masterSettings, List.pairwise_cons, List.forall_mem_cons, List.Pairwise.nil,
    List.not_mem_nil, false_imp_iff, implies_true, and_true]
  -- an assignment to one field of a record leaves the others as they are
  repeat' constructor
  all_goals
    intro v c
    rfl

/-- What `load_master_config` reads. -/
def masterLoader [NatCast R] : Loader R (MasterConfig R) where
  root := "master"
  defaults := { fairShareDecayHours := (24 : ℕ) }
  settings := masterSettings R
  apart := apart_masterSettings R
  complete := by
    intro c c' h
    simpa [masterSettings, MasterConfig.ext_iff, UInt16.toBitVec_inj, UInt32.toBitVec_inj,
      UInt64.toBitVec_inj] using h
  small := by simp [masterSettings, Kind.Small, -Nat.cast_ofNat]

variable {R} in
/-- `load_master_config`. -/
def loadMasterConfig [NatCast R] (y : YamlCpp R) (path : String) : MasterConfig R :=
  (masterLoader R).load y path

/-! ### The agent -/

/-- `AgentConfig`. -/
@[ext] structure AgentConfig where
  masterAddress : String := "localhost"
  masterPort : UInt16 := 50051
  heartbeatIntervalSec : UInt32 := 5
  metricsIntervalSec : UInt32 := 5
  logDir : String := "/var/log/certosc"
  logLevel : String := "info"
  workDir : String := "/tmp/certosc-jobs"
  authKey : String := "certosc-node-key"
  maxConcurrentJobs : UInt32 := 0
  enableTls : Bool := false
  tlsCaPath : String := ""
  cpuCores : UInt32 := 0
  ramMb : UInt64 := 0
  gpuCount : UInt32 := 0

/-- What `load_agent_config` assigns. -/
def agentSettings : List (Setting R AgentConfig) :=
  [.mk "master_address" .string (·.masterAddress) fun v c => { c with masterAddress := v },
    .mk "master_port" (.uint 16) (·.masterPort.toBitVec) fun v c => { c with masterPort := ⟨v⟩ },
    .mk "heartbeat_interval_sec" (.uint 32) (·.heartbeatIntervalSec.toBitVec)
      fun v c => { c with heartbeatIntervalSec := ⟨v⟩ },
    .mk "metrics_interval_sec" (.uint 32) (·.metricsIntervalSec.toBitVec)
      fun v c => { c with metricsIntervalSec := ⟨v⟩ },
    .mk "log_dir" .string (·.logDir) fun v c => { c with logDir := v },
    .mk "log_level" .string (·.logLevel) fun v c => { c with logLevel := v },
    .mk "work_dir" .string (·.workDir) fun v c => { c with workDir := v },
    .mk "auth_key" .string (·.authKey) fun v c => { c with authKey := v },
    .mk "max_concurrent_jobs" (.uint 32) (·.maxConcurrentJobs.toBitVec)
      fun v c => { c with maxConcurrentJobs := ⟨v⟩ },
    .mk "enable_tls" .bool (·.enableTls) fun v c => { c with enableTls := v },
    .mk "tls_ca_path" .string (·.tlsCaPath) fun v c => { c with tlsCaPath := v },
    .mk "cpu_cores" (.uint 32) (·.cpuCores.toBitVec) fun v c => { c with cpuCores := ⟨v⟩ },
    .mk "ram_mb" (.uint 64) (·.ramMb.toBitVec) fun v c => { c with ramMb := ⟨v⟩ },
    .mk "gpu_count" (.uint 32) (·.gpuCount.toBitVec) fun v c => { c with gpuCount := ⟨v⟩ }]

theorem apart_agentSettings : (agentSettings R).Pairwise Setting.Apart := by
  simp only [agentSettings, List.pairwise_cons, List.forall_mem_cons, List.Pairwise.nil,
    List.not_mem_nil, false_imp_iff, implies_true, and_true]
  repeat' constructor
  all_goals
    intro v c
    rfl

/-- What `load_agent_config` reads. -/
def agentLoader : Loader R AgentConfig where
  root := "agent"
  defaults := {}
  settings := agentSettings R
  apart := apart_agentSettings R
  complete := by
    intro c c' h
    simpa [agentSettings, AgentConfig.ext_iff, UInt16.toBitVec_inj, UInt32.toBitVec_inj,
      UInt64.toBitVec_inj] using h
  small := by simp [agentSettings, Kind.Small]

variable {R} in
/-- `load_agent_config`. -/
def loadAgentConfig (y : YamlCpp R) (path : String) : AgentConfig := (agentLoader R).load y path

/-! ### The gateway -/

/-- `GatewayConfig`. -/
@[ext] structure GatewayConfig where
  bindAddress : String := "0.0.0.0"
  httpPort : UInt16 := 8080
  masterAddress : String := "localhost"
  masterPort : UInt16 := 50051
  logLevel : String := "info"
  webRoot : String := "../web"
  jwtSecret : String := "certosc-dev-secret-change-in-production"
  enableCors : Bool := true
  corsOrigin : String := "*"

/-- What `load_gateway_config` assigns. -/
def gatewaySettings : List (Setting R GatewayConfig) :=
  [.mk "bind_address" .string (·.bindAddress) fun v c => { c with bindAddress := v },
    .mk "http_port" (.uint 16) (·.httpPort.toBitVec) fun v c => { c with httpPort := ⟨v⟩ },
    .mk "master_address" .string (·.masterAddress) fun v c => { c with masterAddress := v },
    .mk "master_port" (.uint 16) (·.masterPort.toBitVec) fun v c => { c with masterPort := ⟨v⟩ },
    .mk "log_level" .string (·.logLevel) fun v c => { c with logLevel := v },
    .mk "web_root" .string (·.webRoot) fun v c => { c with webRoot := v },
    .mk "jwt_secret" .string (·.jwtSecret) fun v c => { c with jwtSecret := v },
    .mk "enable_cors" .bool (·.enableCors) fun v c => { c with enableCors := v },
    .mk "cors_origin" .string (·.corsOrigin) fun v c => { c with corsOrigin := v }]

theorem apart_gatewaySettings : (gatewaySettings R).Pairwise Setting.Apart := by
  simp only [gatewaySettings, List.pairwise_cons, List.forall_mem_cons, List.Pairwise.nil,
    List.not_mem_nil, false_imp_iff, implies_true, and_true]
  repeat' constructor
  all_goals
    intro v c
    rfl

/-- What `load_gateway_config` reads. -/
def gatewayLoader : Loader R GatewayConfig where
  root := "gateway"
  defaults := {}
  settings := gatewaySettings R
  apart := apart_gatewaySettings R
  complete := by
    intro c c' h
    simpa [gatewaySettings, GatewayConfig.ext_iff, UInt16.toBitVec_inj, UInt32.toBitVec_inj,
      UInt64.toBitVec_inj] using h
  small := by simp [gatewaySettings, Kind.Small]

variable {R} in
/-- `load_gateway_config`. -/
def loadGatewayConfig (y : YamlCpp R) (path : String) : GatewayConfig :=
  (gatewayLoader R).load y path

end Programs

end ConfigFile

end CertOS
