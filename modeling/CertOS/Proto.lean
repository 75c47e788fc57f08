import Mathlib.Data.Nat.Notation
import Mathlib.Data.Int.Notation

/-!
# The messages of the protocol

The records of `proto/certosc/*.proto` that the master and the agent exchange
and store. A field that is absent in a proto3 message reads as its default, so
every field has one here; enumerations are inductive types, `uint32` and
`uint64` are Lean's `UInt32` and `UInt64`, and time stamps are integers.
-/

namespace CertOS

/-! ### Resources -/

/-- `ResourceSpec`. -/
structure ResourceSpec where
  cpuCores : UInt32 := 0
  ramMb : UInt64 := 0
  gpuCount : UInt32 := 0
  diskMb : UInt64 := 0
  deriving DecidableEq, Inhabited

/-- The three resources the scheduler looks at. -/
inductive Dimension where
  | cpu
  | ram
  | gpu
  deriving DecidableEq

/-- How much of a resource a specification names, as an unbounded number. -/
def ResourceSpec.amount : ResourceSpec → Dimension → ℕ
  | r, .cpu => r.cpuCores.toNat
  | r, .ram => r.ramMb.toNat
  | r, .gpu => r.gpuCount.toNat

/-! ### Jobs -/

/-- `JobStatus`. -/
inductive JobStatus where
  | unspecified
  | submitted
  | queued
  | assigned
  | running
  | completed
  | failed
  | cancelled
  | preempted
  deriving DecidableEq, Inhabited

/-- The statuses a job ends in. -/
def JobStatus.isTerminal : JobStatus → Bool
  | .completed | .failed | .cancelled => true
  | _ => false

/-- The statuses in which a job holds resources of its node. -/
def JobStatus.isActive : JobStatus → Bool
  | .assigned | .running => true
  | _ => false

/-- `JobSpec`. -/
structure JobSpec where
  name : String := ""
  command : String := ""
  args : List String := []
  envVars : List (String × String) := []
  workingDir : String := ""
  resources : ResourceSpec := {}
  timeLimitSeconds : UInt32 := 0
  priority : ℤ := 0
  preemptable : Bool := false
  stdinData : String := ""
  archivePath : String := ""
  isInteractive : Bool := false
  containerImage : String := ""
  deriving DecidableEq, Inhabited

/-- `JobInfo`. -/
structure JobInfo where
  jobId : String := ""
  userId : String := ""
  username : String := ""
  spec : JobSpec := {}
  status : JobStatus := .unspecified
  assignedNodeId : String := ""
  assignedNodeHostname : String := ""
  exitCode : ℤ := 0
  errorMessage : String := ""
  submittedAt : ℤ := 0
  startedAt : ℤ := 0
  completedAt : ℤ := 0
  effectivePriority : ℤ := 0
  allocatedResources : ResourceSpec := {}
  deriving DecidableEq, Inhabited

/-- `JobRequestStatus`. -/
inductive JobRequestStatus where
  | pending
  | approved
  | rejected
  deriving DecidableEq, Inhabited

/-- The number of a request status on the wire and in the database. -/
def JobRequestStatus.toInt : JobRequestStatus → ℤ
  | .pending => 0
  | .approved => 1
  | .rejected => 2

/-- `JobRequest`. -/
structure JobRequest where
  requestId : String := ""
  applicantName : String := ""
  applicantEmail : String := ""
  projectGoal : String := ""
  requestedSpec : JobSpec := {}
  status : JobRequestStatus := .pending
  reviewerId : String := ""
  reviewComment : String := ""
  submittedAt : ℤ := 0
  reviewedAt : ℤ := 0
  deriving DecidableEq, Inhabited

/-! ### Nodes -/

/-- `NodeStatus`. -/
inductive NodeStatus where
  | unspecified
  | online
  | offline
  | draining
  | maintenance
  deriving DecidableEq, Inhabited

/-- `NodeInfo`. -/
structure NodeInfo where
  nodeId : String := ""
  hostname : String := ""
  ipAddress : String := ""
  port : UInt32 := 0
  status : NodeStatus := .unspecified
  totalResources : ResourceSpec := {}
  availableResources : ResourceSpec := {}
  usedResources : ResourceSpec := {}
  registeredAt : ℤ := 0
  lastHeartbeat : ℤ := 0
  osInfo : String := ""
  runningJobs : UInt32 := 0
  runningJobIds : List String := []
  deriving DecidableEq, Inhabited

/-! ### Users -/

/-- `UserRole`. -/
inductive UserRole where
  | unspecified
  | user
  | admin
  | node
  deriving DecidableEq, Inhabited

/-- `UserInfo`. -/
structure UserInfo where
  userId : String := ""
  username : String := ""
  role : UserRole := .unspecified
  quota : ResourceSpec := {}
  createdAt : ℤ := 0
  deriving DecidableEq, Inhabited

/-- `AuthToken`. -/
structure AuthToken where
  accessToken : String := ""
  tokenType : String := ""
  expiresAt : ℤ := 0
  user : UserInfo := {}
  deriving DecidableEq, Inhabited

/-! ### Requests and responses -/

/-- `StatusResponse`. -/
structure StatusResponse where
  success : Bool := false
  message : String := ""
  errorCode : String := ""
  deriving DecidableEq, Inhabited

/-- `CreateUserRequest`. -/
structure CreateUserRequest where
  username : String := ""
  password : String := ""
  role : UserRole := .unspecified
  quota : ResourceSpec := {}
  deriving DecidableEq, Inhabited

/-- `ReviewRequest`. -/
structure ReviewRequest where
  requestId : String := ""
  approve : Bool := false
  comment : String := ""
  deriving DecidableEq, Inhabited

/-- `RegisterNodeRequest`. -/
structure RegisterNodeRequest where
  hostname : String := ""
  ipAddress : String := ""
  port : UInt32 := 0
  totalResources : ResourceSpec := {}
  osInfo : String := ""
  agentVersion : String := ""
  authKey : String := ""
  deriving DecidableEq, Inhabited

/-- `RegisterNodeResponse`. -/
structure RegisterNodeResponse where
  success : Bool := false
  nodeId : String := ""
  message : String := ""
  heartbeatIntervalSeconds : UInt32 := 0
  metricsIntervalSeconds : UInt32 := 0
  deriving DecidableEq, Inhabited

/-- `HeartbeatRequest`, less the usage percentages that no handler reads. -/
structure HeartbeatRequest where
  nodeId : String := ""
  availableResources : ResourceSpec := {}
  runningJobs : UInt32 := 0
  runningJobIds : List String := []
  timestamp : ℤ := 0
  deriving DecidableEq, Inhabited

/-- `HeartbeatResponse`. -/
structure HeartbeatResponse where
  acknowledged : Bool := false
  jobsToCancel : List String := []
  shouldDrain : Bool := false
  message : String := ""
  deriving DecidableEq, Inhabited

/-- `FetchJobRequest`. -/
structure FetchJobRequest where
  nodeId : String := ""
  availableResources : ResourceSpec := {}
  deriving DecidableEq, Inhabited

/-- `FetchJobResponse`. -/
structure FetchJobResponse where
  hasJob : Bool := false
  jobId : String := ""
  spec : JobSpec := {}
  allocatedResources : ResourceSpec := {}
  deriving DecidableEq, Inhabited

/-- `JobStartedReport`. -/
structure JobStartedReport where
  nodeId : String := ""
  jobId : String := ""
  pid : UInt32 := 0
  startedAt : ℤ := 0
  deriving DecidableEq, Inhabited

/-- `JobCompletedReport`. -/
structure JobCompletedReport where
  nodeId : String := ""
  jobId : String := ""
  exitCode : ℤ := 0
  completedAt : ℤ := 0
  stdoutData : List UInt8 := []
  stderrData : List UInt8 := []
  cpuTimeMs : UInt64 := 0
  peakRamMb : UInt64 := 0
  deriving DecidableEq, Inhabited

/-- `JobFailedReport`. -/
structure JobFailedReport where
  nodeId : String := ""
  jobId : String := ""
  errorMessage : String := ""
  exitCode : ℤ := 0
  failedAt : ℤ := 0
  stdoutData : List UInt8 := []
  stderrData : List UInt8 := []
  deriving DecidableEq, Inhabited

/-- `ListJobsResponse`. -/
structure ListJobsResponse where
  jobs : List JobInfo := []
  totalCount : ℕ := 0
  deriving DecidableEq, Inhabited

/-- The codes of `grpc::StatusCode` the handlers use. -/
inductive StatusCode where
  | unauthenticated
  | alreadyExists
  | permissionDenied
  | notFound
  | internal
  | unimplemented
  deriving DecidableEq

/-- A `grpc::Status` that is not `OK`. -/
structure Status where
  code : StatusCode
  message : String
  deriving DecidableEq

end CertOS
