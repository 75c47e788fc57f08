import CertOS.Proto

/-!
# Tokens, roles and the interceptor

`lib/auth`. A token is validated by `JwtManager::validate_token`, which is a
call into jwt-cpp and stays a parameter; the permission table of `RbacManager`
and the interceptor are here.

`CertOS.intercept` is `AuthInterceptor::Intercept`. A gRPC interceptor hands the
call on with `Proceed`, and this one does so on every path: a missing header
and an invalid token are logged, and the decision is left to the handlers.
-/

namespace CertOS

/-! ### Roles and permissions -/

/-- `Permission`. -/
inductive Permission where
  | jobSubmit
  | jobViewOwn
  | jobViewAll
  | jobCancelOwn
  | jobCancelAll
  | jobSetPriority
  | nodeView
  | nodeDrain
  | nodeManage
  | userView
  | userCreate
  | userDelete
  | clusterView
  | clusterManage
  | nodeRegister
  | nodeHeartbeat
  | nodeReport
  deriving DecidableEq

/-- `init_default_roles`: the permissions of a role, if it is one. -/
def rolePermissions (role : String) : Option (List Permission) :=
  if role = "user" then
    some [.jobSubmit, .jobViewOwn, .jobCancelOwn, .nodeView, .clusterView]
  else if role = "admin" then
    some [.jobSubmit, .jobViewOwn, .jobViewAll, .jobCancelOwn, .jobCancelAll, .jobSetPriority,
      .nodeView, .nodeDrain, .nodeManage, .userView, .userCreate, .userDelete, .clusterView,
      .clusterManage]
  else if role = "node" then
    some [.nodeRegister, .nodeHeartbeat, .nodeReport]
  else none

/-- `has_permission`. -/
def hasPermission (role : String) (perm : Permission) : Bool :=
  match rolePermissions role with
  | none => false
  | some perms => perms.contains perm

/-! ### The interceptor -/

/-- `TokenClaims`. -/
structure TokenClaims where
  userId : String := ""
  username : String := ""
  role : String := ""
  expiresAt : ℤ := 0
  issuedAt : ℤ := 0
  deriving DecidableEq

/-- The metadata of a call: header names with their values. -/
abbrev Metadata := List (String × String)

/-- `public_methods_`. -/
def publicMethods : List String :=
  ["/certosc.MasterService/Login",
    "/certosc.MasterService/SubmitPublicRequest",
    "/certosc.MasterService/UpdateJobRequest",
    "/certosc.AgentService/RegisterNode",
    "/certosc.AgentService/SendHeartbeat"]

/-- The value of the authorization header, with the prefix `Bearer ` stripped
if it has one. -/
def stripBearer (authValue : String) : String :=
  if "Bearer ".toList <+: authValue.toList then String.ofList (authValue.toList.drop 7)
  else authValue

/-- What the interceptor makes of a call: whether it hands it on, and the
claims it found. -/
structure Interception where
  proceeds : Bool
  claims : Option TokenClaims

/-- `AuthInterceptor::Intercept`. -/
def intercept (validateToken : String → Option TokenClaims) (methodName : String)
    (metadata : Metadata) : Interception :=
  if methodName ∈ publicMethods then ⟨true, none⟩
  else
    match metadata.lookup "authorization" with
    -- the handler is expected to look at the context
    | none => ⟨true, none⟩
    | some authValue => ⟨true, validateToken (stripBearer authValue)⟩

/-- The interceptor hands every call on. -/
@[simp] theorem intercept_proceeds (validateToken : String → Option TokenClaims)
    (methodName : String) (metadata : Metadata) :
    (intercept validateToken methodName metadata).proceeds = true := by
  rw [intercept]
  split
  · rfl
  · split <;> rfl

end CertOS
