import CertOS.Gateway.GrpcBridge
import CertOS.Master.Attribution

/-!
# A user's own token

`Login` answers with a token made of a marker and the name of the user. The gateway sends the
token after `Bearer `, and `SubmitJob` reads the name that follows the first marker in the
header. There is no letter of the marker in front of the token, and what follows the marker
is the whole name, so the name that is read is the one that has logged in, even if it
contains the marker itself (`CertOS.token_identifies`).
-/

namespace CertOS

open Interleave

variable {Db Fs : Type} {P : Platform Db Fs}

/-- **What a login returns**: whatever the database answers, a token is the marker and the
name. -/
theorem returns_login (u p : String) :
    (MasterService.login u p).Returns fun r =>
      ∀ tok, r = .ok tok → tok.accessToken = MasterService.tokenMarker ++ u := by
  refine Prog.Returns.op_bind fun dbPass => ?_
  split
  · refine Prog.Returns.op_bind fun dbRole => ?_
    rintro tok ⟨⟩
    rfl
  · rintro tok ⟨⟩

/-- The token of a login that runs alone. -/
theorem accessToken_of_login {metadata : Metadata} {u p : String} {e : ℕ → Env}
    {s : MasterState Db Fs} {tok : AuthToken}
    (h : (runTask P (.rpc metadata (.login u p)) e s).1 = .authToken tok) :
    tok.accessToken = MasterService.tokenMarker ++ u := by
  rw [runTask, master_body_rpc, Rpc.handle, Prog.run_map] at h
  have hret := (returns_login u p).run (MasterState.exec P) e s
  cases hr : ((MasterService.login u p).run (MasterState.exec P) e s).1 with
  | error status =>
    rw [hr] at h
    cases h
  | ok tok' =>
    rw [hr] at h
    obtain rfl := Reply.authToken.inj h
    exact hret tok' hr

/-- The header of a token names its user. -/
theorem callerName_setupContext (u : String) :
    MasterService.callerName (GrpcBridge.setupContext (MasterService.tokenMarker ++ u)) = u := by
  have hne : MasterService.tokenMarker ++ u ≠ "" := by
    intro h
    have hlist := congrArg String.toList h
    rw [String.toList_append] at hlist
    cases hlist
  rw [callerName_eq, GrpcBridge.setupContext, if_neg hne, authorization]
  exact congrArg (fun name => Option.getD name "unknown") (markedName_token u)

/-- The reply to a submission, from the job that is looked up after it. -/
def submittedReply : Option JobInfo → Reply
  | some info => .jobInfo info
  | none => .error ⟨.internal, "Failed to retrieve submitted job"⟩

/-- **A submission with a user's token** submits the job under the name of the user, and then
looks it up. -/
theorem body_submitJob_token (u : String) (spec : JobSpec) :
    (master P).body (.rpc (GrpcBridge.setupContext (MasterService.tokenMarker ++ u))
        (.submitJob spec)) =
      .call (.job (.submitJob spec u u)) fun jobId => .call (.job (.getJob jobId)) fun job =>
        .ret (submittedReply job) := by
  rw [master_body_rpc, Rpc.handle, MasterService.submitJob, callerName_setupContext]
  refine congrArg (Prog.call _) (funext fun jobId => congrArg (Prog.call _) (funext fun job => ?_))
  cases job with
  | none => rfl
  | some info => rfl

/-- **A user's own token identifies him**: a job that is submitted through the gateway with
the token of a login is stored under exactly the name that has logged in. -/
theorem token_identifies {metadata : Metadata} {u p : String} {e : ℕ → Env}
    {s : MasterState Db Fs} {tok : AuthToken}
    (hlogin : (runTask P (.rpc metadata (.login u p)) e s).1 = .authToken tok) (spec : JobSpec)
    (e' : ℕ → Env) (s' : MasterState Db Fs) :
    ∃ info, (runTask P (.rpc (GrpcBridge.setupContext tok.accessToken) (.submitJob spec))
        e' s').1 = .jobInfo info ∧
      (runTask P (.rpc (GrpcBridge.setupContext tok.accessToken) (.submitJob spec))
        e' s').2.jobMgr.jobs.lookup info.jobId = some info ∧
      info.spec = spec ∧ info.userId = u ∧ info.username = u := by
  rw [accessToken_of_login hlogin, runTask, body_submitJob_token, Prog.run_call, Prog.run_call]
  have hstored : (s'.exec P (e' 0) (.job (.submitJob spec u u))).2.jobMgr.jobs.lookup
      (shortId "job-" (e' 0).uuid) =
        some (JobManager.newJob (e' 0).now (shortId "job-" (e' 0).uuid) spec u u) :=
    AList.lookup_insert _
  exact ⟨JobManager.newJob (e' 0).now (shortId "job-" (e' 0).uuid) spec u u,
    congrArg submittedReply hstored, hstored, rfl, rfl, rfl⟩

/-- A master with the account of somebody whose name contains the marker. -/
def markedMaster : MasterState Tables Unit :=
  (masterStart none { kvStore := AList.insert "user:mock-jwt-for-ann" "p6" ∅ } ()).state

/-- The law at work: the name contains the marker, and the job belongs to it. -/
theorem token_identifies_marked : ∃ tok info,
    (runTask barePlatform (.rpc [] (.login "mock-jwt-for-ann" "p6")) (fun _ => {})
      markedMaster).1 = .authToken tok ∧
    (runTask barePlatform (.rpc (GrpcBridge.setupContext tok.accessToken) (.submitJob {}))
      (fun _ => {}) markedMaster).1 = .jobInfo info ∧
    info.userId = "mock-jwt-for-ann" ∧ info.username = "mock-jwt-for-ann" := by
  have hlogin : (runTask barePlatform (.rpc [] (.login "mock-jwt-for-ann" "p6")) (fun _ => {})
      markedMaster).1 = .authToken
        { accessToken := "mock-jwt-for-mock-jwt-for-ann"
          tokenType := "Bearer"
          user := { username := "mock-jwt-for-ann", role := .user } } := by
    decide +kernel
  obtain ⟨info, hreply, -, -, huser, hname⟩ :=
    token_identifies hlogin {} (fun _ => {}) markedMaster
  exact ⟨_, info, hlogin, hreply, huser, hname⟩

end CertOS
