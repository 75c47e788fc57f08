import CertOS.Agent.MasterInside
import CertOS.Gateway.BridgeCalls
import CertOS.Gateway.PublicRequest
import CertOS.Gateway.StaticFiles

/-!
# The whole system

A web client sends a request, a thread of the gateway handles it, and on the way the thread
calls the master, which has an agent at work. `CertOS.web` is that system: its tasks are the
requests of web clients and the tasks of master and agent, and in the program of a request
every call of the bridge is the handler of the master that it reaches
(`CertOS.Web.bridged`), with anything else in between any two steps.

`CertOS.clusterBehindGateway` says that this contains master and agent, in the sense of
`Interleave.Contains`, and which calls a request makes (`CertOS.MakesCall`). So for the two,
a web client is a client like any other (`CertOS.web_refines_cluster`), and their laws hold
with a gateway in front of them.
-/

namespace CertOS

open Interleave

variable {Db Fs : Type}

/-! ### Operations and tasks -/

/-- One atomic step of master and agent, or of the gateway. -/
inductive WebOp where
  /-- A step of the master or of the agent. -/
  | cluster (op : ClusterOp)
  /-- `fs::create_directories`. -/
  | createDirectories (dir : String)
  /-- `std::ofstream`. -/
  | openFile (path : String)
  /-- `write` and `close` of the stream. -/
  | writeFile (path data : String)
  /-- An operation on the files of the web root. -/
  | file (op : FileOp)

/-- What an operation answers. -/
@[reducible] def WebOp.Res : WebOp → Type
  | .cluster op => op.Res
  | .createDirectories _ => Except String Unit
  | .openFile _ => Bool
  | .writeFile .. => Unit
  | .file op => op.Res

/-- A file system without files. -/
def noFiles : (op : FileOp) → op.Res
  | .exists _ | .isDirectory _ => .ok false
  | .readFile _ => ""

/-- What an operation sees of its environment: that of master and agent, and what the file
system of the gateway answers. -/
structure WebEnv where
  cluster : ClusterEnv := {}
  /-- The exception of `create_directories`, if it throws. -/
  directoryFails : Option String := none
  /-- The stream is open. -/
  opens : Bool := true
  files : (op : FileOp) → op.Res := noFiles

/-- A task of the system. -/
inductive WebTask where
  /-- A task behind the gateway, such as a call that does not come through it. -/
  | inside (t : ClusterTask)
  /-- A request of a web client. -/
  | http (req : HttpRequest)

/-- What the gateway answers. -/
inductive HttpReply where
  /-- The response to a request for a file, or an exception that nothing catches. -/
  | file (r : Except String FileResponse)
  | options
  | api (r : HttpResponse)

/-- What a thread ends with. -/
inductive WebReply where
  | inside (r : Reply)
  | http (r : HttpReply)

/-- A thread of the system. -/
abbrev WebProg := Prog WebOp.Res

/-! ### The system -/

namespace Web

variable (L : BridgeJson) (P : Platform Db Fs) (webRoot : String)

/-- A thread of master or agent, as a thread of the system. -/
def onCluster {α : Type} (p : AgentProg α) : WebProg α := p.embed .cluster fun _ r => r

/-- An operation of a handler of the gateway, with the bridge in place. -/
def bridged : (op : GatewayOp) → WebProg op.Res
  | .createDirectories dir => Prog.op (WebOp.createDirectories dir)
  | .openFile path => Prog.op (WebOp.openFile path)
  | .writeFile path data => Prog.op (WebOp.writeFile path data)
  | .bridge call => onCluster (Agent.onMaster (GrpcBridge.perform L P call))

/-- The handling of a request, on a thread of the system. -/
def run : RestRoutes.Handling → WebProg HttpReply
  | .staticFile prog => HttpReply.file <$> prog.embed .file fun _ r => r
  | .options => return .options
  | .api prog => HttpReply.api <$> prog.handle (bridged L P)

/-- `handle_request`. -/
def handleRequest (req : HttpRequest) : WebProg HttpReply :=
  run L P (RestRoutes.handle L.toJsonLibrary webRoot req)

/-- The meaning of the operations. -/
def exec (e : WebEnv) : (op : WebOp) → ClusterState Db Fs → op.Res × ClusterState Db Fs
  | .cluster op, s => s.exec P e.cluster op
  | .createDirectories _, s =>
    ((match e.directoryFails with
      | none => .ok ()
      | some what => .error what), s)
  | .openFile _, s => (e.opens, s)
  | .writeFile .., s => ((), s)
  | .file op, s => (e.files op, s)

end Web

/-- **The gateway, the master and one agent.** -/
def web (L : BridgeJson) (P : Platform Db Fs) (nodeId workDir webRoot : String) :
    System WebOp.Res WebEnv (ClusterState Db Fs) WebTask WebReply where
  exec e op s := Web.exec P e op s
  body
    | .inside t => WebReply.inside <$> Web.onCluster ((cluster P nodeId workDir).body t)
    | .http req => WebReply.http <$> Web.handleRequest L P webRoot req
  forks
    | .cluster op, r => ((cluster P nodeId workDir).forks op r).map .inside
    | _, _ => []

/-- A configuration of the system. -/
abbrev WebConfig (Db Fs : Type) := Config WebOp.Res (ClusterState Db Fs) WebTask WebReply

/-- An event of the system. -/
abbrev WebEvent := Event WebOp.Res WebEnv WebTask

/-- The system when it starts. -/
def webStart (db : Option Db) (adminDb : Db) (fairShare : Fs) : WebConfig Db Fs where
  state := (clusterStart db adminDb fairShare).state
  threads := []

/-! ### Master and agent in it -/

/-- **The calls a request makes**: those of the methods of the bridge that its handler may
come to. -/
def MakesCall (L : BridgeJson) (webRoot : String) (req : HttpRequest) (metadata : Metadata)
    (rpc : Rpc) : Prop :=
  ∃ prog call, RestRoutes.handle L.toJsonLibrary webRoot req = .api prog ∧
    prog.Calls (.bridge call) ∧ GrpcBridge.message L call = .ok (metadata, rpc)

variable (L : BridgeJson) (P : Platform Db Fs) (nodeId workDir webRoot : String)

/-- **Master and agent behind the gateway.** -/
def clusterBehindGateway :
    Contains (cluster P nodeId workDir) (web L P nodeId workDir webRoot) where
  inj := .cluster
  ans _ r := r
  seen
    | .cluster op, r => some ⟨op, r⟩
    | _, _ => none
  state s := s
  env e := e.cluster
  opens
    | .inside t => some t
    | .http _ => none
  calls t' t := ∃ req metadata rpc, t' = .http req ∧ MakesCall L webRoot req metadata rpc ∧
    t = .master (.rpc metadata rpc)
  seen_inj _ _ := rfl
  seen_own
    | .cluster op, _, h => absurd rfl (h op)
    | .createDirectories _, _, _ => rfl
    | .openFile _, _, _ => rfl
    | .writeFile .., _, _ => rfl
    | .file _, _, _ => rfl
  exec_inj _ _ _ := rfl
  exec_own
    | _, .cluster op, _, h => absurd rfl (h op)
    | _, .createDirectories _, _, _ => rfl
    | _, .openFile _, _, _ => rfl
    | _, .writeFile .., _, _ => rfl
    | _, .file _, _, _ => rfl
  forks_inj _ _ := List.forall₂_map_left_iff.mpr (List.forall₂_same.mpr fun _ _ => rfl)
  opens_forks
    | .cluster op, _, h, _, _ => absurd rfl (h op)
    | .createDirectories _, _, _, _, hu => by cases hu
    | .openFile _, _, _, _, hu => by cases hu
    | .writeFile .., _, _, _, hu => by cases hu
    | .file _, _, _, _, hu => by cases hu

/-- A request uses the master properly. -/
theorem client_handleRequest (req : HttpRequest) :
    (clusterBehindGateway L P nodeId workDir webRoot).Client (.http req)
      (Web.handleRequest L P webRoot req) := by
  rw [Web.handleRequest]
  cases hhandle : RestRoutes.handle L.toJsonLibrary webRoot req with
  | staticFile prog =>
    refine Contains.Client.map (.of_only ((Prog.only_true prog).embed.mono fun op' h op => ?_))
    obtain ⟨o, rfl, -⟩ := h
    exact nofun
  | options => exact .ret _
  | api prog =>
    refine Contains.Client.map (.handle fun o ho => ?_)
    cases o with
    | bridge call =>
      change (clusterBehindGateway L P nodeId workDir webRoot).Client _
        (Web.onCluster (Agent.onMaster (GrpcBridge.perform L P call)))
      rw [GrpcBridge.perform]
      cases hmessage : GrpcBridge.message L call with
      | error what => exact .ret _
      | ok message =>
        obtain ⟨metadata, rpc⟩ := message
        rw [Web.onCluster, Agent.onMaster, Prog.embed_map, Prog.embed_map]
        exact Contains.Client.map
          (.of_serve (C := clusterBehindGateway L P nodeId workDir webRoot)
            (t := .master (.rpc metadata rpc)) ⟨req, metadata, rpc, rfl,
              ⟨prog, call, hhandle, ho, hmessage⟩, rfl⟩)
    | createDirectories dir => exact .own nofun fun r => .ret r
    | openFile path => exact .own nofun fun r => .ret r
    | writeFile path data => exact .own nofun fun r => .ret r

/-- **The gateway uses the master properly.** -/
theorem clusterBehindGateway_proper :
    (clusterBehindGateway L P nodeId workDir webRoot).Proper where
  opened t' t h := by
    cases t' with
    | inside t₀ =>
      obtain rfl := Option.some.inj h
      refine ⟨fun a => .ret (.inside a), ?_, fun a => .ret _⟩
      exact Prog.map_eq_bind _ _
    | http req => cases h
  other t' h := by
    cases t' with
    | inside t => cases h
    | http req => exact (client_handleRequest L P nodeId workDir webRoot req).map

/-! ### The runs -/

variable {L P nodeId workDir webRoot}

/-- The calls that have come to the master, apart from those of the agent: calls that do not
come through the gateway, and those that requests make. -/
def Called (L : BridgeJson) (webRoot : String) (es : List WebEvent) (t : Task) : Prop :=
  .start (.inside (.master t)) ∈ es ∨ ∃ req metadata rpc, .start (.http req) ∈ es ∧
    MakesCall L webRoot req metadata rpc ∧ t = .rpc metadata rpc

theorem Called.append {es : List WebEvent} {t : Task} (h : Called L webRoot es t)
    (es' : List WebEvent) : Called L webRoot (es ++ es') t := by
  rcases h with h | ⟨req, metadata, rpc, hstart, hcall, rfl⟩
  · exact Or.inl (List.mem_append_left _ h)
  · exact Or.inr ⟨req, metadata, rpc, List.mem_append_left _ hstart, hcall, rfl⟩

/-- An operation calls nobody. -/
theorem Called.of_snoc {es : List WebEvent} {i : ℕ} {t' : WebTask} {e : WebEnv} {op : WebOp}
    {r : op.Res} {t : Task} (h : Called L webRoot (es ++ [.did i t' e op r]) t) :
    Called L webRoot es t := by
  have hmem {u : WebTask} (hu : Event.start u ∈ es ++ [.did i t' e op r]) : .start u ∈ es := by
    rcases List.mem_append.mp hu with hu | hu
    · exact hu
    · cases List.mem_singleton.mp hu
  rcases h with h | ⟨req, metadata, rpc, hstart, hcall, rfl⟩
  · exact Or.inl (hmem h)
  · exact Or.inr ⟨req, metadata, rpc, hmem hstart, hcall, rfl⟩

/-- **A run of the system is a run of master and agent**, under every guard that goes with one:
with the same operations and answers, and for the calls that have come to the master. -/
theorem cluster_of_web {ok' : WebConfig Db Fs → WebEvent → Prop}
    {ok : ClusterConfig Db Fs → ClusterEvent → Prop}
    (g : (clusterBehindGateway L P nodeId workDir webRoot).Guards ok' ok) {db : Option Db}
    {adminDb : Db} {fairShare : Fs} {es : List WebEvent} {c : WebConfig Db Fs}
    (h : (web L P nodeId workDir webRoot).Run ok' (webStart db adminDb fairShare) es c) :
    ∃ es' d, (cluster P nodeId workDir).Run ok (clusterStart db adminDb fairShare) es' d ∧
      d.state = c.state ∧
      es'.filterMap Event.step =
        es.filterMap (clusterBehindGateway L P nodeId workDir webRoot).seenEvent ∧
      ∀ t, .start (.master t) ∈ es' → Called L webRoot es t := by
  obtain ⟨es', d, hrun, hstate, hes, hserved⟩ :=
    Contains.run (clusterBehindGateway_proper L P nodeId workDir webRoot) g h
  refine ⟨es', d, hrun, hstate, Contains.steps_of_same hes, fun t ht => ?_⟩
  obtain ⟨th, hth, htask⟩ := hrun.exists_thread ht
  obtain ⟨th', hth', hserves⟩ := hserved th hth
  rw [htask] at hserves
  have hstarted := h.started_or_forked rfl th' hth'
  generalize th'.task = t' at hserves hstarted
  rcases hserves with hopens | ⟨req, metadata, rpc, rfl, hcall, heq⟩
  · cases t' with
    | inside t₀ =>
      obtain rfl : t₀ = .master t := Option.some.inj hopens
      rcases hstarted with hstarted | ⟨op, r, hforks⟩
      · exact Or.inl hstarted
      · -- the threads that are started behind the gateway are those of jobs
        cases op with
        | cluster o =>
          obtain ⟨u, hu, heq⟩ := List.mem_map.mp hforks
          obtain ⟨jobId, spec, rfl⟩ := execution_of_forks P nodeId workDir hu
          cases heq
        | _ => cases hforks
    | http req => cases hopens
  · rcases hstarted with hstarted | ⟨op, r, hforks⟩
    · cases heq
      exact Or.inr ⟨req, metadata, rpc, hstarted, hcall, rfl⟩
    · cases op with
      | cluster o =>
        obtain ⟨u, -, heq⟩ := List.mem_map.mp hforks
        cases heq
      | _ => cases hforks

/-- No thread of such a task behind the gateway is under way. -/
def idleInside (q : ClusterTask → Bool) (c : WebConfig Db Fs) : Bool :=
  c.threads.all fun th =>
    match th.task with
    | .inside t => !(q t && th.result.isNone)
    | .http _ => true

/-- **The wiring of the whole system**: requests and calls arrive at any time; the passes of
the scheduler, the heartbeats and the polling rounds each come one after the other;
nothing else is started. -/
def webWired (c : WebConfig Db Fs) : WebEvent → Bool
  | .start (.http _) | .start (.inside (.master (.rpc _ _))) => true
  | .start (.inside (.master (.schedulePass _))) =>
    idleInside (fun | .master (.schedulePass _) => true | _ => false) c
  | .start (.inside .heartbeat) => idleInside (fun | .heartbeat => true | _ => false) c
  | .start (.inside .polling) => idleInside (fun | .polling => true | _ => false) c
  | .start _ => false
  | .did .. => true

/-- Fresh job identifiers, in the whole system. -/
def freshWebJobId (c : WebConfig Db Fs) : WebEvent → Bool
  | .did _ _ _ (.cluster (.master (.job (.submitJob _ _ _)))) jobId =>
    (c.state.master.jobMgr.jobs.lookup jobId).isNone
  | _ => true

/-- What is idle behind the gateway is idle in the run of master and agent. -/
theorem idle_of_covered {c : WebConfig Db Fs} {d : ClusterConfig Db Fs} {q : ClusterTask → Bool}
    (hcov : (clusterBehindGateway L P nodeId workDir webRoot).Covered c d)
    (hq : ∀ metadata rpc, q (.master (.rpc metadata rpc)) = false)
    (h : idleInside q c = true) : idle q d = true := by
  refine List.all_eq_true.mpr fun th hth => ?_
  obtain ⟨t, p⟩ := th
  cases p with
  | ret a => simp [Thread.result]
  | call op k =>
    obtain ⟨t', p', hmem, hserves⟩ := hcov t op k hth
    have hidle := List.all_eq_true.mp h _ hmem
    rcases hserves with hopens | ⟨req, metadata, rpc, -, -, rfl⟩
    · cases t' with
      | inside t₀ =>
        obtain rfl : t₀ = t := Option.some.inj hopens
        exact hidle
      | http req => cases hopens
    · simp [hq]

/-- The wiring of the system is that of master and agent, for the part that they are. -/
theorem clusterBehindGateway_guards :
    (clusterBehindGateway L P nodeId workDir webRoot).Guards
      (fun c ev => webWired c ev = true ∧ freshWebJobId c ev = true)
      (fun c ev => clusterWired c ev = true ∧ freshClusterJobId c ev = true) where
  opened c d t' t hcov ho hok := by
    cases t' with
    | inside t₀ =>
      obtain rfl : t₀ = t := Option.some.inj ho
      refine ⟨?_, rfl⟩
      cases t₀ with
      | master t₁ =>
        cases t₁ with
        | rpc metadata call => rfl
        | schedulePass sort => exact idle_of_covered hcov (fun _ _ => rfl) hok.1
        | _ => cases hok.1
      | heartbeat => exact idle_of_covered hcov (fun _ _ => rfl) hok.1
      | polling => exact idle_of_covered hcov (fun _ _ => rfl) hok.1
      | execution jobId spec => cases hok.1
    | http req => cases ho
  called d t' t h := by
    obtain ⟨req, metadata, rpc, -, -, rfl⟩ := h
    exact ⟨rfl, rfl⟩
  did c d i j t' t e op r hstate hcov hok := by
    refine ⟨rfl, ?_⟩
    cases op with
    | master op =>
      cases op with
      | job o =>
        cases o with
        | submitJob spec userId username =>
          simp only [freshClusterJobId, hstate]
          exact hok.2
        | _ => rfl
      | _ => rfl
    | _ => rfl

/-- **The gateway refines what is behind it**: for master and agent, a run of the whole system
as it is wired is a run of the two as they are wired, to the same state, with the same
operations and answers in the same order; and every call in it that is not the agent's
has come from outside, or is one that a web client's request makes. -/
theorem web_refines_cluster {db : Option Db} {adminDb : Db} {fairShare : Fs} {es : List WebEvent}
    {c : WebConfig Db Fs}
    (h : (web L P nodeId workDir webRoot).Run
      (fun c ev => webWired c ev = true ∧ freshWebJobId c ev = true)
      (webStart db adminDb fairShare) es c) :
    ∃ es' d, (cluster P nodeId workDir).Run
        (fun c ev => clusterWired c ev = true ∧ freshClusterJobId c ev = true)
        (clusterStart db adminDb fairShare) es' d ∧ d.state = c.state ∧
      es'.filterMap Event.step =
        es.filterMap (clusterBehindGateway L P nodeId workDir webRoot).seenEvent ∧
      ∀ t, .start (.master t) ∈ es' → Called L webRoot es t :=
  cluster_of_web clusterBehindGateway_guards h

/-! ### A visitor's request -/

/-- The library of `CertOS.visitorsLibrary`, with the exceptions of the bridge. -/
def visitorsJson : BridgeJson :=
  { visitorsLibrary with
    notConvertible := "value is not a string [boost.json:32]"
    outOfRange := "out of range [boost.json:18]" }

/-- A visitor's request for computing time. -/
def visitorsPost : HttpRequest where
  method := .post
  target := "/api/v1/public/request"
  body := visitorsText
  size := by decide

/-- The request is sent, and handled at time 100. -/
def visitorsSchedule : List (Choice WebEnv WebTask) :=
  .start (.http visitorsPost) ::
    List.replicate 3 (.move 0 { cluster := { master := { now := 100 } } })

/-- The law at work: a visitor's request is stored, and behind the gateway that was a call of
`SubmitPublicRequest`. -/
theorem web_refines_cluster_visitor : ∃ es c es' d,
    (web visitorsJson visitorsPlatform "node-00000000" "/work" "web").Run
        (fun c ev => webWired c ev = true ∧ freshWebJobId c ev = true)
        (webStart none {} ()) es c ∧
      (cluster visitorsPlatform "node-00000000" "/work").Run
        (fun c ev => clusterWired c ev = true ∧ freshClusterJobId c ev = true)
        (clusterStart none {} ()) es' d ∧
      (d.state.master.adminDb.jobRequests.lookup "req-100-0").isSome = true := by
  obtain ⟨es, c, hrun, hc⟩ := System.exists_run
    (S := web visitorsJson visitorsPlatform "node-00000000" "/work" "web")
    (g := fun c ev => webWired c ev && freshWebJobId c ev) (c := webStart none {} ())
    (p := fun c => (c.state.master.adminDb.jobRequests.lookup "req-100-0").isSome)
    visitorsSchedule (by decide +kernel)
  have hrun' := hrun.mono fun c ev hg => (Bool.and_eq_true _ _).mp hg
  obtain ⟨es', d, hinside, hstate, -⟩ := web_refines_cluster hrun'
  exact ⟨es, c, es', d, hrun', hinside, by rw [hstate]; exact hc⟩

end CertOS
