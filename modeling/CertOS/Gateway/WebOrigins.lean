import CertOS.Agent.Provenance
import CertOS.Gateway.WebRequests
import CertOS.Master.Origins

/-!
# From the request to the process

In the whole system, a process that the agent forks can be traced back to somebody who has
asked for it. The agent forks what the master has handed it, the master hands out what was
submitted, and what was submitted was asked for: by a call of `SubmitJob`, from a web client
or not, or by a request for computing time that was approved
(`CertOS.fork_asked_for`). The three parts of the trail are laws of three systems, and it is
the refinements between these that put them together.

What an administrator is shown before he approves can be traced back in the same way
(`CertOS.requests_shown`).
-/

namespace CertOS

open Interleave

variable {Fs : Type} {P : Platform Tables Fs} {E : SqlEngine} {nodeId workDir webRoot : String}
  {L : BridgeJson}
  {db : Option Tables} {adminDb : Tables} {fairShare : Fs}

/-! ### Master and agent -/

/-- No text leaves its literal in this step of master and agent. -/
def clusterContained : ClusterEvent → Bool
  | .did _ _ _ (.master op) _ => op.contained
  | _ => true

/-- No text leaves its literal in this step of the whole system. -/
def webContained : WebEvent → Bool
  | .did _ _ _ (.cluster (.master op)) _ => op.contained
  | _ => true

theorem masterInside_contained : (masterInside P nodeId workDir).Guards
    (fun _ ev => clusterContained ev = true) (fun _ ev => contained ev = true) where
  opened _ _ _ _ _ _ _ := rfl
  called _ _ _ _ := rfl
  did _ _ _ _ _ _ _ _ _ _ _ hok := hok

theorem clusterBehindGateway_contained : (clusterBehindGateway L P nodeId workDir webRoot).Guards
    (fun _ ev => webContained ev = true) (fun _ ev => clusterContained ev = true) where
  opened _ _ _ _ _ _ _ := rfl
  called _ _ _ _ := rfl
  did _ _ _ _ _ _ _ op _ _ _ hok := by
    cases op with
    | master op => exact hok
    | _ => rfl

/-- The agent inserts no request, writes none back, and submits no job. -/
theorem not_records_of_isAgents {metadata : Metadata} {call : Rpc} (h : call.isAgents = true) :
    (Task.rpc metadata call).records = false := by
  cases call with
  | sendHeartbeat | fetchJob | reportJobStarted | reportJobCompleted | reportJobFailed => rfl
  | _ => cases h

/-- Everything in the tables of the master can be explained, with an agent at work. -/
theorem origins_of_cluster (hP : P.store = sqlStore E) (hJ : P.json.Lawful)
    (h₀ : Readable P.json adminDb) {T : Task → Prop} {es : List ClusterEvent}
    {c : ClusterConfig Tables Fs} (hT : ∀ t, .start (.master t) ∈ es → T t)
    (h : (cluster P nodeId workDir).Run
      (fun c ev => (clusterWired c ev = true ∧ freshClusterJobId c ev = true) ∧
        clusterContained ev = true)
      (clusterStart db adminDb fairShare) es c) : Origins P.json adminDb T c.state.master := by
  obtain ⟨es', d, hmaster, hstate, -, hcalled⟩ :=
    master_of_cluster (masterInside_guards.and masterInside_contained) h
  have hkv : ∀ ev ∈ es', contained ev = true := hmaster.forall_mem fun _ _ hev => hev.2
  have horigins := Origins.run hP hJ (Origins.start h₀) rfl (fun _ ht => ht) hkv hmaster
  rw [← hstate]
  refine horigins.mono fun t hrecords ht => ?_
  rcases hcalled t ht with hstart | ⟨call, hagents, rfl⟩
  · exact hT t hstart
  · rw [not_records_of_isAgents hagents] at hrecords
    cases hrecords

/-- **A job that was submitted was asked for.** -/
theorem asked_of_submits (hP : P.store = sqlStore E) (hJ : P.json.Lawful)
    (h₀ : Readable P.json adminDb) {T : Task → Prop} {es : List ClusterEvent}
    {c : ClusterConfig Tables Fs} (hT : ∀ t, .start (.master t) ∈ es → T t)
    (h : (cluster P nodeId workDir).Run
      (fun c ev => (clusterWired c ev = true ∧ freshClusterJobId c ev = true) ∧
        clusterContained ev = true)
      (clusterStart db adminDb fairShare) es c) {j : String} {spec : JobSpec} {ev : ClusterEvent}
    (hev : ev ∈ es) (hsub : clusterSubmits j spec ev) :
    ∃ userId username, AskedFor P.json adminDb T spec userId username := by
  obtain ⟨es₁, es₂, rfl⟩ := List.append_of_mem hev
  obtain ⟨i, t, e, userId, username, rfl⟩ := hsub
  obtain ⟨c₁, c', hrun, hok, hs, -⟩ := h.split
  have horigins := origins_of_cluster hP hJ h₀ (T := T) (fun t ht => by
    rcases List.mem_append.mp ht with ht | ht
    · exact hT t (List.mem_append_left _ ht)
    · cases List.mem_singleton.mp ht) (hrun.snoc hok hs)
  -- the record of the job is there right after the submission
  obtain ⟨k, -, hr, rfl⟩ := hs.did_inv
  have hlookup : (c₁.state.master.exec P e.master
      (.job (.submitJob spec userId username))).2.jobMgr.jobs.lookup j =
        some (JobManager.newJob e.master.now j spec userId username) := by
    rw [hr]
    exact AList.lookup_insert _
  exact ⟨userId, username, horigins.jobs j _ hlookup⟩

/-! ### The whole system -/

/-- **A process was asked for**: in every run of gateway, master and agent as they are wired,
with fresh identifiers, every attempt to fork is made in the directory and with the
arguments that a specification asks for, and somebody has asked for a job with this
specification before. -/
theorem fork_asked_for (hP : P.store = sqlStore E) (hJ : P.json.Lawful)
    (h₀ : Readable P.json adminDb) {es₁ es₂ : List WebEvent} {c : WebConfig Tables Fs} {i : ℕ}
    {t : WebTask} {e : WebEnv} {dir : Option String} {args : List String} {r : Option ℕ}
    (h : (web L P nodeId workDir webRoot).Run
      (fun c ev => (webWired c ev = true ∧ freshWebJobId c ev = true) ∧ webContained ev = true)
      (webStart db adminDb fairShare)
      (es₁ ++ .did i t e (.cluster (.executor (.fork dir args))) r :: es₂) c) :
    ∃ j spec userId username, dir = JobExecutor.childDir workDir j spec ∧
      args = JobExecutor.childArgs workDir j spec ∧
      AskedFor P.json adminDb (Called L webRoot es₁) spec userId username := by
  obtain ⟨c₁, c', hrun, hok, hs, -⟩ := h.split
  obtain ⟨es', d, hinside, -, hes, hcalled⟩ :=
    cluster_of_web (clusterBehindGateway_guards.and clusterBehindGateway_contained)
      (hrun.snoc hok hs)
  -- the fork is one of the run of master and agent
  have hfork : (e.cluster, (⟨.executor (.fork dir args), r⟩ : (op : ClusterOp) × op.Res)) ∈
      es'.filterMap Event.step := by
    rw [hes, List.filterMap_append]
    exact List.mem_append_right _ List.mem_cons_self
  obtain ⟨ev, hev, hstep⟩ := List.mem_filterMap.mp hfork
  cases ev with
  | start u => cases hstep
  | did k u e' op r' =>
    cases hstep
    obtain ⟨as, bs, rfl⟩ := List.append_of_mem hev
    obtain ⟨d₁, d', hbefore, -, hforks, -⟩ := hinside.split
    obtain ⟨ps, hplaced, htraced⟩ := traced_of_run (hbefore.mono fun _ _ hg => hg.1)
    obtain ⟨j, spec, -, hmem, hdir, hargs⟩ := hplaced.fork_inv hforks
    obtain ⟨ev', hev', hsub⟩ := (htraced _ hmem : Ordered nodeId as j spec).submitted
    obtain ⟨userId, username, hask⟩ := asked_of_submits hP hJ h₀
      (fun t ht => hcalled t (List.mem_append_left _ ht)) hbefore hev' hsub
    refine ⟨j, spec, userId, username, hdir, hargs, hask.mono fun t _ ht => ?_⟩
    exact ht.of_snoc

/-! ### A job from a web client -/

/-- What a web client sends to submit a job. -/
def jobText : String := "\x7b\"name\":\"Ann's job\",\"command\":\"a.out\"\x7d"

/-- The library, known at this text. -/
def jobJson : BridgeJson :=
  { visitorsJson with
    parse := fun text =>
      if text = jobText then
        .ok (.object [("name", .string "Ann's job"), ("command", .string "a.out")])
      else .error "syntax error [boost.json:1]" }

/-- Ann submits a job. -/
def jobPost : HttpRequest where
  method := .post
  target := "/api/v1/jobs"
  authorization := some "Bearer mock-jwt-for-ann"
  body := jobText
  size := by decide

/-- An agent registers, Ann submits a job, a pass assigns it, and the agent fetches it and
forks. -/
def jobSchedule : List (Choice WebEnv WebTask) :=
  .start (.inside (.master (.rpc [] (.registerNode agentRegistration)))) :: .move 0 {} ::
    .start (.http jobPost) :: List.replicate 2 (.move 1 {}) ++
    .start (.inside (.master (.schedulePass .id))) :: List.replicate 4 (.move 2 {}) ++
    .start (.inside .polling) :: List.replicate 2 (.move 3 {}) ++ List.replicate 2 (.move 4 {})

/-- The event forks a process with these arguments. -/
def forksWith (args : List String) : WebEvent → Bool
  | .did _ _ _ (.cluster (.executor (.fork _ args'))) _ => args' = args
  | _ => false

/-- The law at work: Ann's job is forked, and it was asked for. -/
theorem fork_asked_for_ann : ∃ es ev c spec userId username,
    (web jobJson sqlPlatform "node-00000000" "/work" "web").Run
        (fun c ev => (webWired c ev = true ∧ freshWebJobId c ev = true) ∧ webContained ev = true)
        (webStart none {} ()) (es ++ [ev]) c ∧
      forksWith ["a.out"] ev = true ∧
      AskedFor sqlPlatform.json {} (Called jobJson "web" es) spec userId username := by
  obtain ⟨es, c, hrun, hp⟩ := System.exists_trace
    (S := web jobJson sqlPlatform "node-00000000" "/work" "web")
    (g := fun c ev => (webWired c ev && freshWebJobId c ev) && webContained ev)
    (c := webStart none {} ())
    (p := fun es _ => es.getLast?.any (forksWith ["a.out"])) jobSchedule (by decide +kernel)
  obtain ⟨ev, hev, hforks⟩ := (Option.any_eq_true _ _).mp hp
  have hrun' := hrun.mono fun c ev hg => by simpa only [Bool.and_eq_true] using hg
  rw [← List.dropLast_append_getLast? ev hev] at hrun'
  have hlawful : sqlPlatform.json.Lawful :=
    ⟨fun _ _ h => (by cases h), fun _ _ h => (by cases h), rfl⟩
  cases ev with
  | start t => cases hforks
  | did i t e op r =>
    cases op with
    | cluster op =>
      cases op with
      | executor op =>
        cases op with
        | fork dir args =>
          obtain ⟨j, spec, userId, username, -, -, hask⟩ :=
            fork_asked_for rfl hlawful (readable_empty _) hrun'
          exact ⟨_, _, c, spec, userId, username, hrun', hforks, hask⟩
        | _ => cases hforks
      | _ => cases hforks
    | _ => cases hforks

/-! ### What an administrator is shown -/

section Shown

open RestRoutes

variable {req : HttpRequest}

/-- A path starts as the target does. -/
theorem startsWith_target {head : String} (h : startsWith head (normPath req) = true) :
    startsWith head req.target.toList = true := by
  have hprefix : normPath req <+: req.target.toList := by
    rw [normPath]
    split
    · exact List.dropLast_prefix _
    · exact List.prefix_refl _
  exact decide_eq_true (Text.find_eq_zero.mpr
    ((Text.find_eq_zero.mp (of_decide_eq_true h)).trans hprefix))

/-- The request lists the requests for computing time. -/
structure IsListing (req : HttpRequest) : Prop where
  method : req.method = .get
  path : normPath req = "/api/v1/admin/requests".toList

theorem apiRoutes_of_isListing {L : JsonLibrary} (h : IsListing req) :
    apiRoutes L req = respond (.adminListRequests (bearerToken req)) := by
  have hpost : req.method ≠ .post := by
    rw [h.method]
    decide
  have hdelete : req.method ≠ .delete := by
    rw [h.method]
    decide
  have hother {path : List Char} (hne : "/api/v1/admin/requests".toList ≠ path) :
      normPath req ≠ path := by
    rw [h.path]
    exact hne
  rw [apiRoutes, if_neg fun hc => hpost hc.1, if_neg fun hc => hpost hc.1,
    if_neg fun hc => hpost hc.1, if_neg fun hc => hother (by decide) hc.2,
    if_neg fun hc => hother (by decide) hc.2, if_neg fun hc => hother (by decide) hc.2,
    if_neg fun hc => hpost hc.1, if_neg fun hc => hdelete hc.1, if_pos ⟨h.method, h.path⟩]

/-- What a listing answers, from the rows it has got. -/
def listingResponse (J : JsonCodec) (rows : List (String × String)) : HttpResponse where
  status := .ok
  body := GrpcBridge.requestsReply (.requests (rows.map fun row => (J.parse row.2).getD {}))

theorem perform_adminListRequests (token : String) :
    GrpcBridge.perform L P (.adminListRequests token) =
      .call (.store .listRequests) fun rows =>
        .ret (.ok (listingResponse P.json rows).body) := by
  change (fun reply => Except.ok (GrpcBridge.requestsReply reply)) <$>
    serve P (GrpcBridge.setupContext token) .adminListRequests = _
  rw [serve_eq_handle]
  rfl

/-- A listing is one operation of the master. -/
theorem body_of_isListing (h : IsListing req) :
    (web L P nodeId workDir webRoot).body (.http req) =
      .call (.cluster (.master (.store .listRequests))) fun rows =>
        .ret (.http (.api (listingResponse P.json rows))) := by
  have hapi : startsWith "/api/" req.target.toList = true := startsWith_target (by
    rw [h.path]
    decide)
  have hoptions : req.method ≠ .options := by
    rw [h.method]
    decide
  have hhandle : RestRoutes.handle L.toJsonLibrary webRoot req =
      .api (respond (.adminListRequests (bearerToken req))) := by
    rw [RestRoutes.handle, if_neg (not_not_intro hapi), if_neg hoptions,
      apiRoutes_of_isListing h]
  change WebReply.http <$> Web.run L P (RestRoutes.handle L.toJsonLibrary webRoot req) = _
  rw [hhandle]
  change WebReply.http <$> HttpReply.api <$> (Web.onCluster (Agent.onMaster
    (GrpcBridge.perform L P (.adminListRequests (bearerToken req)))) >>= _) = _
  rw [perform_adminListRequests]
  rfl

/-- **What an administrator is shown was sent in**: in every run of gateway, master and agent
as they are wired, what a web client gets for a listing of the requests is made from
records that can be explained, each of them by the calls that had come to the master. -/
theorem requests_shown (hP : P.store = sqlStore E) (hJ : P.json.Lawful)
    (h₀ : Readable P.json adminDb) (hreq : IsListing req) {es : List WebEvent}
    {c : WebConfig Tables Fs} {i : ℕ} {resp : HttpResponse}
    (h : (web L P nodeId workDir webRoot).Run
      (fun c ev => (webWired c ev = true ∧ freshWebJobId c ev = true) ∧ webContained ev = true)
      (webStart db adminDb fairShare) es c)
    (hi : c.threads[i]? = some ⟨.http req, .ret (.http (.api resp))⟩) :
    ∃ rs, resp = { status := .ok, body := GrpcBridge.requestsReply (.requests rs) } ∧
      ∀ r ∈ rs, Explained P.json adminDb (Called L webRoot es) (cStr r.requestId) r := by
  -- the thread has performed one operation, and its answer is the response
  have hpath := h.path rfl hi
  rw [body_of_isListing hreq] at hpath
  obtain ⟨rows, l, hown, hret⟩ := hpath.call_inv
  obtain ⟨-, hresp⟩ := Prog.path_ret_ret.mp hret
  cases hresp
  refine ⟨_, rfl, fun r hr => ?_⟩
  obtain ⟨⟨k, data⟩, hrow, rfl⟩ := List.mem_map.mp hr
  obtain ⟨es₁, es₂, c₁, t, e, rfl, hrun, hrows⟩ :=
    h.exists_of_own (hown ▸ List.mem_cons_self)
  -- the rows are those of a state in which everything can be explained
  obtain ⟨es', d, hinside, hstate, -, hcalled⟩ :=
    cluster_of_web (clusterBehindGateway_guards.and clusterBehindGateway_contained) hrun
  have horigins := origins_of_cluster hP hJ h₀ hcalled hinside
  rw [hstate] at horigins
  have hlist : (k, data) ∈ (c₁.state.master.exec P e.cluster.master (.store .listRequests)).1 :=
    hrows ▸ hrow
  simp only [MasterState.exec_store, hP, sqlStore] at hlist
  obtain ⟨row, hlookup, rfl⟩ : ∃ row, c₁.state.master.adminDb.jobRequests.lookup k = some row ∧
      row.data = data := by
    cases hok : e.cluster.master.sqliteOk with
    | false =>
      rw [hok] at hlist
      cases hlist
    | true =>
      rw [hok] at hlist
      exact StateStore.mem_listRequests.mp hlist
  obtain ⟨r, hparse, rfl, hr⟩ := horigins.requests k row hlookup
  dsimp only
  rw [hparse, Option.getD_some]
  exact hr.mono fun t _ ht => ht.append _

/-- An administrator asks for the requests. -/
def listingGet : HttpRequest where
  method := .get
  target := "/api/v1/admin/requests"
  authorization := some "Bearer mock-jwt-for-admin"
  size := by decide

theorem visitorsCodec_lawful : visitorsCodec.Lawful := by
  refine tableCodec_lawful (by simp) ?_
  simp only [List.forall_mem_cons]
  exact ⟨⟨by simp, by decide +kernel⟩, by simp⟩

/-- The thread has handled a listing, and has shown one request. -/
def showsOne : Thread WebOp.Res WebTask WebReply → Bool
  | ⟨.http req, .ret (.http (.api resp))⟩ =>
    match resp.body.get "requests" with
    | .array shown =>
      req.method = .get ∧ normPath req = "/api/v1/admin/requests".toList ∧ shown.length = 1
    | _ => false
  | _ => false

/-- The law at work: an administrator is shown the visitor's request. -/
theorem requests_shown_visitor : ∃ (es : List WebEvent) (c : WebConfig Tables Unit) (i : ℕ)
    (req : HttpRequest) (resp : HttpResponse) (rs : List JobRequest),
    (web visitorsJson visitorsSqlPlatform "node-00000000" "/work" "web").Run
        (fun c ev => (webWired c ev = true ∧ freshWebJobId c ev = true) ∧ webContained ev = true)
        (webStart none {} ()) es c ∧
      c.threads[i]? = some ⟨.http req, .ret (.http (.api resp))⟩ ∧
      showsOne ⟨.http req, .ret (.http (.api resp))⟩ = true ∧
      resp = { status := .ok, body := GrpcBridge.requestsReply (.requests rs) } ∧
      ∀ r ∈ rs, Explained visitorsCodec {} (Called visitorsJson "web" es) (cStr r.requestId) r := by
  obtain ⟨es, c, hrun, hc⟩ := System.exists_run
    (S := web visitorsJson visitorsSqlPlatform "node-00000000" "/work" "web")
    (g := fun c ev => (webWired c ev && freshWebJobId c ev) && webContained ev)
    (c := webStart none {} ())
    (p := fun c => c.threads[1]?.any showsOne)
    (visitorsSchedule ++ [.start (.http listingGet), .move 1 {}]) (by decide +kernel)
  obtain ⟨⟨t, p⟩, hi, hshows⟩ := (Option.any_eq_true _ _).mp hc
  have hrun' := hrun.mono fun c ev hg => by simpa only [Bool.and_eq_true] using hg
  cases t with
  | inside t => cases hshows
  | http req =>
    cases p with
    | call op k => cases hshows
    | ret a =>
      cases a with
      | inside a => cases hshows
      | http a =>
        cases a with
        | file r => cases hshows
        | options => cases hshows
        | api resp =>
          have hlisting : IsListing req := by
            have hshows' := hshows
            rw [showsOne] at hshows'
            split at hshows'
            · obtain ⟨hm, hp, -⟩ := of_decide_eq_true hshows'
              exact ⟨hm, hp⟩
            · cases hshows'
          obtain ⟨rs, hresp, hrs⟩ :=
            requests_shown rfl visitorsCodec_lawful (readable_empty _) hlisting hrun' hi
          exact ⟨es, c, 1, req, resp, rs, hrun', hi, hshows, hresp, hrs⟩

end Shown

end CertOS
