import CertOS.Master.Footprint

/-!
# Whose job it is

`SubmitJob` stores a job under the name of its caller, and takes the name from the
authorization header: it is whatever follows the first `mock-jwt-for-` in it. `Login`
does issue tokens of the form `mock-jwt-for-` and the name, to be sent after `Bearer `.
But the marker is looked for everywhere in the header, and nobody remembers which
tokens were issued.

In a run of logins and submissions every job of an account was submitted with a token
of that account just when every header that names an account is such a token
(`CertOS.attributed_iff`); and a job comes to belong to an account that nobody has ever
logged in to, by a header that no login would ever return
(`CertOS.job_for_somebody_else`).
-/

namespace CertOS

open Interleave

variable {Db Fs : Type} {P : Platform Db Fs}

/-! ### Tokens and headers -/

/-- There is an account of that name in the database. -/
def HasAccount (P : Platform Db Fs) (adminDb : Db) (username : String) : Prop :=
  (P.store.exec true (.getKv ("user:" ++ username)) adminDb).1.isSome = true

/-- **The tokens issued for a user so far**: what the logins with that name have been
answered with. -/
def issued (username : String) (c : MasterConfig Db Fs) : List String :=
  c.threads.filterMap fun th =>
    match th.task, th.prog with
    | .rpc _ (.login u _), .ret (.authToken t) => if u = username then some t.accessToken else none
    | _, _ => none

/-- The authorization header of a call. -/
def authorization (metadata : Metadata) : Option String := metadata.lookup "authorization"

/-- The name in a header: what follows the first marker. -/
def markedName (auth : String) : Option String :=
  (Text.find MasterService.tokenMarker.toList auth.toList).map fun pos =>
    String.ofList (auth.toList.drop (pos + 13))

/-- The name a call is read as. -/
theorem callerName_eq (metadata : Metadata) :
    MasterService.callerName metadata =
      ((authorization metadata).bind markedName).getD "unknown" := by
  rw [MasterService.callerName, authorization]
  cases metadata.lookup "authorization" with
  | none => rfl
  | some auth =>
    dsimp only
    rw [Option.bind_some, markedName]
    cases Text.find MasterService.tokenMarker.toList auth.toList with
    | none => rfl
    | some pos => rfl

/-- **A token names its user**: the marker of a token that is sent after `Bearer ` is
found at its start, whatever the name is. -/
theorem markedName_token (username : String) :
    markedName ("Bearer " ++ (MasterService.tokenMarker ++ username)) = some username := by
  have hbearer : ("Bearer " : String).toList = ['B', 'e', 'a', 'r', 'e', 'r', ' '] := rfl
  have hmarker : MasterService.tokenMarker.toList =
      ['m', 'o', 'c', 'k', '-', 'j', 'w', 't', '-', 'f', 'o', 'r', '-'] := rfl
  have hfind : Text.find MasterService.tokenMarker.toList
      ("Bearer ".toList ++ (MasterService.tokenMarker.toList ++ username.toList)) = some 7 := by
    rw [hmarker]
    exact Text.find_append (by decide) (List.prefix_append _ _)
  rw [markedName, String.toList_append, String.toList_append, hfind, Option.map_some]
  rw [hbearer, hmarker]
  simp

/-! ### The law and the condition -/

/-- The tasks are logins and submissions. -/
def loginsAndSubmissions (_ : MasterConfig Db Fs) : MasterEvent → Bool
  | .start (.rpc _ (.login ..)) | .start (.rpc _ (.submitJob _)) => true
  | .start _ => false
  | .did .. => true

/-- **The job is attributed soundly**: if the step stores a job for a user that has an
account, the call it is a step of carries, after `Bearer `, a token that was issued for
that user. -/
def Attributed (P : Platform Db Fs) (adminDb : Db) (c : MasterConfig Db Fs) : MasterEvent → Prop
  | .did _ (.rpc metadata _) _ (.job (.submitJob _ userId _)) _ =>
    HasAccount P adminDb userId →
      ∃ token ∈ issued userId c, authorization metadata = some ("Bearer " ++ token)
  | _ => True

/-- **The header is a token or names nobody**: the call that submits the job carries a
token that was issued for somebody; or what follows the first marker of its header, or
`unknown` if there is none, is not the name of an account. -/
def Vouched (P : Platform Db Fs) (adminDb : Db) (c : MasterConfig Db Fs) : MasterEvent → Prop
  | .did _ (.rpc metadata _) _ (.job (.submitJob ..)) _ =>
    (∃ username, ∃ token ∈ issued username c, authorization metadata = some ("Bearer " ++ token)) ∨
      ¬ HasAccount P adminDb (((authorization metadata).bind markedName).getD "unknown")
  | _ => True

/-- The tokens of a user all look the same. -/
theorem token_of_issued {c : MasterConfig Db Fs} {username token : String}
    (hres : ∀ th ∈ c.threads, ((master P).body th.task).Residual th.prog)
    (h : token ∈ issued username c) : token = MasterService.tokenMarker ++ username := by
  obtain ⟨⟨t, p⟩, hth, hsome⟩ := List.mem_filterMap.mp h
  have hleft := hres _ hth
  dsimp only at hsome hleft
  split at hsome
  · rename_i metadata u password t'
    split at hsome
    · rename_i hu
      subst hu
      obtain rfl := Option.some.inj hsome
      -- whatever the database answers, a login returns that token or none
      have hreturns : ((master P).body (.rpc metadata (.login u password))).Returns fun r =>
          ∀ t, r = .authToken t → t.accessToken = MasterService.tokenMarker ++ u := by
        rw [master_body_rpc]
        refine Prog.returns_map.mpr (.op_bind fun dbPass => ?_)
        split
        · refine .op_bind fun dbRole => ?_
          intro t ht
          cases ht
          rfl
        · intro t ht
          cases ht
      exact hreturns.residual hleft t' rfl
    · cases hsome
  · cases hsome

/-- **A submission stores its job under the name it reads**, and nothing else in the run
stores one. -/
theorem only_submits (metadata : Metadata) (spec : JobSpec) :
    ((master P).body (.rpc metadata (.submitJob spec))).Only fun op =>
      ∀ spec' userId username, op = .job (.submitJob spec' userId username) →
        userId = MasterService.callerName metadata := by
  rw [master_body_rpc]
  refine ⟨?_, fun jobId => ⟨?_, fun job => ?_⟩⟩
  · intro spec' userId username h
    cases h
    rfl
  · intro spec' userId username h
    cases h
  · cases job with
    | none => trivial
    | some info => trivial

/-- A login stores nothing. -/
theorem only_logsIn (metadata : Metadata) (username password : String) :
    ((master P).body (.rpc metadata (.login username password))).Only fun op =>
      ∀ spec userId username, op ≠ .job (.submitJob spec userId username) := by
  refine (only_mayDo P _).mono fun op hop => ?_
  rintro spec userId username rfl
  cases hop

/-! ### One step -/

/-- What is left of the threads of a run of logins and submissions. -/
structure OnlyCalls (P : Platform Db Fs) (c : MasterConfig Db Fs) : Prop where
  task : ∀ th ∈ c.threads, (∃ metadata u p, th.task = .rpc metadata (.login u p)) ∨
    ∃ metadata spec, th.task = .rpc metadata (.submitJob spec)
  residual : ∀ th ∈ c.threads, ((master P).body th.task).Residual th.prog

theorem onlyCalls_of_run {db : Option Db} {adminDb : Db} {fs : Fs} {c : MasterConfig Db Fs}
    {es : List MasterEvent}
    (h : (master P).Run (fun c ev => loginsAndSubmissions c ev = true) (masterStart db adminDb fs)
      es c) : OnlyCalls P c := by
  refine ⟨?_, h.residual (by intro th hth; cases hth)⟩
  refine h.forall_threads
    (q := fun th => (∃ metadata u p, th.task = Task.rpc metadata (.login u p)) ∨
      ∃ metadata spec, th.task = Task.rpc metadata (.submitJob spec))
    (by intro th hth; cases hth) ?_ (fun _ _ _ hu => by cases hu) fun _ _ _ _ hq => hq
  intro c t hg
  cases t with
  | rpc metadata call =>
    cases call with
    | login u p => exact Or.inl ⟨metadata, u, p, rfl⟩
    | submitJob spec => exact Or.inr ⟨metadata, spec, rfl⟩
    | _ => cases hg
  | _ => cases hg

/-- **One step**: a job is attributed soundly just when the header of its call is a token
or names nobody. -/
theorem attributed_iff_vouched {c c' : MasterConfig Db Fs} {ev : MasterEvent} {adminDb : Db}
    (hcalls : OnlyCalls P c) (hstep : (master P).Step c ev c') :
    Vouched P adminDb c ev ↔ Attributed P adminDb c ev := by
  cases hstep with
  | start t => exact Iff.rfl
  | did i t e op cont hi =>
    have hmem := List.mem_of_getElem? hi
    have hleft := hcalls.residual _ hmem
    rcases hcalls.task _ hmem with ⟨metadata, u, p, rfl⟩ | ⟨metadata, spec, rfl⟩
    · have hnot := ((only_logsIn metadata u p).residual hleft).1
      cases op with
      | job o =>
        cases o with
        | submitJob spec userId username => exact absurd rfl (hnot spec userId username)
        | _ => exact Iff.rfl
      | _ => exact Iff.rfl
    · -- the user of the new job is the name that is read from the header
      have hname := ((only_submits metadata spec).residual hleft).1
      cases op with
      | job o =>
        cases o with
        | submitJob spec' userId username =>
          obtain rfl := hname spec' userId username rfl
          rw [Vouched, Attributed, callerName_eq]
          constructor
          · rintro (⟨v, token, htoken, hauth⟩ | hnot) haccount
            · -- the call has the token of somebody, and the name read is that one's
              obtain rfl := token_of_issued hcalls.residual htoken
              rw [hauth, Option.bind_some, markedName_token, Option.getD_some]
              exact ⟨_, htoken, rfl⟩
            · exact absurd haccount hnot
          · intro h
            by_cases haccount :
                HasAccount P adminDb (((authorization metadata).bind markedName).getD "unknown")
            · obtain ⟨token, htoken, hauth⟩ := h haccount
              exact Or.inl ⟨_, token, htoken, hauth⟩
            · exact Or.inr haccount
        | _ => exact Iff.rfl
      | _ => exact Iff.rfl

/-! ### The jobs there are -/

/-- **The job table is attributed soundly**: every job of a user that has an account was
submitted by a call that carries a token issued for that user. -/
def Owned (P : Platform Db Fs) (adminDb : Db) (c : MasterConfig Db Fs) : Prop :=
  ∀ j info, c.state.jobMgr.jobs.lookup j = some info → HasAccount P adminDb info.userId →
    ∃ metadata spec, (∃ th ∈ c.threads, th.task = .rpc metadata (.submitJob spec)) ∧
      ∃ token ∈ issued info.userId c, authorization metadata = some ("Bearer " ++ token)

/-- A thread keeps its task. -/
theorem exists_task_step {c c' : MasterConfig Db Fs} {ev : MasterEvent} {t : Task}
    (hstep : (master P).Step c ev c') (h : ∃ th ∈ c.threads, th.task = t) :
    ∃ th ∈ c'.threads, th.task = t := by
  obtain ⟨th, hth, htask⟩ := h
  obtain ⟨k, hk⟩ := List.getElem?_of_mem hth
  cases hstep with
  | start t' => exact ⟨th, List.mem_append_left _ hth, htask⟩
  | did i t' e op cont hi =>
    by_cases hki : k = i
    · subst hki
      obtain rfl := Option.some.inj (hi.symm.trans hk)
      exact ⟨_, List.mem_of_getElem? (System.getElem?_after_self hi), htask⟩
    · exact ⟨th, List.mem_of_getElem? (System.getElem?_after_of_ne hk hki), htask⟩

/-- An issued token stays issued. -/
theorem issued_step {c c' : MasterConfig Db Fs} {ev : MasterEvent} {username token : String}
    (hstep : (master P).Step c ev c') (h : token ∈ issued username c) :
    token ∈ issued username c' := by
  obtain ⟨th, hth, hsome⟩ := List.mem_filterMap.mp h
  refine List.mem_filterMap.mpr ⟨th, ?_, hsome⟩
  obtain ⟨k, hk⟩ := List.getElem?_of_mem hth
  cases hstep with
  | start t => exact List.mem_append_left _ hth
  | did i t e op cont hi =>
    -- the login has returned, so it is not the thread that moves
    have hne : k ≠ i := by
      rintro rfl
      obtain rfl := Option.some.inj (hi.symm.trans hk)
      dsimp only at hsome
      split at hsome
      · rename_i hprog
        cases hprog
      · cases hsome
    exact List.mem_of_getElem? (System.getElem?_after_of_ne hk hne)

theorem Owned.step {c c' : MasterConfig Db Fs} {ev : MasterEvent} {adminDb : Db}
    (h : Owned P adminDb c) (hcalls : OnlyCalls P c) (hatt : Attributed P adminDb c ev)
    (hstep : (master P).Step c ev c') : Owned P adminDb c' := by
  -- a job that was there before, and what vouches for it
  have hold {j : String} {info : JobInfo} (hj : c.state.jobMgr.jobs.lookup j = some info)
      (haccount : HasAccount P adminDb info.userId) :
      ∃ metadata spec, (∃ th ∈ c'.threads, th.task = .rpc metadata (.submitJob spec)) ∧
        ∃ token ∈ issued info.userId c', authorization metadata = some ("Bearer " ++ token) := by
    obtain ⟨metadata, spec, htask, token, htoken, hauth⟩ := h j info hj haccount
    exact ⟨metadata, spec, exists_task_step hstep htask, token, issued_step hstep htoken, hauth⟩
  intro j info hj haccount
  cases hstep with
  | start t => exact hold hj haccount
  | did i t e op cont hi =>
    have hmem := List.mem_of_getElem? hi
    have hmay := ((only_mayDo P t).residual (hcalls.residual _ hmem)).1
    cases op with
    | job o =>
      cases o with
      | submitJob spec userId username =>
        have hl : (c.state.exec P e
            (.job (.submitJob spec userId username))).2.jobMgr.jobs.lookup j = some info := hj
        rw [MasterState.exec_job, JobManager.exec_submitJob_jobs, Table.lookup_insert] at hl
        split at hl
        · -- the job that is stored now
          obtain rfl := Option.some.inj hl
          rcases hcalls.task _ hmem with ⟨metadata, u, p, rfl⟩ | ⟨metadata, spec', rfl⟩
          · cases hmay
          · obtain ⟨token, htoken, hauth⟩ := hatt haccount
            have htask := exists_task_step (P := P) (.did c i _ e _ cont hi) ⟨_, hmem, rfl⟩
            have hissued := issued_step (P := P) (.did c i _ e _ cont hi) htoken
            exact ⟨metadata, spec', htask, token, hissued, hauth⟩
        · exact hold hl haccount
      | getJob jobId => exact hold hj haccount
      | _ =>
        rcases hcalls.task _ hmem with ⟨metadata, u, p, rfl⟩ | ⟨metadata, spec', rfl⟩
        · cases hmay
        · cases hmay
    | _ => exact hold hj haccount

/-! ### Every run -/

/-- **Jobs are attributed soundly**, in a run of logins and submissions, just when every
submission carries a token that a login has returned or a header that names nobody who
has an account; and then so are all jobs in the state it reaches. -/
theorem attributed_iff (P : Platform Db Fs) (db : Option Db) (adminDb : Db) (fs : Fs)
    (c : MasterConfig Db Fs) (es : List MasterEvent) :
    ((master P).Run (fun c ev => loginsAndSubmissions c ev = true ∧ Vouched P adminDb c ev)
        (masterStart db adminDb fs) es c ↔
      (master P).Run (fun c ev => loginsAndSubmissions c ev = true ∧ Attributed P adminDb c ev)
        (masterStart db adminDb fs) es c) ∧
    ((master P).Run (fun c ev => loginsAndSubmissions c ev = true ∧ Vouched P adminDb c ev)
        (masterStart db adminDb fs) es c → Owned P adminDb c) := by
  refine ⟨⟨fun h => ?_, fun h => ?_⟩, fun h => ?_⟩
  · refine h.mono_of_run fun es₁ c₁ ev c₂ hrun hg hstep => ⟨hg.1, ?_⟩
    have hcalls := onlyCalls_of_run (hrun.mono fun _ _ hg => hg.1)
    exact (attributed_iff_vouched hcalls hstep).mp hg.2
  · refine h.mono_of_run fun es₁ c₁ ev c₂ hrun hg hstep => ⟨hg.1, ?_⟩
    have hcalls := onlyCalls_of_run (hrun.mono fun _ _ hg => hg.1)
    exact (attributed_iff_vouched hcalls hstep).mpr hg.2
  · induction h with
    | nil =>
      intro j info hj
      cases hj
    | snoc hrun hg hstep ih =>
      have hcalls := onlyCalls_of_run (hrun.mono fun _ _ hg => hg.1)
      exact ih.step hcalls ((attributed_iff_vouched hcalls hstep).mp hg.2) hstep

/-! ### A job for somebody else -/

/-- A database with one account. -/
def aliceDb : Tables := (idealStore.exec true (.setKv "user:alice" "secret") {}).2

/-- A call with a header that no login would return. -/
def forgedSubmission : Task :=
  .rpc [("authorization", "xxmock-jwt-for-alice")] (.submitJob { name := "job" })

/-- The master when the call has arrived. -/
def forgedOnTheWay : MasterConfig Tables Unit :=
  ⟨(masterStart none aliceDb ()).state, [(master barePlatform).spawn forgedSubmission]⟩

/-- **A job for somebody else**: there is an account `alice`, and nobody has ever logged
in; one call submits a job with a header that has the marker in it, and the job belongs to
`alice`. -/
theorem job_for_somebody_else :
    ∃ ev c' info, (master barePlatform).Run (fun c ev => loginsAndSubmissions c ev = true)
        (masterStart none aliceDb ()) [.start forgedSubmission] forgedOnTheWay ∧
      (master barePlatform).Step forgedOnTheWay ev c' ∧
      HasAccount barePlatform aliceDb "alice" ∧ issued "alice" forgedOnTheWay = [] ∧
      c'.state.jobMgr.jobs.lookup "job-00000000" = some info ∧ info.userId = "alice" ∧
      ¬ Attributed barePlatform aliceDb forgedOnTheWay ev := by
  have haccount : HasAccount barePlatform aliceDb "alice" := rfl
  have hissued : issued "alice" forgedOnTheWay = [] := rfl
  refine ⟨_, _, _, System.Run.single rfl (.start _ _), .did _ 0 forgedSubmission {} _ _ rfl,
    haccount, hissued, rfl, by decide, fun h => ?_⟩
  obtain ⟨token, htoken, -⟩ := h haccount
  cases htoken

end CertOS
