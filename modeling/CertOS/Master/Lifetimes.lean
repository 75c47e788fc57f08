import CertOS.Master.Origins
import CertOS.Master.Restart

/-!
# Lifetimes of the master

The master may be stopped at any time, in the middle of its calls, and started again. The
table of requests is in the admin database and is there again; the table of jobs is not, and
starts empty. `CertOS.Lifetimes` is any number of lifetimes in a row, each of them a run of
the server from its construction.

What is in the tables can be explained all the same, by calls of this lifetime or of an
earlier one: a record of the request table stems from one submission
(`CertOS.request_stems_from`), and a job was asked for, by a call or by a request that may
be older than the server (`CertOS.job_asked_for`).
-/

namespace CertOS

open Interleave

variable {Fs : Type} {P : Platform Tables Fs} {E : SqlEngine} {adminDb : Tables}
  {es : List MasterEvent} {c : MasterConfig Tables Fs}

/-- **Lifetimes of the master**, of which the first has found the database `adminDb`: what has
happened in all of them, and where the last one is. -/
inductive Lifetimes (P : Platform Tables Fs) (adminDb : Tables) :
    List MasterEvent → MasterConfig Tables Fs → Prop
  | first (e : ℕ → Env) (jobsDb : Tables) (fairShare : Fs) {es : List MasterEvent}
      {c : MasterConfig Tables Fs}
      (h : (master P).Run (fun _ _ => True) (constructed P e jobsDb adminDb fairShare) es c) :
    Lifetimes P adminDb es c
  | next (e : ℕ → Env) (jobsDb : Tables) (fairShare : Fs) {es es' : List MasterEvent}
      {c c' : MasterConfig Tables Fs} (hc : Lifetimes P adminDb es c)
      (h : (master P).Run (fun _ _ => True)
        (constructed P e jobsDb c.state.adminDb fairShare) es' c') :
    Lifetimes P adminDb (es ++ es') c'

/-- What could be explained in a database can be explained when a server has been constructed
on it. -/
theorem Origins.construct {T : Task → Prop} (hP : P.store = sqlStore E) {db : Tables}
    (h : ∀ k row, db.jobRequests.lookup k = some row → ∃ r, P.json.parse row.data = some r ∧
      cStr r.requestId = k ∧ Explained P.json adminDb T k r) (e : ℕ → Env) (jobsDb : Tables)
    (fairShare : Fs) : Origins P.json adminDb T (construct P e jobsDb db fairShare) := by
  refine only_seedAccounts.run (fun e op s hop hs => ?_) ⟨h, fun j info hj => by cases hj⟩
  obtain ⟨k, v, hv, rfl⟩ := hop
  obtain ⟨hk, hkq, hvn, hvq⟩ := plain_seed hv
  have hcontained : (MasterOp.store (.setKv k v)).contained = true :=
    decide_eq_true ⟨hk, hvn, hkq.paired, hvq.paired⟩
  rw [← MasterState.exec_confined hP hcontained]
  exact Origins.exec (P := P.confined E) (confinedStore_keepsRequests E) rfl rfl hs

/-- **Everything in the tables can be explained**, by the calls of all lifetimes. -/
theorem Lifetimes.origins (hP : P.store = sqlStore E) (hJ : P.json.Lawful)
    (h₀ : Readable P.json adminDb) (h : Lifetimes P adminDb es c)
    (hkv : ∀ ev ∈ es, contained ev = true) :
    Origins P.json adminDb (fun t => .start t ∈ es) c.state := by
  induction h with
  | first e jobsDb fairShare h =>
    exact Origins.run hP hJ (.construct hP (explained_of_readable h₀) e jobsDb fairShare) rfl
      (fun _ ht => ht) hkv h
  | next e jobsDb fairShare hc h ih =>
    obtain ⟨hkv₁, hkv₂⟩ := List.forall_mem_append.mp hkv
    refine Origins.run hP hJ (.construct hP (fun k row hrow => ?_) e jobsDb fairShare) rfl
      (fun _ ht => List.mem_append_right _ ht) hkv₂ h
    obtain ⟨r, hparse, hk, hr⟩ := (ih hkv₁).requests k row hrow
    exact ⟨r, hparse, hk, hr.mono fun _ _ ht => List.mem_append_left _ ht⟩

/-- Ann's platform on SQLite. -/
def annsSqlPlatform : Platform Tables Unit := annsPlatform.onSql .refusing

/-- Ann's request is stored. -/
def annsFirstLife : List (Choice Env Task) :=
  performs 0 (.rpc [] (.submitPublicRequest annsRequest)) {} 2

/-- Her program is added to it, and it is approved at time 105. -/
def annsSecondLife : List (Choice Env Task) :=
  performs 0 (.rpc [] (.updateJobRequest annsUpload)) {} 2 ++
    performs 1 (.rpc [] (.adminReviewRequest { requestId := "req-1", approve := true }))
      { now := 105 } 4

/-- A part of a schedule that plays on the ideal map, with plain texts, plays on SQLite. -/
theorem exists_annsLife {adminDb : Tables} {as : List (Choice Env Task)}
    {p : MasterConfig Tables Unit → Bool}
    (h : ((master annsPlatform).play (fun c ev => plainStep c ev && contained ev)
      (constructed annsPlatform (fun _ => {}) {} adminDb ()) as).any p = true) :
    ∃ es c, (master annsSqlPlatform).Run (fun _ ev => contained ev = true)
      (constructed annsSqlPlatform (fun _ => {}) {} adminDb ()) es c ∧ p c = true := by
  obtain ⟨es, c, hrun, hc⟩ := System.exists_run (S := master annsPlatform)
    (g := fun c ev => plainStep c ev && contained ev) as h
  have hrun' := onSql_run rfl .refusing
    (fun c ev hg => ((Bool.and_eq_true _ _).mp hg).1) hrun
  have hconstructed : constructed annsSqlPlatform (fun _ => {}) {} adminDb () =
      constructed annsPlatform (fun _ => {}) {} adminDb () := by
    rw [constructed, annsSqlPlatform, construct_onSql rfl]
    rfl
  rw [hconstructed]
  exact ⟨es, c, hrun'.mono fun c ev hg => ((Bool.and_eq_true _ _).mp hg).2, hc⟩

/-- The server in which Ann's request is stored is stopped, and the next one goes through a part
of its schedule. -/
theorem exists_annsLives (n : ℕ) {p : MasterConfig Tables Unit → Bool}
    (h : (((master annsPlatform).play (fun c ev => plainStep c ev && contained ev)
      (constructed annsPlatform (fun _ => {}) {} {} ()) annsFirstLife).any fun c =>
        ((master annsPlatform).play (fun c ev => plainStep c ev && contained ev)
          (constructed annsPlatform (fun _ => {}) {} c.state.adminDb ())
          (annsSecondLife.take n)).any p) = true) :
    ∃ es c, Lifetimes annsSqlPlatform {} es c ∧ (∀ ev ∈ es, contained ev = true) ∧
      p c = true := by
  obtain ⟨es, c, hrun, hc⟩ := exists_annsLife h
  obtain ⟨es', c', hrun', hc'⟩ := exists_annsLife hc
  have hfirst : Lifetimes annsSqlPlatform {} es c :=
    .first (fun _ => {}) {} () (hrun.mono fun _ _ _ => trivial)
  have hkv := hrun.forall_mem fun _ _ hev => hev
  have hkv' := hrun'.forall_mem fun _ _ hev => hev
  exact ⟨es ++ es', c', hfirst.next (fun _ => {}) {} () (hrun'.mono fun _ _ _ => trivial),
    List.forall_mem_append.mpr ⟨hkv, hkv'⟩, hc'⟩

/-- **Every request record comes from somewhere**: in any number of lifetimes of the master,
whatever tasks are started and however they are interleaved, and wherever a server is
stopped, every row of the request table can be read, and its record stems from one that the
first server has found, or from one submission. -/
theorem request_stems_from (hP : P.store = sqlStore E) (hJ : P.json.Lawful)
    (h₀ : Readable P.json adminDb) (h : Lifetimes P adminDb es c)
    (hkv : ∀ ev ∈ es, contained ev = true) {k : String} {row : RequestRow}
    (hrow : c.state.adminDb.jobRequests.lookup k = some row) :
    ∃ r, P.json.parse row.data = some r ∧ cStr r.requestId = k ∧
      Explained P.json adminDb (fun t => .start t ∈ es) k r :=
  (h.origins hP hJ h₀ hkv).requests k row hrow

/-- The law at work: the request is stored in one lifetime, and the program added in the
next. -/
theorem request_stems_from_ann : ∃ es c row,
    Lifetimes annsSqlPlatform {} es c ∧ c.state.adminDb.jobRequests.lookup "req-1" = some row ∧
      annsCodec.parse row.data = some annsUpload ∧
      Explained annsCodec {} (fun t => .start t ∈ es) "req-1" annsUpload := by
  obtain ⟨es, c, hlives, hkv, hc⟩ := exists_annsLives 3
    (p := fun c => stored annsCodec "req-1" c.state.adminDb = some annsUpload) (by decide +kernel)
  obtain ⟨row, hrow, hparse⟩ := Option.bind_eq_some_iff.mp (of_decide_eq_true hc)
  obtain ⟨r, hparse', -, hr⟩ :=
    request_stems_from rfl annsCodec_lawful (readable_empty _) hlives hkv hrow
  obtain rfl := Option.some.inj (hparse.symm.trans hparse')
  exact ⟨es, c, row, hlives, hrow, hparse, hr⟩

/-- **Every job was asked for**: in any number of lifetimes of the master, whatever tasks are
started and however they are interleaved, the specification and the names on the record of
a job are those of a call of `SubmitJob`, or those of a request that was approved and whose
record can be explained. -/
theorem job_asked_for (hP : P.store = sqlStore E) (hJ : P.json.Lawful)
    (h₀ : Readable P.json adminDb) (h : Lifetimes P adminDb es c)
    (hkv : ∀ ev ∈ es, contained ev = true) {j : String} {info : JobInfo}
    (hj : c.state.jobMgr.jobs.lookup j = some info) :
    AskedFor P.json adminDb (fun t => .start t ∈ es) info.spec info.userId info.username :=
  (h.origins hP hJ h₀ hkv).jobs j info hj

/-- The law at work: the job is that of Ann's request, which is older than the server. -/
theorem job_asked_for_ann : ∃ es c info,
    Lifetimes annsSqlPlatform {} es c ∧ c.state.jobMgr.jobs.lookup "job-00000000" = some info ∧
      info.spec = annsUpload.requestedSpec ∧
      AskedFor annsCodec {} (fun t => .start t ∈ es) annsUpload.requestedSpec info.userId
        info.username := by
  obtain ⟨es, c, hlives, hkv, hc⟩ := exists_annsLives 8
    (p := fun c => (c.state.jobMgr.jobs.lookup "job-00000000").any fun info =>
      info.spec = annsUpload.requestedSpec) (by decide +kernel)
  obtain ⟨info, hinfo, hspec⟩ := (Option.any_eq_true _ _).mp hc
  have hspec : info.spec = annsUpload.requestedSpec := of_decide_eq_true hspec
  have hask := job_asked_for rfl annsCodec_lawful (readable_empty _) hlives hkv hinfo
  rw [hspec] at hask
  exact ⟨es, c, info, hlives, hinfo, hspec, hask⟩

end CertOS
