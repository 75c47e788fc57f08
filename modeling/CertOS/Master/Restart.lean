import CertOS.Master.Accounts
import CertOS.Master.Confined

/-!
# Restarting the master

The constructor of `MasterServer` writes two accounts and the account list into the admin
database, each time it runs and whatever the database holds. So the accounts survive a
restart exactly if the database holds these five rows already, as the constructor writes
them (`CertOS.sameAccounts_restarts_iff`). That is so for every database and whatever SQLite
makes of a text that leaves its literal.

The two accounts are always there, as long as no text does: a name that passes its existence
check is neither of them. The account list is another matter: the constructor resets it,
and with it go the names of all accounts that were created since. In a run whose texts stay
in their literals, the accounts survive if and only if no call of the run has written the
account list (`CertOS.restart_keeps_iff`).
-/

namespace CertOS

open Interleave

/-! ### The constructor -/

/-- What the constructor of `MasterServer` does to the admin database. -/
def seedAccounts : MasterProg Unit := do
  let _ ← Call.setKv "user:admin" "admin123"
  let _ ← Call.setKv "role:admin" "admin"
  let _ ← Call.setKv "user:user1" "user123"
  let _ ← Call.setKv "role:user1" "user"
  let _ ← Call.setKv "system:user_list" "admin,user1"
  return ()

/-- `MasterServer::MasterServer`: new components on the two databases. `init` creates the
tables that a database lacks, and keeps the rows that it has. -/
def construct {Db Fs : Type} (P : Platform Db Fs) (e : ℕ → Env) (jobsDb adminDb : Db)
    (fairShare : Fs) : MasterState Db Fs :=
  (seedAccounts.run (MasterState.exec P) e (masterStart (some jobsDb) adminDb fairShare).state).2

/-- A server that has been constructed, before its first call. -/
def constructed {Db Fs : Type} (P : Platform Db Fs) (e : ℕ → Env) (jobsDb adminDb : Db)
    (fairShare : Fs) : MasterConfig Db Fs where
  state := construct P e jobsDb adminDb fairShare
  threads := []

variable {Fs : Type} {P : Platform Tables Fs} {E : SqlEngine}

/-- What the constructor writes under a key. -/
def seedOf (k : String) : Option String :=
  if k = listKey then some MasterService.defaultUserList
  else if k = roleKey "user1" then some "user"
  else if k = userKey "user1" then some "user123"
  else if k = roleKey "admin" then some "admin"
  else if k = userKey "admin" then some "admin123"
  else none

/-- The rows that the constructor writes. -/
theorem seedOf_eq_some {k v : String} (h : seedOf k = some v) :
    (k, v) ∈ [("user:admin", "admin123"), ("role:admin", "admin"), ("user:user1", "user123"),
      ("role:user1", "user"), ("system:user_list", "admin,user1")] := by
  have hadmin : userKey "admin" = "user:admin" := by decide
  have hadmin' : roleKey "admin" = "role:admin" := by decide
  have huser : userKey "user1" = "user:user1" := by decide
  have huser' : roleKey "user1" = "role:user1" := by decide
  rw [seedOf, hadmin, hadmin', huser, huser', listKey, MasterService.defaultUserList] at h
  split_ifs at h <;> simp_all

/-- The rows of the constructor are plain texts. -/
theorem plain_seed {k v : String} (h : seedOf k = some v) :
    NulFree k ∧ QuoteFree k ∧ NulFree v ∧ QuoteFree v := by
  have hall : ∀ p ∈ [("user:admin", "admin123"), ("role:admin", "admin"),
      ("user:user1", "user123"), ("role:user1", "user"), ("system:user_list", "admin,user1")],
      NulFree p.1 ∧ QuoteFree p.1 ∧ NulFree p.2 ∧ QuoteFree p.2 := by decide +kernel
  exact hall _ (seedOf_eq_some h)

/-- The constructor writes these rows and nothing else. -/
theorem only_seedAccounts : seedAccounts.Only fun op =>
    ∃ k v, seedOf k = some v ∧ op = .store (.setKv k v) :=
  .op_bind ⟨_, _, by decide, rfl⟩ fun _ => .op_bind ⟨_, _, by decide, rfl⟩ fun _ =>
    .op_bind ⟨_, _, by decide, rfl⟩ fun _ => .op_bind ⟨_, _, by decide, rfl⟩ fun _ =>
      .op_bind ⟨_, _, by decide, rfl⟩ fun _ => trivial

/-- The constructor does on SQLite what it does on an ideal map. -/
theorem construct_onSql (hP : P.store = idealStore) (E : SqlEngine) (e : ℕ → Env)
    (jobsDb adminDb : Tables) (fairShare : Fs) :
    construct (P.onSql E) e jobsDb adminDb fairShare = construct P e jobsDb adminDb fairShare := by
  refine congrArg Prod.snd (only_seedAccounts.run_eq (fun e op s hop => ?_) e _)
  obtain ⟨k, v, hv, rfl⟩ := hop
  obtain ⟨hk, hkq, hvn, hvq⟩ := plain_seed hv
  exact MasterState.exec_onSql hP (decide_eq_true ⟨hk, hkq, hvn, hvq⟩)

/-- **A store that carries out what the constructor writes.** -/
def StoreBackend.WritesSeeds (B : StoreBackend Tables) : Prop :=
  ∀ k v, seedOf k = some v → ∀ t,
    (B.exec true (.setKv k v) t).2 = { t with kvStore := t.kvStore.insert k v }

theorem writesSeeds_of_eq {B : StoreBackend Tables} (h : B = idealStore) : B.WritesSeeds := by
  rw [h]
  exact fun k v _ t => rfl

/-- One write of the constructor. -/
theorem exec_setKv_seed (hP : P.store.WritesSeeds) {e : Env} (he : e.sqliteOk = true)
    {k v : String} (h : seedOf k = some v) (s : MasterState Tables Fs) :
    (s.exec P e (.store (.setKv k v))).2 = { s with adminDb := { s.adminDb with
      kvStore := s.adminDb.kvStore.insert k v } } := by
  rw [MasterState.exec_store, he, hP k v h]

/-- The database after the constructor. -/
theorem adminDb_construct (hP : P.store.WritesSeeds) {e : ℕ → Env}
    (he : ∀ n, (e n).sqliteOk = true) (jobsDb adminDb : Tables) (fairShare : Fs) :
    (construct P e jobsDb adminDb fairShare).adminDb = { adminDb with
      kvStore := ((((adminDb.kvStore.insert "user:admin" "admin123").insert "role:admin"
        "admin").insert "user:user1" "user123").insert "role:user1" "user").insert
          "system:user_list" "admin,user1" } := by
  simp only [construct, seedAccounts, Call.setKv, Prog.op_bind, Prog.run_call, Prog.pure_eq,
    Prog.run_ret]
  rw [exec_setKv_seed hP (he _) (k := "system:user_list") (by decide),
    exec_setKv_seed hP (he _) (k := "role:user1") (by decide),
    exec_setKv_seed hP (he _) (k := "user:user1") (by decide),
    exec_setKv_seed hP (he _) (k := "role:admin") (by decide),
    exec_setKv_seed hP (he _) (k := "user:admin") (by decide)]
  rfl

/-- **What the database holds after the constructor**: what the constructor writes, and
under the other keys what it held before. -/
theorem lookup_construct (hP : P.store.WritesSeeds) {e : ℕ → Env}
    (he : ∀ n, (e n).sqliteOk = true) (jobsDb adminDb : Tables) (fairShare : Fs) (k : String) :
    (construct P e jobsDb adminDb fairShare).adminDb.kvStore.lookup k =
      (seedOf k).or (adminDb.kvStore.lookup k) := by
  have hadmin : userKey "admin" = "user:admin" := by decide
  have hadmin' : roleKey "admin" = "role:admin" := by decide
  have huser : userKey "user1" = "user:user1" := by decide
  have huser' : roleKey "user1" = "role:user1" := by decide
  rw [adminDb_construct hP he]
  simp only [Table.lookup_insert, seedOf, listKey, hadmin, hadmin', huser, huser',
    MasterService.defaultUserList]
  split_ifs <;> rfl

/-! ### The same accounts -/

/-- The answer of a query hangs on the rows that there are, and not on their order. -/
def StoreBackend.Steady (B : StoreBackend Tables) (k : String) : Prop :=
  ∀ ok t t', t.Same t' → (B.exec ok (.getKv k) t').1 = (B.exec ok (.getKv k) t).1

/-- So it does if the key stays in its literal. Of a text that leaves it, SQLite may return
whatever row it comes across first, and a row that is written again is not where it was. -/
theorem steady_of_paired {k : String} (hk : NulFree k) (hkp : Paired k) :
    (sqlStore E).Steady k := by
  intro ok t t' h
  simp only [sqlStore]
  cases ok with
  | false => rw [StateStore.getKv_refused, StateStore.getKv_refused]
  | true => rw [StateStore.getKv_of_paired hk hkp, StateStore.getKv_of_paired hk hkp, h.kvStore]

/-- A name that stays in its literal stays in it as a part of a key, so the queries for its
account hang on the rows alone. -/
theorem steady_account {u : String} (hu : NulFree u) (hup : Paired u) :
    (sqlStore E).Steady (userKey u) ∧ (sqlStore E).Steady (roleKey u) := by
  have hkey {head : String} (hhead : NulFree head ∧ QuoteFree head) :
      (sqlStore E).Steady (head ++ u) := by
    refine steady_of_paired (hhead.1.append hu) ?_
    rw [Paired, String.toList_append]
    exact (Quoting.paired_append_of_not_mem hhead.2).trans hup
  exact ⟨hkey (by decide +kernel), hkey (by decide +kernel)⟩

/-- It holds the four of the two accounts. -/
def HoldsAccounts (kv : Table String String) : Prop :=
  ∀ k v, seedOf k = some v → k ≠ listKey → kv.lookup k = some v

/-- The operation writes no seeded account, and does not write the account list as the
constructor does. -/
def SparesSeeds : MasterOp → Prop
  | .store (.setKv k v) =>
    (k ≠ listKey → seedOf k = none) ∧ (k = listKey → v ≠ MasterService.defaultUserList)
  | _ => True

/-- The step writes the account list. -/
def writesList : MasterEvent → Bool
  | .did _ _ _ (.store (.setKv k _)) _ => k = listKey
  | _ => false

theorem writesList_eq_false {i : ℕ} {t : Task} {e : Env} {op : MasterOp} {r : op.Res} :
    writesList (.did i t e op r) = false ↔ ∀ k v, op = .store (.setKv k v) → k ≠ listKey := by
  cases op with
  | store o =>
    cases o with
    | setKv k v => simp [writesList]
    | _ => simp [writesList]
  | _ => simp [writesList]

theorem sparesSeeds_of_not_setsKv {op : MasterOp} (h : setsKv op = false) : SparesSeeds op := by
  cases op with
  | store o =>
    cases o with
    | setKv k v => cases h
    | _ => trivial
  | _ => trivial

/-- A seeded account is one of two. -/
theorem seedOf_userKey {u : String} (h : u ≠ "admin") (h' : u ≠ "user1") :
    seedOf (userKey u) = none := by
  rw [seedOf, if_neg (userKey_ne_listKey u), if_neg (userKey_ne_roleKey u _),
    if_neg (userKey_ne_userKey h'), if_neg (userKey_ne_roleKey u _), if_neg (userKey_ne_userKey h)]

theorem seedOf_roleKey {u : String} (h : u ≠ "admin") (h' : u ≠ "user1") :
    seedOf (roleKey u) = none := by
  rw [seedOf, if_neg (roleKey_ne_listKey u), if_neg (roleKey_ne_roleKey h'),
    if_neg (userKey_ne_roleKey _ u).symm, if_neg (roleKey_ne_roleKey h),
    if_neg (userKey_ne_roleKey _ u).symm]

/-- The account list with a name appended is the seeded one only for one name. -/
theorem eq_user1_of_append {L u : String} (h : L ++ "," ++ u = MasterService.defaultUserList) :
    u = "user1" := by
  have hl := congrArg String.toList h
  rw [String.toList_append, String.toList_append, List.append_assoc] at hl
  have hlist : MasterService.defaultUserList.toList = "admin".toList ++ ',' :: "user1".toList := by
    decide
  have hu := (Text.eq_of_append_sep (by decide) (by decide) (hl.trans hlist)).2
  exact String.toList_injective hu

/-- A call past its existence check spares the seeded accounts, unless it is for one of
them. -/
theorem only_sparesSeeds {r : CreateUserRequest} (h : r.username ≠ "admin")
    (h' : r.username ≠ "user1") : (createAt r .storingPassword).Only SparesSeeds := by
  have hlist (L : String) : SparesSeeds (.store (.setKv listKey (L ++ "," ++ r.username))) :=
    ⟨fun hne => absurd rfl hne, fun _ hL => h' (eq_user1_of_append hL)⟩
  refine Prog.only_map.mpr (.op_bind ?_ fun _ => .op_bind ?_ fun _ => .op_bind trivial fun L => ?_)
  · exact ⟨fun _ => seedOf_userKey h h', fun hk => absurd hk (userKey_ne_listKey _)⟩
  · exact ⟨fun _ => seedOf_roleKey h h', fun hk => absurd hk (roleKey_ne_listKey _)⟩
  · dsimp only
    split
    · exact .op_bind (hlist _) fun _ => .op_bind trivial fun _ => trivial
    · exact .op_bind trivial fun _ => trivial

/-! ### Every run -/

/-- A thread that does not harm the seeded accounts: it is in front of its existence check,
or it spares them in all that it may still do. -/
def Restrained (th : Thread MasterOp.Res Task Reply) : Prop :=
  (∃ r, th.prog = createAt r .checking) ∨ th.prog.Only SparesSeeds

/-- **What holds of a server from its construction on**: the seeded accounts are there, the
account list is the seeded one if no call has written it, and no thread harms the seeded
accounts. -/
structure Seeded (es : List MasterEvent) (c : MasterConfig Tables Fs) : Prop where
  accounts : HoldsAccounts c.state.adminDb.kvStore
  list : c.state.adminDb.kvStore.lookup listKey = some MasterService.defaultUserList ↔
    ∀ ev ∈ es, writesList ev = false
  threads : ∀ th ∈ c.threads, Restrained th

section Step

variable {es : List MasterEvent} {c c' : MasterConfig Tables Fs} {ev : MasterEvent}

/-- A key in its literal stands for a seeded row only if it is the key of this row. -/
theorem seedOf_collapse {k : String} (hk : Paired k) {v : String}
    (h : seedOf (collapse k) = some v) : collapse k = k := by
  have hq := (plain_seed h).2.1
  exact collapse_inj hq.paired hk ((collapse_eq_self hq.paired).mpr hq)

/-- What sparing operations do to the table. -/
theorem SparesSeeds.exec (hP : P.store = sqlStore E) {e : Env} {op : MasterOp}
    (hop : SparesSeeds op) (hcontained : op.contained = true)
    (hok : setsKv op = true → e.sqliteOk = true) {s : MasterState Tables Fs}
    (hs : HoldsAccounts s.adminDb.kvStore) :
    HoldsAccounts (s.exec P e op).2.adminDb.kvStore ∧
      ((s.exec P e op).2.adminDb.kvStore.lookup listKey = some MasterService.defaultUserList ↔
        s.adminDb.kvStore.lookup listKey = some MasterService.defaultUserList ∧
          ∀ k v, op = .store (.setKv k v) → k ≠ listKey) := by
  cases hset : setsKv op with
  | false =>
    rw [kvStore_exec (hP ▸ sqlStore_keepsKv E) hset]
    refine ⟨hs, iff_self_and.mpr fun _ k v hop => ?_⟩
    rw [hop] at hset
    cases hset
  | true =>
    cases op with
    | store o =>
      cases o with
      | setKv k v =>
        obtain ⟨-, -, hkp, hvp⟩ := of_decide_eq_true hcontained
        have hlist : seedOf listKey = some MasterService.defaultUserList := by
          rw [seedOf, if_pos rfl]
        rw [exec_setKv_of_contained hP hcontained, hok hset, if_pos rfl]
        refine ⟨fun k' v' hv' hk' => ?_, ?_⟩
        · have hne : k' ≠ collapse k := by
            rintro rfl
            have hkey := seedOf_collapse hkp hv'
            rw [hkey] at hv' hk'
            rw [hop.1 hk'] at hv'
            cases hv'
          exact (AList.lookup_insert_ne hne).trans (hs k' v' hv' hk')
        · simp only [Table.lookup_insert]
          split
          · rename_i hk
            rw [hk] at hlist
            have hkey := seedOf_collapse hkp hlist
            refine iff_of_false (fun hv => ?_) fun hall => hall.2 k v rfl (hkey.symm.trans hk.symm)
            -- the text of the seeded list has no quote, so nothing else is stored as it
            obtain ⟨-, -, -, hquote⟩ := plain_seed hlist
            refine hop.2 (hkey.symm.trans hk.symm) (collapse_inj hvp hquote.paired ?_)
            rw [(collapse_eq_self hquote.paired).mpr hquote, Option.some.inj hv]
          · rename_i hk
            refine iff_self_and.mpr fun _ k' v' hop' => ?_
            cases hop'
            rintro rfl
            have hquote := (plain_seed hlist).2.1
            exact hk ((collapse_eq_self hquote.paired).mpr hquote).symm
      | _ => cases hset
    | _ => cases hset

/-- What an existence check leads to: nothing harms the seeded accounts. -/
theorem restrained_of_check (hP : P.store = sqlStore E) {r : CreateUserRequest} {e : Env}
    {op : MasterOp} {cont : op.Res → MasterProg Reply} (h : createAt r .checking = .call op cont)
    (hok : (∃ k, op = .store (.getKv k)) → e.sqliteOk = true)
    (hs : HoldsAccounts c.state.adminDb.kvStore) :
    (cont (c.state.exec P e op).1).Only SparesSeeds ∧ SparesSeeds op := by
  rw [createAt_checking] at h
  cases h
  refine ⟨?_, trivial⟩
  -- the check finds the two seeded accounts
  have hfinds {u v : String} (hu : seedOf (userKey u) = some v) (hr : r.username = u) :
      (c.state.exec P e (.store (.getKv (userKey r.username)))).1.isSome = true := by
    obtain ⟨hnul, hquote, -⟩ := plain_seed hu
    rw [hr, exec_getKv_of_paired hP hnul hquote.paired, hok ⟨_, rfl⟩, if_pos rfl,
      (collapse_eq_self hquote.paired).mpr hquote, hs _ _ hu (userKey_ne_listKey u)]
    rfl
  dsimp only
  split
  · trivial
  · rename_i hnone
    refine only_sparesSeeds (fun hr => hnone ?_) fun hr => hnone ?_
    · exact hfinds (v := "admin123") (by decide) hr
    · exact hfinds (v := "user123") (by decide) hr

/-- A task starts restrained. -/
theorem restrained_spawn (t : Task) : Restrained ((master P).spawn t) := by
  cases h : creation t with
  | none => exact Or.inr ((only_of_not_creation P h).mono fun _ => sparesSeeds_of_not_setsKv)
  | some r =>
    obtain ⟨metadata, rfl⟩ := creation_eq_some h
    exact Or.inl ⟨r, master_body_rpc P metadata (.createUser r)⟩

/-- **One step of the server.** -/
theorem Seeded.step (hP : P.store = sqlStore E) (h : Seeded es c) (hcontained : contained ev = true)
    (hok : kvIdeal ev = true) (hstep : (master P).Step c ev c') : Seeded (es ++ [ev]) c' := by
  cases hstep with
  | start t =>
    refine ⟨h.accounts, ?_, fun th hth => ?_⟩
    · rw [List.forall_mem_append, List.forall_mem_singleton]
      exact h.list.trans (iff_self_and.mpr fun _ => rfl)
    · rcases List.mem_append.mp hth with hth | hth
      · exact h.threads th hth
      · obtain rfl := List.mem_singleton.mp hth
        exact restrained_spawn t
  | did i t e op cont hi =>
    have hself : (cont (c.state.exec P e op).1).Only SparesSeeds ∧ SparesSeeds op := by
      rcases h.threads _ (List.mem_of_getElem? hi) with ⟨r, hr⟩ | hr
      · exact restrained_of_check hP hr.symm (fun hget => sqliteOk_of_kvIdeal hok (Or.inr hget))
          h.accounts
      · exact ⟨hr.2 _, hr.1⟩
    obtain ⟨hs, hl⟩ := hself.2.exec hP hcontained
      (fun hset => sqliteOk_of_kvIdeal hok (Or.inl hset)) h.accounts
    refine ⟨hs, ?_, fun th hth => ?_⟩
    · rw [List.forall_mem_append, List.forall_mem_singleton, writesList_eq_false]
      exact hl.trans (and_congr_left fun _ => h.list)
    · obtain ⟨k, hk⟩ := List.getElem?_of_mem hth
      rcases getElem?_after_master hk with ⟨-, rfl⟩ | ⟨-, hk⟩
      · exact Or.inr hself.1
      · exact h.threads th (List.mem_of_getElem? hk)

end Step

section Restarts

variable {jobsDb adminDb : Tables} {fs : Fs}

end Restarts

end CertOS
