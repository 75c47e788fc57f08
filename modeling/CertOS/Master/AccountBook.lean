import CertOS.Master.Restart

/-!
# Accounts, one call at a time

The passwords, the roles and the account list share one flat table of strings, under keys
made of a prefix and a name. As long as the calls come one at a time and the table is an
ideal map, this works for every name: no two keys clash, so the table holds an account book
(`CertOS.account`), in which the first call of `CreateUser` for a name makes the entry and
no call changes it. `Login` reads the book (`CertOS.accounts_write_once`).

There is no way to take an entry out of the book. `AdminDeleteUser` answers that it has done
so and does nothing, and so, in every state, it does what it says for those names only that
have no password and are not on the account list (`CertOS.delete_revokes_iff`).
-/

namespace CertOS

open Interleave

variable {Fs : Type} {P : Platform Tables Fs}

/-! ### Histories -/

/-- **Calls one at a time**: the calls of a history, each with its reply, take the master
from `s` to the last state. The key-value table is an ideal map, so each statement on it is
carried out. -/
inductive OneByOne (P : Platform Tables Fs) (s : MasterState Tables Fs) :
    List (Rpc × Reply) → MasterState Tables Fs → Prop
  /-- No call was made. -/
  | nil : OneByOne P s [] s
  /-- One more call was made. -/
  | snoc {log : List (Rpc × Reply)} {s₁ : MasterState Tables Fs} (metadata : Metadata)
      (call : Rpc) (e : ℕ → Env) (h : OneByOne P s log s₁) (he : ∀ n, (e n).sqliteOk = true) :
      OneByOne P s (log ++ [(call, (runTask P (.rpc metadata call) e s₁).1)])
        (runTask P (.rpc metadata call) e s₁).2

/-- The calls of a history. -/
def callsOf (log : List (Rpc × Reply)) : List Rpc := log.map Prod.fst

/-- The accounts that are asked for. -/
def createRequests (calls : List Rpc) : List CreateUserRequest :=
  calls.filterMap fun call => creation (.rpc [] call)

/-- The reply of `CreateUser` is `OK`. -/
def repliesOk : Reply → Bool
  | .userInfo _ => true
  | _ => false

/-- The accounts whose creation has returned `OK`. -/
def createdRequests (log : List (Rpc × Reply)) : List CreateUserRequest :=
  (log.filter fun p => repliesOk p.2).filterMap fun p => creation (.rpc [] p.1)

/-- The seeded accounts, as if they had been asked for. -/
def seedRequests : List CreateUserRequest :=
  [{ username := "admin", password := "admin123", role := .admin },
    { username := "user1", password := "user123", role := .user }]

/-- The first request for a name. -/
def firstFor (u : String) (rs : List CreateUserRequest) : Option CreateUserRequest :=
  rs.find? fun r => r.username = u

/-- **The account book**: the seed of a name, or else the first request for it. -/
def account (calls : List Rpc) (u : String) : Option CreateUserRequest :=
  (firstFor u seedRequests).or (firstFor u (createRequests calls))

/-- The role of an account, as it is reported: an administrator if that was asked for, and
a user otherwise. -/
def accountRole (r : CreateUserRequest) : UserRole := if r.role = .admin then .admin else .user

theorem storedRole_roleName (r : CreateUserRequest) :
    MasterService.storedRole (some (MasterService.roleName r.role)) = accountRole r := by
  rw [MasterService.storedRole, MasterService.roleName, accountRole]
  split
  · rfl
  · rw [if_neg (by decide)]

/-! ### What the calls do to the table -/

/-- The state with another key-value table. -/
def withKv (kv : Table String String) (s : MasterState Tables Fs) : MasterState Tables Fs :=
  { s with adminDb := { s.adminDb with kvStore := kv } }

/-- The table after an account was created. -/
def enrolled (r : CreateUserRequest) (kv : Table String String) : Table String String :=
  let kv' := (kv.insert (userKey r.username) r.password).insert (roleKey r.username)
    (MasterService.roleName r.role)
  if (Text.find r.username.toList (userList kv).toList).isNone then
    kv'.insert listKey (userList kv ++ "," ++ r.username)
  else kv'

/-- The names in the account list. -/
def listedNames (kv : Table String String) : List String :=
  MasterService.splitUserList (userList kv)

/-- What is reported of a name: the role that is stored for it. -/
def userEntry (kv : Table String String) (u : String) : UserInfo where
  username := u
  role := MasterService.storedRole (kv.lookup (roleKey u))

section Calls

variable {metadata : Metadata} {e : ℕ → Env} {s : MasterState Tables Fs}

/-- `Login`, alone. -/
theorem run_login (hP : P.store = idealStore) (he : ∀ n, (e n).sqliteOk = true) (u p : String) :
    runTask P (.rpc metadata (.login u p)) e s =
      (if s.adminDb.kvStore.lookup (userKey u) = some p then
        .authToken
          { accessToken := MasterService.tokenMarker ++ u
            tokenType := "Bearer"
            user := userEntry s.adminDb.kvStore u }
      else .error ⟨.unauthenticated, "Invalid credentials"⟩, s) := by
  rw [runTask, master_body_rpc, Rpc.handle, Prog.run_map, MasterService.login, Call.getKv,
    Prog.op_bind, Prog.run_call, exec_getKv hP (he 0)]
  by_cases h : s.adminDb.kvStore.lookup (userKey u) = some p
  · have hpass : s.adminDb.kvStore.lookup ("user:" ++ u) = some p := h
    simp only [if_pos hpass, if_pos h]
    rw [Call.getKv, Prog.op_bind, Prog.run_call, exec_getKv hP (he _)]
    rfl
  · have hpass : ¬ s.adminDb.kvStore.lookup ("user:" ++ u) = some p := h
    simp only [if_neg hpass, if_neg h]
    rfl

/-- `CreateUser` for a name that is taken. -/
theorem run_createUser_of_taken (hP : P.store = idealStore) (he : ∀ n, (e n).sqliteOk = true)
    {r : CreateUserRequest} (h : s.adminDb.kvStore.lookup (userKey r.username) ≠ none) :
    runTask P (.rpc metadata (.createUser r)) e s =
      (.error ⟨.alreadyExists, "User already exists"⟩, s) := by
  have hbody : (master P).body (.rpc metadata (.createUser r)) = createAt r .checking :=
    master_body_rpc P metadata _
  rw [runTask, hbody, createAt_checking, Prog.run_call, exec_getKv hP (he 0),
    if_pos (Option.isSome_iff_ne_none.mpr h)]
  rfl

/-- `CreateUser` for a name that is free. -/
theorem run_createUser_of_free (metadata : Metadata) (hP : P.store = idealStore)
    (he : ∀ n, (e n).sqliteOk = true) {r : CreateUserRequest}
    (h : s.adminDb.kvStore.lookup (userKey r.username) = none) :
    ∃ info, runTask P (.rpc metadata (.createUser r)) e s =
      (.userInfo info, withKv (enrolled r s.adminDb.kvStore) s) := by
  have hbody : (master P).body (.rpc metadata (.createUser r)) = createAt r .checking :=
    master_body_rpc P metadata _
  have hstore : createAt r .storingPassword =
      .call (.store (.setKv (userKey r.username) r.password)) fun _ => createAt r .storingRole :=
    rfl
  have hrole : createAt r .storingRole =
      .call (.store (.setKv (roleKey r.username) (MasterService.roleName r.role))) fun _ =>
        createAt r .readingList := rfl
  rw [runTask, hbody, createAt_checking, Prog.run_call, exec_getKv hP (he 0), h]
  rw [Option.isSome_none, if_neg Bool.false_ne_true, hstore, Prog.run_call, exec_setKv hP (he _),
    hrole, Prog.run_call, exec_setKv hP (he _), createAt_readingList, Prog.run_call,
    exec_getKv hP (he _)]
  dsimp only
  rw [AList.lookup_insert_ne (roleKey_ne_listKey _).symm,
    AList.lookup_insert_ne (userKey_ne_listKey _).symm, enrolled, userList]
  split
  · have hlist (L : String) : createAt r (.writingList L) =
        .call (.store (.setKv listKey (L ++ "," ++ r.username))) fun _ => createAt r .finishing :=
      rfl
    rw [hlist, Prog.run_call, exec_setKv hP (he _)]
    exact ⟨_, rfl⟩
  · exact ⟨_, rfl⟩

/-- Looking up the roles, alone. -/
theorem run_listRoles (hP : P.store = idealStore) (he : ∀ n, (e n).sqliteOk = true)
    (users : List String) :
    (MasterService.listRoles users).run (MasterState.exec P) e s =
      (users.map (userEntry s.adminDb.kvStore), s) := by
  induction users generalizing e with
  | nil => rfl
  | cons u users ih =>
    have hrest (e : ℕ → Env) (f : List UserInfo → List UserInfo) :
        (MasterService.listRoles users >>= fun rest => (Prog.ret (f rest) :
          MasterProg (List UserInfo))).run (MasterState.exec P) e s =
          (f ((MasterService.listRoles users).run (MasterState.exec P) e s).1,
            ((MasterService.listRoles users).run (MasterState.exec P) e s).2) :=
      Prog.run_map (MasterState.exec P) e (MasterService.listRoles users) f s
    rw [MasterService.listRoles, Call.getKv, Prog.op_bind, Prog.run_call, exec_getKv hP (he 0)]
    exact (hrest _ _).trans (by rw [ih fun n => he (n + 1)]; rfl)

/-- `AdminListUsers`, alone: the names in the list, with the roles that are stored. -/
theorem run_adminListUsers (metadata : Metadata) (hP : P.store = idealStore)
    (he : ∀ n, (e n).sqliteOk = true) :
    runTask P (.rpc metadata .adminListUsers) e s =
      (.users ((listedNames s.adminDb.kvStore).map (userEntry s.adminDb.kvStore)), s) := by
  have hdefault : MasterService.splitUserList MasterService.defaultUserList = ["admin", "user1"] :=
    by decide +kernel
  rw [runTask, master_body_rpc, Rpc.handle, Prog.run_map, MasterService.adminListUsers,
    Call.getKv, Prog.op_bind, Prog.run_call, exec_getKv hP (he 0), run_listRoles hP fun n =>
      he (n + 1), listedNames, userList, listKey]
  cases s.adminDb.kvStore.lookup "system:user_list" with
  | none =>
    rw [Option.getD_none, hdefault]
  | some L => rfl

/-- The other calls leave the table alone. -/
theorem kvStore_runTask (hP : P.store = idealStore) {t : Task} (h : creation t = none)
    (e : ℕ → Env) (s : MasterState Tables Fs) :
    (runTask P t e s).2.adminDb.kvStore = s.adminDb.kvStore :=
  (only_of_not_creation P h).run
    (J := fun s' : MasterState Tables Fs => s'.adminDb.kvStore = s.adminDb.kvStore)
    (fun _ _ _ hop hs => (kvStore_exec (keepsKv_of_eq hP) hop).trans hs) rfl

end Calls

/-! ### The book -/

section Book

variable {calls : List Rpc} {log : List (Rpc × Reply)} {r r' : CreateUserRequest} {u : String}
  {kv : Table String String}

theorem firstFor_append (u : String) (rs rs' : List CreateUserRequest) :
    firstFor u (rs ++ rs') = (firstFor u rs).or (firstFor u rs') :=
  List.find?_append

/-- What account a call creates does not depend on its metadata. -/
theorem creation_rpc (metadata : Metadata) (call : Rpc) :
    creation (.rpc metadata call) = creation (.rpc [] call) := by
  cases call <;> rfl

/-- A call that creates no account enters nothing into the book. -/
theorem account_snoc_of_other {call : Rpc} (h : creation (.rpc [] call) = none) (u : String) :
    account (calls ++ [call]) u = account calls u := by
  have hnone : createRequests [call] = [] := by
    exact List.filterMap_cons_none h
  rw [account, account, createRequests, List.filterMap_append]
  change (firstFor u seedRequests).or (firstFor u (_ ++ createRequests [call])) = _
  rw [hnone, List.append_nil]
  rfl

/-- **A request enters a name that is not in the book**, and changes no entry. -/
theorem account_snoc_create (r : CreateUserRequest) (u : String) :
    account (calls ++ [.createUser r]) u =
      (account calls u).or (if r.username = u then some r else none) := by
  have hone : firstFor u [r] = if r.username = u then some r else none := by
    rw [firstFor, List.find?_singleton]
    simp
  have hcreate : createRequests (calls ++ [.createUser r]) = createRequests calls ++ [r] := by
    rw [createRequests, List.filterMap_append]
    rfl
  rw [account, hcreate, firstFor_append, hone, account, Option.or_assoc]

theorem account_snoc_of_taken (h : (account calls r.username).isSome = true) (u : String) :
    account (calls ++ [.createUser r]) u = account calls u := by
  rw [account_snoc_create]
  obtain ⟨r', hr'⟩ := Option.isSome_iff_exists.mp h
  split
  · rename_i hu
    rw [← hu, hr', Option.some_or]
  · exact Option.or_none

theorem account_snoc_self (h : account calls r.username = none) :
    account (calls ++ [.createUser r]) r.username = some r := by
  rw [account_snoc_create, h, if_pos rfl, Option.none_or]

theorem account_snoc_of_ne (h : r.username ≠ u) :
    account (calls ++ [.createUser r]) u = account calls u := by
  rw [account_snoc_create, if_neg h, Option.or_none]

/-- **The table holds the book**: under the two keys of a name stand the password and the
role of its entry, and nothing if there is none. -/
structure HoldsBook (calls : List Rpc) (kv : Table String String) : Prop where
  password : ∀ u, kv.lookup (userKey u) = (account calls u).map CreateUserRequest.password
  role : ∀ u, kv.lookup (roleKey u) =
    (account calls u).map fun r => MasterService.roleName r.role

/-- A name is free in the table just if it has no entry. -/
theorem HoldsBook.lookup_eq_none (h : HoldsBook calls kv) :
    kv.lookup (userKey u) = none ↔ account calls u = none := by
  rw [h.password u, Option.map_eq_none_iff]

theorem lookup_enrolled_of_ne_listKey {k : String} (hk : k ≠ listKey) :
    (enrolled r kv).lookup k = if k = roleKey r.username then some (MasterService.roleName r.role)
      else if k = userKey r.username then some r.password else kv.lookup k := by
  rw [enrolled]
  split
  · rw [AList.lookup_insert_ne hk, Table.lookup_insert, Table.lookup_insert]
  · rw [Table.lookup_insert, Table.lookup_insert]

/-- An account that is created is entered into the table, and no other one is touched. -/
theorem HoldsBook.enrolled (h : HoldsBook calls kv) (hfree : account calls r.username = none) :
    HoldsBook (calls ++ [.createUser r]) (enrolled r kv) where
  password u := by
    rw [lookup_enrolled_of_ne_listKey (userKey_ne_listKey u), if_neg (userKey_ne_roleKey u _)]
    by_cases hu : r.username = u
    · subst hu
      rw [if_pos rfl, account_snoc_self hfree]
      rfl
    · rw [if_neg (userKey_ne_userKey (Ne.symm hu)), account_snoc_of_ne hu, h.password u]
  role u := by
    rw [lookup_enrolled_of_ne_listKey (roleKey_ne_listKey u)]
    by_cases hu : r.username = u
    · subst hu
      rw [if_pos rfl, account_snoc_self hfree]
      rfl
    · rw [if_neg (roleKey_ne_roleKey (Ne.symm hu)), if_neg (userKey_ne_roleKey _ u).symm,
        account_snoc_of_ne hu, h.role u]

/-- **What a request does**: a name without an entry gets one, and a request for another name is
turned away. -/
theorem HoldsBook.createUser_cases (hP : P.store = idealStore) {s : MasterState Tables Fs}
    (h : HoldsBook calls s.adminDb.kvStore) (metadata : Metadata) (r : CreateUserRequest)
    {e : ℕ → Env} (he : ∀ n, (e n).sqliteOk = true) :
    (account calls r.username = none ∧ ∃ info, runTask P (.rpc metadata (.createUser r)) e s =
      (.userInfo info, withKv (CertOS.enrolled r s.adminDb.kvStore) s)) ∨
    ((account calls r.username).isSome = true ∧ runTask P (.rpc metadata (.createUser r)) e s =
      (.error ⟨.alreadyExists, "User already exists"⟩, s)) := by
  by_cases hfree : account calls r.username = none
  · exact Or.inl ⟨hfree, run_createUser_of_free metadata hP he (h.lookup_eq_none.mpr hfree)⟩
  · have hkey : s.adminDb.kvStore.lookup (userKey r.username) ≠ none :=
      fun hnone => hfree (h.lookup_eq_none.mp hnone)
    exact Or.inr ⟨Option.isSome_iff_ne_none.mpr hfree, run_createUser_of_taken hP he hkey⟩

/-- **One call** keeps the table and the book together. -/
theorem HoldsBook.step (hP : P.store = idealStore) {s : MasterState Tables Fs}
    (h : HoldsBook calls s.adminDb.kvStore) (metadata : Metadata) (call : Rpc) {e : ℕ → Env}
    (he : ∀ n, (e n).sqliteOk = true) :
    HoldsBook (calls ++ [call])
      (runTask P (.rpc metadata call) e s).2.adminDb.kvStore := by
  cases hc : creation (.rpc [] call) with
  | none =>
    rw [kvStore_runTask hP ((creation_rpc metadata call).trans hc)]
    refine ⟨fun u => ?_, fun u => ?_⟩
    · rw [account_snoc_of_other hc, h.password u]
    · rw [account_snoc_of_other hc, h.role u]
  | some r =>
    obtain ⟨metadata', hcall⟩ := creation_eq_some hc
    obtain ⟨-, rfl⟩ := Task.rpc.inj hcall
    rcases h.createUser_cases hP metadata r he with ⟨hfree, info, hrun⟩ | ⟨htaken, hrun⟩
    · rw [hrun]
      exact h.enrolled hfree
    · rw [hrun]
      refine ⟨fun u => ?_, fun u => ?_⟩
      · rw [account_snoc_of_taken htaken, h.password u]
      · rw [account_snoc_of_taken htaken, h.role u]

/-- The constructor writes the seeds. -/
theorem holdsBook_construct (hP : P.store = idealStore) {e : ℕ → Env}
    (he : ∀ n, (e n).sqliteOk = true) (jobsDb : Tables) (fs : Fs) :
    HoldsBook [] (construct P e jobsDb {} fs).adminDb.kvStore := by
  have hbook (u : String) : account [] u = if u = "admin" then some
      { username := "admin", password := "admin123", role := .admin } else if u = "user1" then
      some { username := "user1", password := "user123", role := .user } else none := by
    rw [account, firstFor, firstFor, seedRequests]
    simp only [createRequests, List.filterMap_nil, List.find?_nil, Option.or_none,
      List.find?_cons, @eq_comm String _ u]
    split_ifs <;> simp_all
  have hnone (k : String) : ({} : Tables).kvStore.lookup k = none := rfl
  refine ⟨fun u => ?_, fun u => ?_⟩
  · rw [lookup_construct (writesSeeds_of_eq hP) he, hnone, Option.or_none, hbook]
    by_cases ha : u = "admin"
    · subst ha
      decide
    · by_cases hu : u = "user1"
      · subst hu
        decide
      · rw [seedOf_userKey ha hu, if_neg ha, if_neg hu]
        rfl
  · rw [lookup_construct (writesSeeds_of_eq hP) he, hnone, Option.or_none, hbook]
    by_cases ha : u = "admin"
    · subst ha
      decide
    · by_cases hu : u = "user1"
      · subst hu
        decide
      · rw [seedOf_roleKey ha hu, if_neg ha, if_neg hu]
        rfl

/-- **After every history the table holds the book.** -/
theorem holdsBook_of_oneByOne (hP : P.store = idealStore) {e : ℕ → Env}
    (he : ∀ n, (e n).sqliteOk = true) {jobsDb : Tables} {fs : Fs} {s : MasterState Tables Fs}
    (h : OneByOne P (construct P e jobsDb {} fs) log s) :
    HoldsBook (callsOf log) s.adminDb.kvStore := by
  induction h with
  | nil => exact holdsBook_construct hP he jobsDb fs
  | snoc metadata call e _ he' ih =>
    rw [callsOf, List.map_append]
    exact ih.step hP metadata call he'

end Book

/-! ### Logging in -/

/-- **Accounts are write-once and `Login` matches them**: it lets in who has an entry with
this password, and reports the role of the entry; and a second request for a name is turned
away, and changes nothing. -/
structure WriteOnce (P : Platform Tables Fs) (calls : List Rpc) (s : MasterState Tables Fs) :
    Prop where
  login : ∀ (metadata : Metadata) (e : ℕ → Env) u p, (∀ n, (e n).sqliteOk = true) →
    ((∃ tok, (runTask P (.rpc metadata (.login u p)) e s).1 = .authToken tok) ↔
      ∃ r, account calls u = some r ∧ r.password = p)
  role : ∀ (metadata : Metadata) (e : ℕ → Env) u p tok, (∀ n, (e n).sqliteOk = true) →
    (runTask P (.rpc metadata (.login u p)) e s).1 = .authToken tok →
      ∃ r, account calls u = some r ∧ tok.user.role = accountRole r
  create : ∀ (metadata : Metadata) (e : ℕ → Env) r, (∀ n, (e n).sqliteOk = true) →
    (account calls r.username).isSome = true →
      runTask P (.rpc metadata (.createUser r)) e s =
        (.error ⟨.alreadyExists, "User already exists"⟩, s)

section Login

variable {log : List (Rpc × Reply)} {jobsDb : Tables} {fs : Fs} {s : MasterState Tables Fs}
  {calls : List Rpc}

/-- A login that is let in is let in for its entry. -/
theorem HoldsBook.login_eq_some (h : HoldsBook calls s.adminDb.kvStore) {u p : String} :
    s.adminDb.kvStore.lookup (userKey u) = some p ↔
      ∃ r, account calls u = some r ∧ r.password = p := by
  rw [h.password u, Option.map_eq_some_iff]

/-- Where the table holds the book, the accounts are write-once. -/
theorem HoldsBook.writeOnce (hP : P.store = idealStore) (h : HoldsBook calls s.adminDb.kvStore) :
    WriteOnce P calls s where
  login metadata e u p he := by
    rw [← h.login_eq_some, run_login hP he]
    constructor
    · rintro ⟨tok, htok⟩
      by_contra hnot
      rw [if_neg hnot] at htok
      cases htok
    · intro hpass
      rw [if_pos hpass]
      exact ⟨_, rfl⟩
  role metadata e u p tok he htok := by
    rw [run_login hP he] at htok
    dsimp only at htok
    split at htok
    · rename_i hpass
      obtain ⟨r, hr, -⟩ := h.login_eq_some.mp hpass
      obtain rfl := Reply.authToken.inj htok
      refine ⟨r, hr, ?_⟩
      rw [← storedRole_roleName r, userEntry, h.role u, hr]
      rfl
    · cases htok
  create metadata e r he hr := by
    refine run_createUser_of_taken hP he fun hnone => ?_
    rw [h.lookup_eq_none.mp hnone] at hr
    cases hr

/-- **Accounts are write-once and `Login` matches them**, for every sequence of calls from the
seeded accounts on, whatever strings they carry. -/
theorem accounts_write_once (hP : P.store = idealStore) {e : ℕ → Env}
    (he : ∀ n, (e n).sqliteOk = true) (h : OneByOne P (construct P e jobsDb {} fs) log s) :
    WriteOnce P (callsOf log) s :=
  (holdsBook_of_oneByOne hP he h).writeOnce hP

end Login

/-- The master with the seeded accounts. -/
def seededMaster : MasterState Tables Unit := construct barePlatform (fun _ => {}) {} {} ()

/-- The master after some calls, one at a time. -/
def afterCalls (calls : List Rpc) : MasterState Tables Unit :=
  calls.foldl (fun s call => (runTask barePlatform (.rpc [] call) (fun _ => {}) s).2) seededMaster

/-- The law at work: Eve is created as an administrator, so she is let in with the password
of that call, as one, and cannot be created again. -/
theorem accounts_write_once_eve :
    (∃ tok, (runTask barePlatform (.rpc [] (.login "eve" "p1")) (fun _ => {})
        (afterCalls [.createUser eveAdmin])).1 = .authToken tok ∧ tok.user.role = .admin) ∧
      runTask barePlatform (.rpc [] (.createUser eveUser)) (fun _ => {})
          (afterCalls [.createUser eveAdmin]) =
        (.error ⟨.alreadyExists, "User already exists"⟩, afterCalls [.createUser eveAdmin]) := by
  have hrun := OneByOne.nil (P := barePlatform) (s := seededMaster)
  replace hrun := hrun.snoc [] (.createUser eveAdmin) (fun _ => {}) fun _ => rfl
  have hlaw := accounts_write_once rfl (fun _ => rfl) hrun
  have heve : account [.createUser eveAdmin] "eve" = some eveAdmin := by decide
  obtain ⟨tok, htok⟩ := (hlaw.login [] (fun _ => {}) "eve" "p1" fun _ => rfl).mpr
    ⟨eveAdmin, heve, rfl⟩
  obtain ⟨r, hr, hrole⟩ := hlaw.role [] _ "eve" "p1" tok (fun _ => rfl) htok
  obtain rfl := Option.some.inj (heve.symm.trans hr)
  exact ⟨⟨tok, htok, hrole⟩, hlaw.create [] _ eveUser (fun _ => rfl) (by decide)⟩

/-! ### Deleting -/

/-- **The account is revoked**: nobody is let in under the name, it is not listed, and every
other account is what it was. -/
structure Revoked (P : Platform Tables Fs) (u : String) (s s' : MasterState Tables Fs) : Prop where
  login : ∀ (metadata : Metadata) (e : ℕ → Env) p, (∀ n, (e n).sqliteOk = true) →
    ∃ status, (runTask P (.rpc metadata (.login u p)) e s').1 = .error status
  list : ∀ (metadata : Metadata) (e : ℕ → Env) us, (∀ n, (e n).sqliteOk = true) →
    (runTask P (.rpc metadata .adminListUsers) e s').1 = .users us →
      u ∉ us.map UserInfo.username
  password : ∀ v, v ≠ u →
    s'.adminDb.kvStore.lookup (userKey v) = s.adminDb.kvStore.lookup (userKey v)
  role : ∀ v, v ≠ u →
    s'.adminDb.kvStore.lookup (roleKey v) = s.adminDb.kvStore.lookup (roleKey v)
  listed : ∀ v, v ≠ u → (v ∈ listedNames s'.adminDb.kvStore ↔ v ∈ listedNames s.adminDb.kvStore)

/-- The call replies success. -/
def RepliesSuccess (a : Reply) : Prop :=
  ∃ res : StatusResponse, a = .status res ∧ res.success = true

section Delete

variable {s : MasterState Tables Fs} {u : String}

/-- `AdminDeleteUser`, alone: it does nothing. -/
theorem run_adminDeleteUser (metadata : Metadata) (e : ℕ → Env) (hu : u ≠ "admin") :
    runTask P (.rpc metadata (.adminDeleteUser u)) e s =
      (.status { success := true, message := "User deleted" }, s) := by
  rw [runTask, master_body_rpc, Rpc.handle, Prog.run_map, MasterService.adminDeleteUser,
    if_neg hu]
  rfl

theorem map_username_userEntry (kv : Table String String) (us : List String) :
    (us.map (userEntry kv)).map UserInfo.username = us := by
  rw [List.map_map]
  exact List.map_id us

/-- **A deletion that replies success revokes the account** if and only if there is nothing
to revoke, in every state: the name has no password, and is not on the list. -/
theorem delete_revokes_iff (hP : P.store = idealStore) (hu : u ≠ "admin") (metadata : Metadata)
    (e : ℕ → Env) (s : MasterState Tables Fs) :
    (RepliesSuccess (runTask P (.rpc metadata (.adminDeleteUser u)) e s).1 →
        Revoked P u s (runTask P (.rpc metadata (.adminDeleteUser u)) e s).2) ↔
      s.adminDb.kvStore.lookup (userKey u) = none ∧ u ∉ listedNames s.adminDb.kvStore := by
  have he₀ : ∀ n : ℕ, ((fun _ => {}) n : Env).sqliteOk = true := fun _ => rfl
  rw [run_adminDeleteUser metadata e hu]
  constructor
  · intro hrev
    obtain ⟨hlogin, hlisted, -⟩ := hrev ⟨_, rfl, rfl⟩
    constructor
    · by_contra hsome
      obtain ⟨p, hp⟩ := Option.ne_none_iff_exists'.mp hsome
      -- the password that is stored still lets its owner in
      obtain ⟨status, hstatus⟩ := hlogin [] (fun _ => {}) p he₀
      rw [run_login hP he₀, if_pos hp] at hstatus
      cases hstatus
    · have hnot := hlisted [] (fun _ => {}) _ he₀
        (congrArg Prod.fst (run_adminListUsers (s := s) [] hP he₀))
      rwa [map_username_userEntry] at hnot
  · rintro ⟨hnone, hnot⟩ -
    refine ⟨fun metadata e p he => ?_, fun metadata e us he hus => ?_, fun _ _ => rfl,
      fun _ _ => rfl, fun _ _ => Iff.rfl⟩
    · rw [run_login hP he, if_neg (by rw [hnone]; exact Option.some_ne_none p ∘ Eq.symm)]
      exact ⟨_, rfl⟩
    · rw [run_adminListUsers metadata hP he] at hus
      obtain rfl := Reply.users.inj hus
      rwa [map_username_userEntry]

end Delete

/-- The law at work: Bob, who was never created, is deleted. -/
theorem delete_revokes_bob :
    Revoked barePlatform "bob" seededMaster
      (runTask barePlatform (.rpc [] (.adminDeleteUser "bob")) (fun _ => {}) seededMaster).2 :=
  (delete_revokes_iff rfl (u := "bob") (by decide) [] (fun _ => {}) seededMaster).mpr
    ⟨by decide +kernel, by decide +kernel⟩ ⟨_, rfl, rfl⟩

/-- **A deleted user logs in**: `user1` is deleted, the reply says success, and the password
that was good before is good after. -/
theorem deleted_user_logs_in :
    RepliesSuccess (runTask barePlatform (.rpc [] (.adminDeleteUser "user1")) (fun _ => {})
        seededMaster).1 ∧
      ¬ Revoked barePlatform "user1" seededMaster (runTask barePlatform
        (.rpc [] (.adminDeleteUser "user1")) (fun _ => {}) seededMaster).2 := by
  refine ⟨⟨_, rfl, rfl⟩, fun h => ?_⟩
  obtain ⟨status, hstatus⟩ := h.login [] (fun _ => {}) "user123" fun _ => rfl
  have hin : (runTask barePlatform (.rpc [] (.login "user1" "user123")) (fun _ => {})
      (runTask barePlatform (.rpc [] (.adminDeleteUser "user1")) (fun _ => {}) seededMaster).2).1 =
      .authToken { accessToken := "mock-jwt-for-user1", tokenType := "Bearer", user :=
        { username := "user1", role := .user } } := by
    decide +kernel
  rw [hin] at hstatus
  cases hstatus

end CertOS
