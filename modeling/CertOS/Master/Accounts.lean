import CertOS.Master.Footprint
import CertOS.Text

/-!
# Accounts

`CreateUser` is a check, two writes and a read-modify-write of the account list,
on the key-value table of the admin database, with the lock of the store
released between any two of them. An account ought to be created once, with the
password and the role of one call, and to appear in the list.

All of it rests on one condition (`CertOS.creationsApart`): no call of
`CreateUser` reads a key that another one is about to write. For the key of a
password, the reader is the existence check of a second call for the same name,
and the writer a call that has passed its own check; for the account list it is
the read of one list update inside another one. Under that condition
`CertOS.create_user_atomic` gives the law for every run of the master;
`CertOS.account_created_twice` is what happens without it.
-/

namespace CertOS

open Interleave

variable {Fs : Type} {P : Platform Tables Fs}

/-! ### The calls in the pool -/

/-- The account a task creates, if it is a call of `CreateUser`. -/
def creation : Task → Option CreateUserRequest
  | .rpc _ (.createUser request) => some request
  | _ => none

/-- The thread is about to write key `k`. -/
def aboutToSet (k : String) (th : Thread MasterOp.Res Task Reply) : Bool :=
  match th.prog with
  | .call (.store (.setKv k' _)) _ => k' = k
  | _ => false

/-- **The creations keep apart**: no call of `CreateUser` reads a key that
another one is about to write. -/
def creationsApart (c : MasterConfig Tables Fs) : MasterEvent → Bool
  | .did _ t _ (.store (.getKv k)) _ =>
    (creation t).isNone || c.threads.all fun th => !aboutToSet k th
  | _ => true

/-- The key-value table is an ideal map: its statements are carried out. -/
def kvIdeal : MasterEvent → Bool
  | .did _ _ e (.store (.getKv _)) _ | .did _ _ e (.store (.setKv ..)) _ => e.sqliteOk
  | _ => true

/-- Thread `i` is a call of `CreateUser` with request `r`. -/
def Creates (c : MasterConfig Tables Fs) (i : ℕ) (r : CreateUserRequest) : Prop :=
  ∃ th, c.threads[i]? = some th ∧ creation th.task = some r

/-- Thread `i` was a call of `CreateUser` with request `r` and has returned
`OK`. -/
def Created (c : MasterConfig Tables Fs) (i : ℕ) (r : CreateUserRequest) : Prop :=
  ∃ th info, c.threads[i]? = some th ∧ creation th.task = some r ∧
    th.result = some (.userInfo info)

theorem creation_eq_some {t : Task} {r : CreateUserRequest} (h : creation t = some r) :
    ∃ metadata, t = .rpc metadata (.createUser r) := by
  cases t with
  | rpc metadata rpc =>
    cases rpc with
    | createUser request =>
      obtain rfl := Option.some.inj h
      exact ⟨metadata, rfl⟩
    | _ => cases h
  | _ => cases h

/-- The operation writes the key-value table. -/
def setsKv : MasterOp → Bool
  | .store (.setKv ..) => true
  | _ => false

/-- On an ideal table, the statements of a call are carried out. -/
theorem sqliteOk_of_kvIdeal {i : ℕ} {t : Task} {e : Env} {op : MasterOp} {r : op.Res}
    (h : kvIdeal (.did i t e op r) = true) (hop : setsKv op = true ∨ ∃ k, op = .store (.getKv k)) :
    e.sqliteOk = true := by
  rcases hop with hs | ⟨k, rfl⟩
  · cases op with
    | store o =>
      cases o with
      | setKv k v => exact h
      | _ => cases hs
    | _ => cases hs
  · exact h

/-- **The other tasks leave the accounts alone.** -/
theorem only_of_not_creation {Db : Type} (P : Platform Db Fs) {t : Task} (h : creation t = none) :
    ((master P).body t).Only fun op => setsKv op = false := by
  refine (only_mayDo P t).mono fun op hop => ?_
  by_contra hs
  rw [Bool.not_eq_false] at hs
  cases op with
  | store o =>
    cases o with
    | setKv k v =>
      cases t with
      | rpc metadata rpc =>
        cases rpc with
        | createUser request => cases h
        | _ => cases hop
      | _ => cases hop
    | _ => cases hs
  | _ => cases hs

theorem kvStore_exec {e : Env} {op : MasterOp} {s : MasterState Tables Fs}
    (hP : P.store.KeepsKv) (h : setsKv op = false) :
    (s.exec P e op).2.adminDb.kvStore = s.adminDb.kvStore := by
  cases op with
  | store o =>
    refine hP e.sqliteOk o s.adminDb fun k v ho => ?_
    rw [ho] at h
    cases h
  | _ => rfl

/-! ### Keys -/

/-- The key of a password. -/
def userKey (username : String) : String := "user:" ++ username

/-- The key of a role. -/
def roleKey (username : String) : String := "role:" ++ username

/-- The key of the account list. -/
def listKey : String := "system:user_list"

theorem eq_of_append_eq {s u v : String} (h : s ++ u = s ++ v) : u = v := by
  have hl := congrArg String.toList h
  rw [String.toList_append, String.toList_append] at hl
  exact String.toList_injective (List.append_cancel_left hl)

theorem userKey_ne_userKey {u v : String} (h : u ≠ v) : userKey u ≠ userKey v := fun he =>
  h (eq_of_append_eq he)

theorem roleKey_ne_roleKey {u v : String} (h : u ≠ v) : roleKey u ≠ roleKey v := fun he =>
  h (eq_of_append_eq he)

theorem head_userKey (u : String) : (userKey u).toList.head? = some 'u' := by
  rw [userKey, String.toList_append, List.head?_append]
  rfl

theorem head_roleKey (u : String) : (roleKey u).toList.head? = some 'r' := by
  rw [roleKey, String.toList_append, List.head?_append]
  rfl

theorem head_listKey : listKey.toList.head? = some 's' := by
  decide +kernel

theorem userKey_ne_roleKey (u v : String) : userKey u ≠ roleKey v := by
  intro h
  have := head_userKey u
  rw [h, head_roleKey] at this
  cases this

theorem userKey_ne_listKey (u : String) : userKey u ≠ listKey := by
  intro h
  have := head_userKey u
  rw [h, head_listKey] at this
  cases this

theorem roleKey_ne_listKey (u : String) : roleKey u ≠ listKey := by
  intro h
  have := head_roleKey u
  rw [h, head_listKey] at this
  cases this

/-! ### The places of a call -/

/-- The steps of `CreateUser` from the read of the account list on. -/
def listUser (request : CreateUserRequest) : MasterProg (Except Status UserInfo) := do
  let existingList ← Call.getKv listKey
  let userList := existingList.getD MasterService.defaultUserList
  if (Text.find request.username.toList userList.toList).isNone then
    let _ ← Call.setKv listKey (userList ++ "," ++ request.username)
    MasterService.createdUser request
  else
    MasterService.createdUser request

/-- How far a call of `CreateUser` is. -/
inductive CreatePlace where
  /-- In front of the existence check. -/
  | checking
  /-- The name is free; in front of the write of the password. -/
  | storingPassword
  /-- In front of the write of the role. -/
  | storingRole
  /-- In front of the read of the account list. -/
  | readingList
  /-- The list is known and lacks the name; in front of its write. -/
  | writingList (userList : String)
  /-- All is written; in front of the look at the clock. -/
  | finishing
  /-- The call has returned. -/
  | ended (r : Except Status UserInfo)

/-- What is left of a call of `CreateUser` at a place. -/
def createAt (request : CreateUserRequest) : CreatePlace → MasterProg Reply
  | .checking => Reply.ofExcept .userInfo <$> MasterService.createUser request
  | .storingPassword => Reply.ofExcept .userInfo <$> MasterService.storeUser request
  | .storingRole => Reply.ofExcept .userInfo <$> do
      let _ ← Call.setKv (roleKey request.username) (MasterService.roleName request.role)
      listUser request
  | .readingList => Reply.ofExcept .userInfo <$> listUser request
  | .writingList userList => Reply.ofExcept .userInfo <$> do
      let _ ← Call.setKv listKey (userList ++ "," ++ request.username)
      MasterService.createdUser request
  | .finishing => Reply.ofExcept .userInfo <$> MasterService.createdUser request
  | .ended r => .ret (Reply.ofExcept .userInfo r)

/-- The account list of a key-value table. -/
def userList (kv : Table String String) : String :=
  (kv.lookup listKey).getD MasterService.defaultUserList

/-- **What one step of a call of `CreateUser` does** to its place and to the
key-value table. -/
inductive CreateStep (r : CreateUserRequest) (kv : Table String String) :
    CreatePlace → CreatePlace → Table String String → Prop
  | taken (s : Status) (h : kv.lookup (userKey r.username) ≠ none) :
      CreateStep r kv .checking (.ended (.error s)) kv
  | free (h : kv.lookup (userKey r.username) = none) :
      CreateStep r kv .checking .storingPassword kv
  | password :
      CreateStep r kv .storingPassword .storingRole (kv.insert (userKey r.username) r.password)
  | role :
      CreateStep r kv .storingRole .readingList
        (kv.insert (roleKey r.username) (MasterService.roleName r.role))
  | found (h : r.username.toList <:+: (userList kv).toList) :
      CreateStep r kv .readingList .finishing kv
  | missing : CreateStep r kv .readingList (.writingList (userList kv)) kv
  | listed (userList : String) :
      CreateStep r kv (.writingList userList) .finishing
        (kv.insert listKey (userList ++ "," ++ r.username))
  | done (info : UserInfo) : CreateStep r kv .finishing (.ended (.ok info)) kv

section Step

variable {r : CreateUserRequest} {pl : CreatePlace} {op : MasterOp}
  {cont : op.Res → MasterProg Reply} {e : Env} {s : MasterState Tables Fs}

/-- What the ideal store answers to a query that is carried out. -/
theorem exec_getKv (hP : P.store = idealStore) (he : e.sqliteOk = true) (k : String) :
    s.exec P e (.store (.getKv k)) = (s.adminDb.kvStore.lookup k, s) := by
  simp only [MasterState.exec_store, hP, idealStore, he, if_pos]

/-- What the ideal store does with a write that is carried out. -/
theorem exec_setKv (hP : P.store = idealStore) (he : e.sqliteOk = true) (k v : String) :
    s.exec P e (.store (.setKv k v)) =
      (true, { s with adminDb := { s.adminDb with kvStore := s.adminDb.kvStore.insert k v } }) := by
  simp only [MasterState.exec_store, hP, idealStore, he, if_pos]

/-- The existence check and its two outcomes. -/
theorem createAt_checking : createAt r .checking =
    .call (.store (.getKv (userKey r.username))) fun existing =>
      createAt r (if existing.isSome then .ended (.error ⟨.alreadyExists, "User already exists"⟩)
        else .storingPassword) := by
  simp only [createAt, MasterService.createUser, Call.getKv, Prog.op_bind, Prog.call_map, userKey]
  congr 1
  funext existing
  split <;> rfl

/-- The read of the account list and its two outcomes. -/
theorem createAt_readingList : createAt r .readingList =
    .call (.store (.getKv listKey)) fun existing =>
      createAt r (if (Text.find r.username.toList
          (existing.getD MasterService.defaultUserList).toList).isNone
        then .writingList (existing.getD MasterService.defaultUserList) else .finishing) := by
  simp only [createAt, listUser, Call.getKv, Prog.op_bind, Prog.call_map]
  congr 1
  funext existing
  split <;> rfl

/-- **One step of a call of `CreateUser`.** -/
theorem createAt_step (hP : P.store = idealStore) (h : createAt r pl = .call op cont)
    (hok : setsKv op = true ∨ (∃ k, op = .store (.getKv k)) → e.sqliteOk = true) :
    ∃ pl', cont (s.exec P e op).1 = createAt r pl' ∧
      CreateStep r s.adminDb.kvStore pl pl' (s.exec P e op).2.adminDb.kvStore := by
  cases pl with
  | checking =>
    rw [createAt_checking] at h
    cases h
    rw [exec_getKv hP (hok (Or.inr ⟨_, rfl⟩))]
    refine ⟨_, rfl, ?_⟩
    split
    · rename_i hsome
      exact .taken _ (Option.isSome_iff_ne_none.mp hsome)
    · rename_i hnone
      exact .free (Option.not_isSome_iff_eq_none.mp hnone)
  | storingPassword =>
    cases h
    rw [exec_setKv hP (hok (Or.inl rfl))]
    exact ⟨.storingRole, rfl, .password⟩
  | storingRole =>
    cases h
    rw [exec_setKv hP (hok (Or.inl rfl))]
    exact ⟨.readingList, rfl, .role⟩
  | readingList =>
    rw [createAt_readingList] at h
    cases h
    rw [exec_getKv hP (hok (Or.inr ⟨_, rfl⟩))]
    refine ⟨_, rfl, ?_⟩
    -- the name is looked for as a substring of the list
    split
    · exact .missing
    · rename_i hfound
      refine .found (by_contra fun hnot => hfound ?_)
      exact Option.isNone_iff_eq_none.mpr (Text.find_eq_none.mpr hnot)
  | writingList L =>
    cases h
    rw [exec_setKv hP (hok (Or.inl rfl))]
    exact ⟨.finishing, rfl, .listed L⟩
  | finishing =>
    cases h
    exact ⟨.ended (.ok _), rfl, .done _⟩
  | ended r => cases h

end Step

/-! ### One account -/

/-- The call has passed its existence check. -/
def CreatePlace.past : CreatePlace → Bool
  | .checking | .ended (.error _) => false
  | _ => true

/-- What the key-value table holds for the account while its call is at a
place. -/
def StoredAt (r : CreateUserRequest) (kv : Table String String) : CreatePlace → Prop
  | .checking | .ended (.error _) => True
  | .storingPassword => kv.lookup (userKey r.username) = none
  | .storingRole => kv.lookup (userKey r.username) = some r.password
  | _ =>
    kv.lookup (userKey r.username) = some r.password ∧
      kv.lookup (roleKey r.username) = some (MasterService.roleName r.role)

section Account

variable {r r' : CreateUserRequest} {kv kv' : Table String String} {pl pl' : CreatePlace}

/-- A step of a call for one name leaves the account of another name alone. -/
theorem CreateStep.frame (h : CreateStep r kv pl pl' kv') {u : String} (hu : u ≠ r.username) :
    kv'.lookup (userKey u) = kv.lookup (userKey u) ∧
      kv'.lookup (roleKey u) = kv.lookup (roleKey u) := by
  cases h with
  | password =>
    constructor
    · exact AList.lookup_insert_ne (userKey_ne_userKey hu)
    · exact AList.lookup_insert_ne (userKey_ne_roleKey _ _).symm
  | role =>
    constructor
    · exact AList.lookup_insert_ne (userKey_ne_roleKey _ _)
    · exact AList.lookup_insert_ne (roleKey_ne_roleKey hu)
  | listed L =>
    constructor
    · exact AList.lookup_insert_ne (userKey_ne_listKey _)
    · exact AList.lookup_insert_ne (roleKey_ne_listKey _)
  | _ => exact ⟨rfl, rfl⟩

/-- A call that has not passed its existence check has written nothing. -/
theorem CreateStep.eq_of_not_past (h : CreateStep r kv pl pl' kv') (hp : pl.past = false) :
    kv' = kv := by
  cases h with
  | password => cases hp
  | role => cases hp
  | listed L => cases hp
  | _ => rfl

/-- A call passes its existence check only if the name is free. -/
theorem CreateStep.past_of_past (h : CreateStep r kv pl pl' kv') (hp : pl'.past = true) :
    pl.past = true ∨ (pl = .checking ∧ kv.lookup (userKey r.username) = none) := by
  cases h with
  | free hfree => exact Or.inr ⟨rfl, hfree⟩
  | taken s h => cases hp
  | _ => exact Or.inl rfl

/-- **A step of the call itself** keeps what its place says of the account. -/
theorem CreateStep.storedAt (h : CreateStep r kv pl pl' kv') (hs : StoredAt r kv pl) :
    StoredAt r kv' pl' := by
  cases h with
  | taken s h => trivial
  | free hfree => exact hfree
  | password => exact AList.lookup_insert _
  | role =>
    refine ⟨?_, AList.lookup_insert _⟩
    rw [AList.lookup_insert_ne (userKey_ne_roleKey _ _)]
    exact hs
  | found h => exact hs
  | missing => exact hs
  | listed L =>
    obtain ⟨hpw, hrole⟩ := hs
    constructor
    · rw [AList.lookup_insert_ne (userKey_ne_listKey _)]
      exact hpw
    · rw [AList.lookup_insert_ne (roleKey_ne_listKey _)]
      exact hrole
  | done info => exact hs

/-- What a place says of an account depends on its two entries only. -/
theorem StoredAt.congr (h : StoredAt r kv pl)
    (hpw : kv'.lookup (userKey r.username) = kv.lookup (userKey r.username))
    (hrole : kv'.lookup (roleKey r.username) = kv.lookup (roleKey r.username)) :
    StoredAt r kv' pl := by
  cases pl with
  | checking => trivial
  | storingPassword => exact hpw.trans h
  | storingRole => exact hpw.trans h
  | ended a =>
    cases a with
    | error s => trivial
    | ok info => exact ⟨hpw.trans h.1, hrole.trans h.2⟩
  | _ => exact ⟨hpw.trans h.1, hrole.trans h.2⟩

/-- A call past its check has the name taken, unless it is about to write the
password. -/
theorem StoredAt.taken (h : StoredAt r kv pl) (hp : pl.past = true) :
    pl = .storingPassword ∨ kv.lookup (userKey r.username) = some r.password := by
  cases pl with
  | checking => cases hp
  | storingPassword => exact Or.inl rfl
  | storingRole => exact Or.inr h
  | ended a =>
    cases a with
    | error s => cases hp
    | ok info => exact Or.inr h.1
  | _ => exact Or.inr h.1

/-- A call that is not past its check says nothing of the account. -/
theorem storedAt_of_not_past (h : pl.past = false) : StoredAt r kv pl := by
  cases pl with
  | checking => trivial
  | ended a =>
    cases a with
    | error s => trivial
    | ok info => cases h
  | _ => cases h

end Account

/-- **The calls and the accounts**: every call is at a place, at most one call
for a name is past its check, and the table holds what the places say. -/
structure Creations (c : MasterConfig Tables Fs) (pl : ℕ → CreatePlace) : Prop where
  others : ∀ (i : ℕ) th, c.threads[i]? = some th → creation th.task = none →
    th.prog.Only fun op => setsKv op = false
  places : ∀ (i : ℕ) th r, c.threads[i]? = some th → creation th.task = some r →
    th.prog = createAt r (pl i)
  alone : ∀ i j r r', Creates c i r → Creates c j r' → r.username = r'.username →
    (pl i).past = true → (pl j).past = true → i = j
  stored : ∀ i r, Creates c i r → StoredAt r c.state.adminDb.kvStore (pl i)

section Pool

variable {c : MasterConfig Tables Fs} {pl : ℕ → CreatePlace} {i j : ℕ} {t : Task} {e : Env}
  {op : MasterOp} {cont : op.Res → MasterProg Reply} {r r' : CreateUserRequest}

/-- A thread makes one call. -/
theorem Creates.eq (h : Creates c i r) (h' : Creates c i r') : r = r' := by
  obtain ⟨th, hi, hr⟩ := h
  obtain ⟨th', hi', hr'⟩ := h'
  obtain rfl := Option.some.inj (hi.symm.trans hi')
  exact Option.some.inj (hr.symm.trans hr')

/-- The calls after a start: those there were, and perhaps the new one. -/
theorem creates_start (h : Creates (⟨c.state, c.threads ++ [(master P).spawn t]⟩ :
    MasterConfig Tables Fs) j r) :
    Creates c j r ∨ (j = c.threads.length ∧ creation t = some r) := by
  obtain ⟨th, hj, hr⟩ := h
  rcases System.getElem?_start hj with hj | ⟨rfl, rfl⟩
  · exact Or.inl ⟨th, hj, hr⟩
  · exact Or.inr ⟨rfl, hr⟩

/-- An operation starts no call. -/
theorem creates_after (hi : c.threads[i]? = some ⟨t, .call op cont⟩)
    (h : Creates ((master P).after c i t e op cont) j r) : Creates c j r := by
  obtain ⟨th, hj, hr⟩ := h
  rcases getElem?_after_master hj with ⟨rfl, rfl⟩ | ⟨-, hj⟩
  · exact ⟨_, hi, hr⟩
  · exact ⟨th, hj, hr⟩

theorem Creates.after (hi : c.threads[i]? = some ⟨t, .call op cont⟩) (h : Creates c j r) :
    Creates ((master P).after c i t e op cont) j r := by
  obtain ⟨th, hj, hr⟩ := h
  by_cases hji : j = i
  · subst hji
    obtain rfl := Option.some.inj (hi.symm.trans hj)
    exact ⟨_, System.getElem?_after_self hi, hr⟩
  · exact ⟨th, System.getElem?_after_of_ne hj hji, hr⟩

/-- What the guard says of a query by a call of `CreateUser`: no thread is about
to write its key. -/
theorem not_aboutToSet_of_apart {k : String} {a : Option String} (ht : creation t = some r)
    (hg : creationsApart c (.did i t e (.store (.getKv k)) a) = true)
    {th : Thread MasterOp.Res Task Reply} (hj : c.threads[j]? = some th) :
    aboutToSet k th = false := by
  have hall : (c.threads.all fun th => !aboutToSet k th) = true := by
    simpa [creationsApart, ht] using hg
  simpa using List.all_eq_true.mp hall th (List.mem_of_getElem? hj)

/-- A call is a thread of the pool. -/
theorem Creates.lt (h : Creates c i r) : i < c.threads.length := by
  obtain ⟨th, hi, -⟩ := h
  exact (List.getElem?_eq_some_iff.mp hi).1

/-- **What the guard says at the places**: while a call checks a name, no call
for the name is about to write the password; while it reads the list, no call is
about to write the list. -/
theorem Creations.apart (h : Creations c pl) (hi : c.threads[i]? = some ⟨t, .call op cont⟩)
    (ht : creation t = some r)
    (hg : creationsApart c (.did i t e op (c.state.exec P e op).1) = true) :
    (pl i = .checking → ∀ j r', Creates c j r' → r'.username = r.username →
      pl j ≠ .storingPassword) ∧
    (pl i = .readingList → ∀ j r' L, Creates c j r' → pl j ≠ .writingList L) := by
  have hplace : Prog.call op cont = createAt r (pl i) := h.places i _ r hi ht
  constructor
  · rintro hpl j r' ⟨th, hj, hr'⟩ hname hwrite
    rw [hpl, createAt_checking] at hplace
    cases hplace
    have hset := not_aboutToSet_of_apart ht hg hj
    rw [aboutToSet, h.places j th r' hj hr', hwrite, ← hname] at hset
    simp [createAt, MasterService.storeUser, Call.setKv, userKey] at hset
  · rintro hpl j r' L ⟨th, hj, hr'⟩ hwrite
    rw [hpl, createAt_readingList] at hplace
    cases hplace
    have hset := not_aboutToSet_of_apart ht hg hj
    rw [aboutToSet, h.places j th r' hj hr', hwrite] at hset
    simp [createAt, Call.setKv] at hset

/-- A call that starts is in front of its check. -/
theorem Creations.step_start (h : Creations c pl) (t : Task) :
    Creations (⟨c.state, c.threads ++ [(master P).spawn t]⟩ : MasterConfig Tables Fs)
      (Function.update pl c.threads.length .checking) := by
  have hold {j : ℕ} (hj : j < c.threads.length) :
      Function.update pl c.threads.length .checking j = pl j :=
    Function.update_of_ne (Nat.ne_of_lt hj) _ _
  refine ⟨fun j th hj hr => ?_, fun j th r hj hr => ?_, fun j k r r' hj hk hu hpj hpk => ?_,
    fun j r hj => ?_⟩
  · rcases System.getElem?_start hj with hj | ⟨-, rfl⟩
    · exact h.others j th hj hr
    · exact only_of_not_creation P hr
  · rcases System.getElem?_start hj with hj | ⟨rfl, rfl⟩
    · rw [hold (List.getElem?_eq_some_iff.mp hj).1]
      exact h.places j th r hj hr
    · rw [Function.update_self]
      obtain ⟨metadata, rfl⟩ := creation_eq_some (show creation t = some r from hr)
      rw [System.spawn_prog, master_body_rpc]
      rfl
  · -- the new call has passed no check yet, so it is neither of the two
    have hpast {j : ℕ} {r : CreateUserRequest}
        (hj : Creates c j r ∨ (j = c.threads.length ∧ creation t = some r))
        (hp : (Function.update pl c.threads.length .checking j).past = true) :
        Creates c j r ∧ (pl j).past = true := by
      rcases hj with hj | ⟨rfl, -⟩
      · rw [hold hj.lt] at hp
        exact ⟨hj, hp⟩
      · rw [Function.update_self] at hp
        cases hp
    obtain ⟨hj, hpj⟩ := hpast (creates_start hj) hpj
    obtain ⟨hk, hpk⟩ := hpast (creates_start hk) hpk
    exact h.alone j k r r' hj hk hu hpj hpk
  · rcases creates_start hj with hj | ⟨rfl, -⟩
    · rw [hold hj.lt]
      exact h.stored j r hj
    · rw [Function.update_self]
      trivial

/-- A step of another task. -/
theorem Creations.step_other (hP : P.store = idealStore) (h : Creations c pl)
    (hi : c.threads[i]? = some ⟨t, .call op cont⟩) (ht : creation t = none) :
    (c.state.exec P e op).2.adminDb.kvStore = c.state.adminDb.kvStore ∧
      Creations ((master P).after c i t e op cont) pl := by
  obtain ⟨hop, hrest⟩ := h.others i _ hi ht
  have hkv : (c.state.exec P e op).2.adminDb.kvStore = c.state.adminDb.kvStore :=
    kvStore_exec (keepsKv_of_eq hP) hop
  refine ⟨hkv, fun j th hj hr => ?_, fun j th r hj hr => ?_, fun j k r r' hj hk => ?_,
    fun j r hj => ?_⟩
  · rcases getElem?_after_master hj with ⟨-, rfl⟩ | ⟨-, hj⟩
    · exact hrest _
    · exact h.others j th hj hr
  · rcases getElem?_after_master hj with ⟨-, rfl⟩ | ⟨-, hj⟩
    · rw [ht] at hr
      cases hr
    · exact h.places j th r hj hr
  · exact h.alone j k r r' (creates_after hi hj) (creates_after hi hk)
  · have hs := h.stored j r (creates_after hi hj)
    rw [← hkv] at hs
    exact hs

section Call

variable {p : CreatePlace} {kv' : Table String String}

/-- A call for the same name that is past its check keeps this one from passing
it. -/
theorem Creations.not_past (h : Creations c pl) (hself : Creates c i r)
    (hstep : CreateStep r c.state.adminDb.kvStore (pl i) p kv')
    (hapart : pl i = .checking → ∀ j r', Creates c j r' → r'.username = r.username →
      pl j ≠ .storingPassword)
    (hj : Creates c j r') (hne : j ≠ i) (hu : r'.username = r.username)
    (hpj : (pl j).past = true) : p.past = false := by
  by_contra hp
  rcases hstep.past_of_past (by simpa using hp) with hpi | ⟨hchk, hfree⟩
  · exact hne (h.alone j i r' r hj hself hu hpj hpi)
  · rcases (h.stored j r' hj).taken hpj with hpw | htaken
    · exact hapart hchk j r' hj hu hpw
    · rw [hu, hfree] at htaken
      cases htaken

/-- After its step the call is still the only one for its name that is past its
check. -/
theorem Creations.alone_step (h : Creations c pl) (hself : Creates c i r)
    (hstep : CreateStep r c.state.adminDb.kvStore (pl i) p kv')
    (hapart : pl i = .checking → ∀ j r', Creates c j r' → r'.username = r.username →
      pl j ≠ .storingPassword)
    {k : ℕ} {r₁ r₂ : CreateUserRequest} (hj : Creates c j r₁) (hk : Creates c k r₂)
    (hu : r₁.username = r₂.username) (hpj : (Function.update pl i p j).past = true)
    (hpk : (Function.update pl i p k).past = true) : j = k := by
  by_cases hji : j = i
  · subst hji
    obtain rfl := hj.eq hself
    by_contra hne
    have hkj : k ≠ j := fun he => hne he.symm
    rw [Function.update_self] at hpj
    rw [Function.update_of_ne hkj] at hpk
    rw [h.not_past hself hstep hapart hk hkj hu.symm hpk] at hpj
    cases hpj
  · rw [Function.update_of_ne hji] at hpj
    by_cases hki : k = i
    · subst hki
      obtain rfl := hk.eq hself
      rw [Function.update_self, h.not_past hself hstep hapart hj hji hu hpj] at hpk
      cases hpk
    · rw [Function.update_of_ne hki] at hpk
      exact h.alone j k r₁ r₂ hj hk hu hpj hpk

/-- After the step of a call all have stored what their places say. -/
theorem Creations.stored_step (h : Creations c pl) (hself : Creates c i r)
    (hstep : CreateStep r c.state.adminDb.kvStore (pl i) p kv') (hj : Creates c j r') :
    StoredAt r' kv' (Function.update pl i p j) := by
  by_cases hji : j = i
  · subst hji
    obtain rfl := hj.eq hself
    rw [Function.update_self]
    exact hstep.storedAt (h.stored j r' hj)
  · rw [Function.update_of_ne hji]
    have hs := h.stored j r' hj
    by_cases hu : r'.username = r.username
    · -- only one of the two calls for the name is past its check
      cases hpj : (pl j).past with
      | false => exact storedAt_of_not_past hpj
      | true =>
        have hnot : (pl i).past = false := by
          by_contra hp
          exact hji (h.alone j i r' r hj hself hu hpj (by simpa using hp))
        exact hs.congr (congrArg _ (hstep.eq_of_not_past hnot))
          (congrArg _ (hstep.eq_of_not_past hnot))
    · obtain ⟨hpw, hrole⟩ := hstep.frame hu
      exact hs.congr hpw hrole

end Call

/-- **A step of a call**, kept apart from the others. -/
theorem Creations.step_call (h : Creations c pl) (hi : c.threads[i]? = some ⟨t, .call op cont⟩)
    (ht : creation t = some r) {p : CreatePlace}
    (hcont : cont (c.state.exec P e op).1 = createAt r p)
    (hstep : CreateStep r c.state.adminDb.kvStore (pl i) p (c.state.exec P e op).2.adminDb.kvStore)
    (hapart : pl i = .checking → ∀ j r', Creates c j r' → r'.username = r.username →
      pl j ≠ .storingPassword) :
    Creations ((master P).after c i t e op cont) (Function.update pl i p) := by
  have hself : Creates c i r := ⟨_, hi, ht⟩
  refine ⟨fun j th hj hr => ?_, fun j th r' hj hr => ?_, fun j k r₁ r₂ hj hk hu hpj hpk => ?_,
    fun j r' hj => ?_⟩
  · rcases getElem?_after_master hj with ⟨-, rfl⟩ | ⟨-, hj⟩
    · rw [ht] at hr
      cases hr
    · exact h.others j th hj hr
  · rcases getElem?_after_master hj with ⟨rfl, rfl⟩ | ⟨hne, hj⟩
    · obtain rfl := Option.some.inj (ht.symm.trans hr)
      rw [Function.update_self]
      exact hcont
    · rw [Function.update_of_ne hne]
      exact h.places j th r' hj hr
  · exact h.alone_step hself hstep hapart (creates_after hi hj) (creates_after hi hk) hu hpj hpk
  · exact h.stored_step hself hstep (creates_after hi hj)

end Pool

/-! ### The account list -/

/-- The call has the name on the list. -/
def CreatePlace.listed : CreatePlace → Bool
  | .finishing | .ended (.ok _) => true
  | _ => false

theorem CreatePlace.past_of_listed {pl : CreatePlace} (h : pl.listed = true) : pl.past = true := by
  cases pl with
  | ended a =>
    cases a with
    | error s => cases h
    | ok info => rfl
  | finishing => rfl
  | _ => cases h

/-- No name of a call is a substring of another one's or of the initial list. -/
structure Unrelated (initial : String) (c : MasterConfig Tables Fs) : Prop where
  initial : ∀ i r, Creates c i r → ¬r.username.toList <:+: initial.toList
  others : ∀ i j r r', Creates c i r → Creates c j r' → r'.username ≠ r.username →
    ¬r.username.toList <:+: r'.username.toList

/-- No name of a call contains the separator of the list. -/
def CommaFree (c : MasterConfig Tables Fs) : Prop :=
  ∀ i r, Creates c i r → ',' ∉ r.username.toList

theorem splitUserList_append (userList username : String) :
    MasterService.splitUserList (userList ++ "," ++ username) =
      MasterService.splitUserList userList ++ MasterService.splitUserList username := by
  have hcomma : ",".toList = [','] := by decide +kernel
  rw [MasterService.splitUserList, String.toList_append, String.toList_append, hcomma,
    List.append_assoc, List.singleton_append, List.splitOn_append_cons_self, List.filter_append,
    List.map_append]
  rfl

theorem splitUserList_name {username : String} (hcomma : ',' ∉ username.toList)
    (hne : username.toList ≠ []) : MasterService.splitUserList username = [username] := by
  rw [MasterService.splitUserList, List.splitOn_eq_singleton hcomma]
  simp [hne]

/-- **The calls and the account list**: a call in front of its write of the list
knows the list as it is, and is the only one; whatever occurs in the list is of
the initial list or of a listed name; and the listed names are elements of it. -/
structure Listing (initial : String) (c : MasterConfig Tables Fs) (pl : ℕ → CreatePlace) :
    Prop where
  writing : ∀ i r L, Creates c i r → pl i = .writingList L →
    userList c.state.adminDb.kvStore = L
  one : ∀ i j r r' L L', Creates c i r → Creates c j r' → pl i = .writingList L →
    pl j = .writingList L' → i = j
  origin : ∀ u : List Char, ',' ∉ u → u <:+: (userList c.state.adminDb.kvStore).toList →
    u <:+: initial.toList ∨ ∃ i r, Creates c i r ∧ (pl i).listed = true ∧ u <:+: r.username.toList
  listed : ∀ i r, Creates c i r → (pl i).listed = true →
    r.username ∈ MasterService.splitUserList (userList c.state.adminDb.kvStore)

section List

variable {initial : String} {c : MasterConfig Tables Fs} {pl : ℕ → CreatePlace} {i j : ℕ} {t : Task}
  {e : Env} {op : MasterOp} {cont : op.Res → MasterProg Reply} {r r' : CreateUserRequest}

theorem Creates.start (h : Creates c i r) (t : Task) :
    Creates (⟨c.state, c.threads ++ [(master P).spawn t]⟩ : MasterConfig Tables Fs) i r := by
  obtain ⟨th, hi, hr⟩ := h
  exact ⟨th, System.getElem?_start_of_some hi, hr⟩

theorem Listing.step_start (h : Listing initial c pl) (t : Task) :
    Listing initial (⟨c.state, c.threads ++ [(master P).spawn t]⟩ : MasterConfig Tables Fs)
      (Function.update pl c.threads.length .checking) := by
  have hold {j : ℕ} {r : CreateUserRequest} (hj : Creates c j r) :
      Function.update pl c.threads.length .checking j = pl j :=
    Function.update_of_ne (Nat.ne_of_lt hj.lt) _ _
  -- the new call is at none of the places this is about
  have hback {q : CreatePlace → Prop} (hq : ¬q .checking) {j : ℕ} {r : CreateUserRequest}
      (hj : Creates (⟨c.state, c.threads ++ [(master P).spawn t]⟩ : MasterConfig Tables Fs) j r)
      (hp : q (Function.update pl c.threads.length .checking j)) : Creates c j r ∧ q (pl j) := by
    rcases creates_start hj with hj | ⟨rfl, -⟩
    · rw [hold hj] at hp
      exact ⟨hj, hp⟩
    · rw [Function.update_self] at hp
      exact absurd hp hq
  refine ⟨fun j r L hj hp => ?_, fun j k r r' L L' hj hk hpj hpk => ?_, fun u hu hin => ?_,
    fun j r hj hp => ?_⟩
  · obtain ⟨hj, hp⟩ := hback (q := (· = .writingList L)) (fun h => by cases h) hj hp
    exact h.writing j r L hj hp
  · obtain ⟨hj, hpj⟩ := hback (q := (· = .writingList L)) (fun h => by cases h) hj hpj
    obtain ⟨hk, hpk⟩ := hback (q := (· = .writingList L')) (fun h => by cases h) hk hpk
    exact h.one j k r r' L L' hj hk hpj hpk
  · rcases h.origin u hu hin with hin | ⟨j, r, hj, hp, hin⟩
    · exact Or.inl hin
    · refine Or.inr ⟨j, r, hj.start t, ?_, hin⟩
      rw [hold hj]
      exact hp
  · obtain ⟨hj, hp⟩ := hback (q := fun p => p.listed = true) (fun h => by cases h) hj hp
    exact h.listed j r hj hp

theorem Listing.step_other (h : Listing initial c pl)
    (hi : c.threads[i]? = some ⟨t, .call op cont⟩)
    (hkv : (c.state.exec P e op).2.adminDb.kvStore = c.state.adminDb.kvStore) :
    Listing initial ((master P).after c i t e op cont) pl := by
  have hlist : userList ((master P).after c i t e op cont).state.adminDb.kvStore =
      userList c.state.adminDb.kvStore := congrArg userList hkv
  refine ⟨fun j r L hj hp => ?_, fun j k r r' L L' hj hk => ?_, fun u hu hin => ?_,
    fun j r hj hp => ?_⟩
  · rw [hlist]
    exact h.writing j r L (creates_after hi hj) hp
  · exact h.one j k r r' L L' (creates_after hi hj) (creates_after hi hk)
  · rw [hlist] at hin
    rcases h.origin u hu hin with hin | ⟨j, r, hj, hp, hin⟩
    · exact Or.inl hin
    · exact Or.inr ⟨j, r, hj.after hi, hp, hin⟩
  · rw [hlist]
    exact h.listed j r (creates_after hi hj) hp

/-- A step of a call that leaves the list alone. -/
theorem Listing.step_same (h : Listing initial c pl)
    (hi : c.threads[i]? = some ⟨t, .call op cont⟩) {p : CreatePlace}
    (hlist : userList (c.state.exec P e op).2.adminDb.kvStore = userList c.state.adminDb.kvStore)
    (hp : p.listed = (pl i).listed)
    (hw : ∀ L, p = .writingList L → userList c.state.adminDb.kvStore = L ∧
      ∀ j r' L', Creates c j r' → pl j ≠ .writingList L') :
    Listing initial ((master P).after c i t e op cont) (Function.update pl i p) := by
  have hlisted (j : ℕ) : (Function.update pl i p j).listed = (pl j).listed := by
    by_cases hji : j = i
    · rw [hji, Function.update_self, hp]
    · rw [Function.update_of_ne hji]
  refine ⟨fun j r' L hj hpj => ?_, fun j k r₁ r₂ L L' hj hk hpj hpk => ?_, fun u hu hin => ?_,
    fun j r' hj hpj => ?_⟩
  · -- who is about to write the list has read it as it is
    refine hlist.trans ?_
    by_cases hji : j = i
    · rw [hji, Function.update_self] at hpj
      exact (hw L hpj).1
    · rw [Function.update_of_ne hji] at hpj
      exact h.writing j r' L (creates_after hi hj) hpj
  · -- at most one call is about to write the list
    replace hj := creates_after hi hj
    replace hk := creates_after hi hk
    by_cases hji : j = i
    · rw [hji, Function.update_self] at hpj
      by_cases hki : k = i
      · rw [hji, hki]
      · rw [Function.update_of_ne hki] at hpk
        exact absurd hpk ((hw L hpj).2 k r₂ L' hk)
    · rw [Function.update_of_ne hji] at hpj
      by_cases hki : k = i
      · rw [hki, Function.update_self] at hpk
        exact absurd hpj ((hw L' hpk).2 j r₁ L hj)
      · rw [Function.update_of_ne hki] at hpk
        exact h.one j k r₁ r₂ L L' hj hk hpj hpk
  · have hin' : u <:+: (userList c.state.adminDb.kvStore).toList := by
      rw [← hlist]
      exact hin
    rcases h.origin u hu hin' with hin | ⟨j, r', hj, hpj, hin⟩
    · exact Or.inl hin
    · exact Or.inr ⟨j, r', hj.after hi, (hlisted j).trans hpj, hin⟩
  · have hmem := h.listed j r' (creates_after hi hj) ((hlisted j).symm.trans hpj)
    rw [← hlist] at hmem
    exact hmem

/-- The step of a call that puts its name on the list. -/
theorem Listing.step_listed (h : Listing initial c pl)
    (hi : c.threads[i]? = some ⟨t, .call op cont⟩) (hself : Creates c i r) {L : String}
    (hpl : pl i = .writingList L) (hcomma : ',' ∉ r.username.toList)
    (hne : r.username.toList ≠ [])
    (hkv : (c.state.exec P e op).2.adminDb.kvStore =
      c.state.adminDb.kvStore.insert listKey (L ++ "," ++ r.username)) :
    Listing initial ((master P).after c i t e op cont) (Function.update pl i .finishing) := by
  have hL := h.writing i r L hself hpl
  have hlist : userList ((master P).after c i t e op cont).state.adminDb.kvStore =
      userList c.state.adminDb.kvStore ++ "," ++ r.username := by
    change userList (c.state.exec P e op).2.adminDb.kvStore = _
    rw [hkv, hL, userList, AList.lookup_insert]
    rfl
  -- nobody else is about to write the list
  have hnone {j : ℕ} {r' : CreateUserRequest} {L' : String} (hj : Creates c j r')
      (hpj : Function.update pl i .finishing j = .writingList L') : False := by
    by_cases hji : j = i
    · rw [hji, Function.update_self] at hpj
      cases hpj
    · rw [Function.update_of_ne hji] at hpj
      exact hji (h.one j i r' r L' L hj hself hpj hpl)
  have hkeep {j : ℕ} (hpj : (pl j).listed = true) :
      (Function.update pl i .finishing j).listed = true := by
    by_cases hji : j = i
    · rw [hji, Function.update_self]
      rfl
    · rw [Function.update_of_ne hji]
      exact hpj
  refine ⟨fun j r' L' hj hpj => (hnone (creates_after hi hj) hpj).elim,
    fun j k r₁ r₂ L₁ L₂ hj hk hpj _ => (hnone (creates_after hi hj) hpj).elim,
    fun u hu hin => ?_, fun j r' hj hpj => ?_⟩
  · have hcommas : ",".toList = [','] := by decide +kernel
    rw [hlist, String.toList_append, String.toList_append, hcommas, List.append_assoc,
      List.singleton_append] at hin
    -- a name without a comma lies before the new comma or after it
    rcases Text.infix_append_sep hu hin with hin | hin
    · rcases h.origin u hu hin with hin | ⟨j, r', hj, hpj, hin⟩
      · exact Or.inl hin
      · exact Or.inr ⟨j, r', hj.after hi, hkeep hpj, hin⟩
    · refine Or.inr ⟨i, r, hself.after hi, ?_, hin⟩
      rw [Function.update_self]
      rfl
  · replace hj := creates_after hi hj
    rw [hlist, splitUserList_append, List.mem_append]
    by_cases hji : j = i
    · rw [hji] at hj
      rw [hj.eq hself, splitUserList_name hcomma hne]
      exact Or.inr List.mem_cons_self
    · rw [Function.update_of_ne hji] at hpj
      exact Or.inl (h.listed j r' hj hpj)

/-- A call that has yet to be listed does not find its name on the list. -/
theorem Listing.not_found (hc : Creations c pl) (h : Listing initial c pl)
    (hun : Unrelated initial c) (hcf : CommaFree c) (hself : Creates c i r)
    (hpl : pl i = .readingList) :
    ¬r.username.toList <:+: (userList c.state.adminDb.kvStore).toList := by
  intro hin
  rcases h.origin _ (hcf i r hself) hin with hin | ⟨j, r', hj, hpj, hin⟩
  · exact hun.initial i r hself hin
  · -- a call for the same name that is listed would be a second one past the check
    by_cases hu : r'.username = r.username
    · have hpast : (pl i).past = true := by rw [hpl]; rfl
      obtain rfl := hc.alone j i r' r hj hself hu (CreatePlace.past_of_listed hpj) hpast
      rw [hpl] at hpj
      cases hpj
    · exact hun.others i j r r' hself hj hu hin

/-- **A step of a call** keeps the list in order. -/
theorem Listing.step_call (hc : Creations c pl) (h : Listing initial c pl)
    (hun : Unrelated initial c) (hcf : CommaFree c)
    (hi : c.threads[i]? = some ⟨t, .call op cont⟩) (ht : creation t = some r) {p : CreatePlace}
    (hstep : CreateStep r c.state.adminDb.kvStore (pl i) p (c.state.exec P e op).2.adminDb.kvStore)
    (hapart : pl i = .readingList → ∀ j r' L, Creates c j r' → pl j ≠ .writingList L) :
    Listing initial ((master P).after c i t e op cont) (Function.update pl i p) := by
  have hself : Creates c i r := ⟨_, hi, ht⟩
  generalize hpl : pl i = q at hstep
  generalize hkv : (c.state.exec P e op).2.adminDb.kvStore = kv' at hstep
  have hnowrite {p : CreatePlace} (hp : ∀ L, p ≠ .writingList L) : ∀ L, p = .writingList L →
      userList c.state.adminDb.kvStore = L ∧ ∀ j r' L', Creates c j r' → pl j ≠ .writingList L' :=
    fun L h => absurd h (hp L)
  cases hstep with
  | taken s hs =>
    exact h.step_same hi (congrArg userList hkv) (by rw [hpl]; rfl) (hnowrite fun L h => by cases h)
  | free hfree =>
    exact h.step_same hi (congrArg userList hkv) (by rw [hpl]; rfl) (hnowrite fun L h => by cases h)
  | password =>
    refine h.step_same hi ?_ (by rw [hpl]; rfl) (hnowrite fun L h => by cases h)
    rw [hkv, userList, AList.lookup_insert_ne (userKey_ne_listKey _).symm]
    rfl
  | role =>
    refine h.step_same hi ?_ (by rw [hpl]; rfl) (hnowrite fun L h => by cases h)
    rw [hkv, userList, AList.lookup_insert_ne (roleKey_ne_listKey _).symm]
    rfl
  | found hin => exact absurd hin (h.not_found hc hun hcf hself hpl)
  | missing =>
    refine h.step_same hi (congrArg userList hkv) (by rw [hpl]; rfl) fun L hL => ?_
    obtain rfl := CreatePlace.writingList.inj hL
    exact ⟨rfl, hapart hpl⟩
  | listed L =>
    have hne : r.username.toList ≠ [] := fun h =>
      hun.initial i r hself (by rw [h]; exact List.nil_infix)
    exact h.step_listed hi hself hpl (hcf i r hself) hne hkv
  | done info =>
    exact h.step_same hi (congrArg userList hkv) (by rw [hpl]; rfl) (hnowrite fun L h => by cases h)

end List

/-! ### Every run -/

/-- The invariant: the calls are placed, and if their names are unrelated and
have no comma, the account list is in order. -/
def AccountsHold (initial : String) (c : MasterConfig Tables Fs) : Prop :=
  ∃ pl, Creations c pl ∧ (Unrelated initial c → CommaFree c → Listing initial c pl)

/-- **One step** under the condition keeps the invariant. -/
theorem AccountsHold.step (hP : P.store = idealStore) {initial : String}
    {c c' : MasterConfig Tables Fs} {ev : MasterEvent} (h : AccountsHold initial c)
    (hideal : kvIdeal ev = true) (hg : creationsApart c ev = true)
    (hstep : (master P).Step c ev c') : AccountsHold initial c' := by
  obtain ⟨pl, hc, hl⟩ := h
  cases hstep with
  | start t =>
    refine ⟨_, hc.step_start t, fun hun hcf => ?_⟩
    refine (hl ?_ fun j r hj => hcf j r (hj.start t)).step_start t
    exact ⟨fun j r hj => hun.initial j r (hj.start t),
      fun j k r r' hj hk => hun.others j k r r' (hj.start t) (hk.start t)⟩
  | did i t e op cont hi =>
    -- no call starts or goes away, so the names are what they were
    have hunrelated (hun : Unrelated initial ((master P).after c i t e op cont)) :
        Unrelated initial c :=
      ⟨fun j r hj => hun.initial j r (hj.after hi),
        fun j k r r' hj hk => hun.others j k r r' (hj.after hi) (hk.after hi)⟩
    have hcommas (hcf : CommaFree ((master P).after c i t e op cont)) : CommaFree c :=
      fun j r hj => hcf j r (hj.after hi)
    cases ht : creation t with
    | none =>
      obtain ⟨hkv, hc'⟩ := hc.step_other hP (e := e) hi ht
      exact ⟨pl, hc', fun hun hcf => (hl (hunrelated hun) (hcommas hcf)).step_other hi hkv⟩
    | some r =>
      have hplace : Prog.call op cont = createAt r (pl i) := hc.places i _ r hi ht
      obtain ⟨p, hcont, hcs⟩ :=
        createAt_step (s := c.state) hP hplace.symm (sqliteOk_of_kvIdeal hideal)
      obtain ⟨hcheck, hread⟩ := hc.apart hi ht hg
      exact ⟨_, hc.step_call hi ht hcont hcs hcheck, fun hun hcf =>
        (hl (hunrelated hun) (hcommas hcf)).step_call hc (hunrelated hun) (hcommas hcf) hi ht hcs
          hread⟩

theorem accountsHold_start {db : Option Tables} {adminDb : Tables} {fs : Fs} :
    AccountsHold (userList adminDb.kvStore) (masterStart db adminDb fs) := by
  refine ⟨fun _ => .checking, ⟨?_, ?_, ?_, ?_⟩, fun _ _ => ⟨?_, ?_, fun u _ hin => Or.inl hin, ?_⟩⟩
  · intro i th hi
    cases hi
  · intro i th r hi
    cases hi
  · rintro i j r r' ⟨th, hi, -⟩
    cases hi
  · rintro i r ⟨th, hi, -⟩
    cases hi
  · rintro i r L ⟨th, hi, -⟩
    cases hi
  · rintro i j r r' L L' ⟨th, hi, -⟩
    cases hi
  · rintro i r ⟨th, hi, -⟩
    cases hi

/-- A call that has returned `OK` is at the last place. -/
theorem Creations.over_of_created {c : MasterConfig Tables Fs} {pl : ℕ → CreatePlace} {i : ℕ}
    {r : CreateUserRequest} (h : Creations c pl) (hi : Created c i r) :
    Creates c i r ∧ ∃ info, pl i = .ended (.ok info) := by
  obtain ⟨th, info, hth, hr, hres⟩ := hi
  refine ⟨⟨th, hth, hr⟩, ?_⟩
  have hplace := h.places i th r hth hr
  rw [Thread.result, hplace] at hres
  cases hpl : pl i with
  | ended a =>
    rw [hpl] at hres
    cases a with
    | error s => cases hres
    | ok info' => exact ⟨info', rfl⟩
  | checking =>
    rw [hpl, createAt_checking] at hres
    cases hres
  | readingList =>
    rw [hpl, createAt_readingList] at hres
    cases hres
  | _ =>
    rw [hpl] at hres
    cases hres

/-- **Accounts are created atomically** in every run of the master in which the
creations keep apart: for each name at most one call returns `OK`; the account
then has the password and the role of that call; and if no name is a substring
of another one or of the initial list, or has a comma, the name is an element of
the account list. -/
theorem create_user_atomic (hP : P.store = idealStore) {db : Option Tables} {adminDb : Tables}
    {fs : Fs} {c : MasterConfig Tables Fs} {es : List MasterEvent}
    (h : (master P).Run (fun c ev => kvIdeal ev = true ∧ creationsApart c ev = true)
      (masterStart db adminDb fs) es c) :
    (∀ i j r r', Created c i r → Created c j r' → r.username = r'.username → i = j) ∧
    (∀ i r, Created c i r →
      c.state.adminDb.kvStore.lookup ("user:" ++ r.username) = some r.password ∧
      c.state.adminDb.kvStore.lookup ("role:" ++ r.username) =
        some (MasterService.roleName r.role)) ∧
    (Unrelated (userList adminDb.kvStore) c → CommaFree c → ∀ i r, Created c i r →
      r.username ∈ MasterService.splitUserList (userList c.state.adminDb.kvStore)) := by
  obtain ⟨pl, hc, hl⟩ : AccountsHold (userList adminDb.kvStore) c :=
    h.config_invariant (I := AccountsHold (userList adminDb.kvStore)) accountsHold_start
      fun c ev c' ha hg hstep => ha.step hP hg.1 hg.2 hstep
  refine ⟨fun i j r r' hi hj hu => ?_, fun i r hi => ?_, fun hun hcf i r hi => ?_⟩
  · obtain ⟨hi, info, hpi⟩ := hc.over_of_created hi
    obtain ⟨hj, info', hpj⟩ := hc.over_of_created hj
    exact hc.alone i j r r' hi hj hu (by rw [hpi]; rfl) (by rw [hpj]; rfl)
  · obtain ⟨hi, info, hpi⟩ := hc.over_of_created hi
    have hs := hc.stored i r hi
    rw [hpi] at hs
    exact hs
  · obtain ⟨hi, info, hpi⟩ := hc.over_of_created hi
    exact (hl hun hcf).listed i r hi (by rw [hpi]; rfl)

/-- Eve as an administrator. -/
def eveAdmin : CreateUserRequest := { username := "eve", password := "p1", role := .admin }

/-- Eve as a user, with another password. -/
def eveUser : CreateUserRequest := { username := "eve", password := "p2", role := .user }

/-- Bob. -/
def bobUser : CreateUserRequest := { username := "bob", password := "p3", role := .user }

/-- Thread `i` was a call of `CreateUser` with request `r` and has returned `OK`,
as a test. -/
def isCreated (c : MasterConfig Tables Fs) (i : ℕ) (r : CreateUserRequest) : Bool :=
  match c.threads[i]? with
  | none => false
  | some th =>
    creation th.task = some r &&
      match th.result with
      | some (.userInfo _) => true
      | _ => false

theorem created_of_isCreated {c : MasterConfig Tables Fs} {i : ℕ} {r : CreateUserRequest}
    (h : isCreated c i r = true) : Created c i r := by
  rw [isCreated] at h
  split at h
  · cases h
  · rename_i th hi
    obtain ⟨hr, hres⟩ := (Bool.and_eq_true _ _).mp h
    split at hres
    · rename_i info hinfo
      exact ⟨th, info, hi, of_decide_eq_true hr, hinfo⟩
    · cases hres

/-- Two calls of `CreateUser`, and which of them moves when. -/
def createsSchedule (r r' : CreateUserRequest) (moves : List ℕ) : List (Choice Env Task) :=
  .start (.rpc [] (.createUser r)) :: .start (.rpc [] (.createUser r')) ::
    moves.map fun i => .move i { now := 100 }

/-- The law at work: Eve and Bob are created at the same time, and have their
accounts. -/
theorem create_user_atomic_two :
    ∃ es c, (master barePlatform).Run (fun c ev => kvIdeal ev = true ∧ creationsApart c ev = true)
        (masterStart none {} ()) es c ∧
      Created c 0 eveAdmin ∧ Created c 1 bobUser ∧
      c.state.adminDb.kvStore.lookup "role:eve" = some "admin" ∧
      "eve" ∈ MasterService.splitUserList (userList c.state.adminDb.kvStore) ∧
      "bob" ∈ MasterService.splitUserList (userList c.state.adminDb.kvStore) := by
  obtain ⟨es, c, h, hp⟩ := System.exists_run (S := master barePlatform)
    (g := fun c ev => kvIdeal ev && creationsApart c ev) (c := masterStart none {} ())
    (p := fun c => isCreated c 0 eveAdmin = true ∧ isCreated c 1 bobUser = true ∧
      (c.threads.map fun th => creation th.task) = [some eveAdmin, some bobUser])
    (createsSchedule eveAdmin bobUser [0, 1, 0, 1, 0, 0, 0, 1, 0, 1, 1, 1]) (by decide +kernel)
  obtain ⟨heve, hbob, hcalls⟩ := of_decide_eq_true hp
  have hrun := h.mono fun c ev hg => (Bool.and_eq_true _ _).mp hg
  obtain ⟨-, hstored, hlisted⟩ := create_user_atomic rfl hrun
  have hnames {i : ℕ} {r : CreateUserRequest} (hi : Creates c i r) :
      r = eveAdmin ∨ r = bobUser := by
    obtain ⟨th, hth, hr⟩ := hi
    have hmem : some r ∈ c.threads.map fun th => creation th.task :=
      List.mem_map.mpr ⟨th, List.mem_of_getElem? hth, hr⟩
    rw [hcalls] at hmem
    simpa using hmem
  have hun : Unrelated (userList ({} : Tables).kvStore) c := by
    constructor
    · intro i r hi
      rcases hnames hi with rfl | rfl <;> decide +kernel
    · intro i j r r' hi hj hne
      rcases hnames hi with rfl | rfl <;> rcases hnames hj with rfl | rfl
      · exact absurd rfl hne
      · decide +kernel
      · decide +kernel
      · exact absurd rfl hne
  have hcf : CommaFree c := by
    intro i r hi
    rcases hnames hi with rfl | rfl <;> decide +kernel
  replace heve := created_of_isCreated heve
  replace hbob := created_of_isCreated hbob
  exact ⟨es, c, hrun, heve, hbob, (hstored 0 eveAdmin heve).2, hlisted hun hcf 0 eveAdmin heve,
    hlisted hun hcf 1 bobUser hbob⟩

/-- **An account is created twice**: two calls for Eve pass the check, and both
return `OK`. The account has the password of one and the role of the other. -/
theorem account_created_twice :
    ∃ es c,
      (master barePlatform).Run (fun _ ev => kvIdeal ev = true) (masterStart none {} ()) es c ∧
      Created c 0 eveAdmin ∧ Created c 1 eveUser ∧
      c.state.adminDb.kvStore.lookup "user:eve" = some "p2" ∧
      c.state.adminDb.kvStore.lookup "role:eve" = some "admin" := by
  obtain ⟨es, c, h, hp⟩ := System.exists_run (S := master barePlatform)
    (g := fun _ ev => kvIdeal ev) (c := masterStart none {} ())
    (p := fun c => isCreated c 0 eveAdmin = true ∧ isCreated c 1 eveUser = true ∧
      c.state.adminDb.kvStore.lookup "user:eve" = some "p2" ∧
      c.state.adminDb.kvStore.lookup "role:eve" = some "admin")
    (createsSchedule eveAdmin eveUser [0, 1, 0, 1, 1, 0, 0, 0, 0, 1, 1]) (by decide +kernel)
  obtain ⟨hone, htwo, hpw, hrole⟩ := of_decide_eq_true hp
  exact ⟨es, c, h, created_of_isCreated hone, created_of_isCreated htwo, hpw, hrole⟩

end CertOS
