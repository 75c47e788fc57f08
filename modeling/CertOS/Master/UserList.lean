import CertOS.Master.AccountBook

/-!
# The user list

The names of the accounts are kept as one text, joined by commas. `CreateUser` appends a name
unless the text contains it already, and `AdminListUsers` cuts the text at its commas. The
two do not agree: the test is for a substring, so a name that is a part of another one, or of
a seeded name, is taken to be on the list. The account is there, and is never listed.

The other thing that can go wrong is the role: a role other than `ADMIN` is stored as that of
a user, so an account that is created as a node is listed as a user. For names that are not
empty and have no comma, the list is exact after a sequence of calls if and only if every
name, when it is asked for first, is no part of a name that is there, and is asked for as an
administrator or as a user (`CertOS.user_list_exact_iff`).
-/

namespace CertOS

open Interleave

variable {Fs : Type} {P : Platform Tables Fs}

/-! ### The law and its condition -/

/-- A name that the list can hold: it is not empty, and has no comma. -/
def Listable (u : String) : Prop := u ≠ "" ∧ ',' ∉ u.toList

/-- The names of some accounts. -/
def usernames (rs : List CreateUserRequest) : List String := rs.map CreateUserRequest.username

/-- **The user list is exact**: `AdminListUsers` returns each seeded account and each account
whose creation returned `OK` once, with the role it was created with, and nothing else. -/
def ListExact (P : Platform Tables Fs) (log : List (Rpc × Reply)) (s : MasterState Tables Fs) :
    Prop :=
  ∀ (metadata : Metadata) (e : ℕ → Env), (∀ n, (e n).sqliteOk = true) →
    ∃ us, (runTask P (.rpc metadata .adminListUsers) e s).1 = .users us ∧
      (us.map UserInfo.username).Nodup ∧
      ∀ u role, (∃ i ∈ us, i.username = u ∧ i.role = role) ↔
        ∃ r ∈ seedRequests ++ createdRequests log, r.username = u ∧ r.role = role

/-- The name is there, or it is a part of no name that is. -/
def KnownOrApart (known : List String) (u : String) : Prop :=
  u ∈ known ∨ ∀ v ∈ known, ¬ u.toList <:+: v.toList

/-- **No name is inside another one** that is there when it is asked for first. -/
def NoneInside (rs : List CreateUserRequest) : Prop :=
  ∀ (i : ℕ) r, rs[i]? = some r → KnownOrApart (usernames (seedRequests ++ rs.take i)) r.username

/-- **The roles are stored as they are**: the first request for each name asks for one of the
two roles that the table knows. -/
def RolesStored (rs : List CreateUserRequest) : Prop :=
  ∀ u r, firstFor u (seedRequests ++ rs) = some r → r.role = .admin ∨ r.role = .user

theorem accountRole_eq_iff {r : CreateUserRequest} :
    accountRole r = r.role ↔ r.role = .admin ∨ r.role = .user := by
  rw [accountRole]
  cases r.role <;> decide

theorem noneInside_snoc {rs : List CreateUserRequest} {r : CreateUserRequest} :
    NoneInside (rs ++ [r]) ↔
      NoneInside rs ∧ KnownOrApart (usernames (seedRequests ++ rs)) r.username := by
  constructor
  · intro h
    constructor
    · intro i r' hi
      have hlt := (List.getElem?_eq_some_iff.mp hi).1
      have hi' : (rs ++ [r])[i]? = some r' := by rw [List.getElem?_append_left hlt, hi]
      have hr := h i r' hi'
      rwa [List.take_append_of_le_length hlt.le] at hr
    · have hr := h rs.length r (by simp)
      rwa [List.take_left] at hr
  · rintro ⟨hrs, hr⟩ i r' hi
    rcases System.getElem?_concat_inv hi with hi | ⟨rfl, rfl⟩
    · rw [List.take_append_of_le_length (List.getElem?_eq_some_iff.mp hi).1.le]
      exact hrs i r' hi
    · rwa [List.take_left]

/-! ### The book and the created accounts -/

section Book

variable {log : List (Rpc × Reply)} {rs : List CreateUserRequest} {r : CreateUserRequest}
  {u : String} {kv : Table String String} {s : MasterState Tables Fs}

theorem createdRequests_snoc (log : List (Rpc × Reply)) (call : Rpc) (a : Reply) :
    createdRequests (log ++ [(call, a)]) = createdRequests log ++
      if repliesOk a then (creation (.rpc [] call)).toList else [] := by
  rw [createdRequests, createdRequests, List.filter_append, List.filterMap_append]
  refine congrArg _ ?_
  have hone : List.filter (fun p : Rpc × Reply => repliesOk p.2) [(call, a)] =
      if repliesOk a then [(call, a)] else [] := by
    rw [List.filter_singleton]
    cases repliesOk a <;> rfl
  rw [hone]
  split
  · cases hc : creation (.rpc [] call) with
    | none => exact List.filterMap_cons_none hc
    | some r => exact List.filterMap_cons_some hc
  · rfl

/-- The requests of a sequence of calls of `CreateUser`. -/
theorem createRequests_map (rs : List CreateUserRequest) :
    createRequests (rs.map Rpc.createUser) = rs := by
  rw [createRequests, List.filterMap_map]
  exact List.filterMap_some

/-- The book after a sequence of calls of `CreateUser`. -/
theorem account_map (rs : List CreateUserRequest) (u : String) :
    account (rs.map .createUser) u = firstFor u (seedRequests ++ rs) := by
  rw [account, ← firstFor_append, createRequests_map]

/-- Who has an entry after a sequence of calls of `CreateUser`. -/
theorem isSome_account_iff :
    (account (rs.map .createUser) u).isSome = true ↔ u ∈ usernames (seedRequests ++ rs) := by
  rw [account_map, firstFor, List.find?_isSome, usernames, List.mem_map]
  simp

/-- The seeds are the entries of the empty book. -/
theorem mem_seedRequests_iff (u : String) (r : CreateUserRequest) :
    (r ∈ seedRequests ∧ r.username = u) ↔ firstFor u seedRequests = some r := by
  have hmem : r ∈ seedRequests ↔ r = seedRequests[0] ∨ r = seedRequests[1] := by
    simp [seedRequests]
  have hone : firstFor u seedRequests = if "admin" = u then some seedRequests[0]
      else if "user1" = u then some seedRequests[1] else none := by
    simp only [firstFor, seedRequests, List.find?_cons, List.find?_nil]
    split_ifs <;> simp_all
  rw [hmem, hone]
  constructor
  · rintro ⟨rfl | rfl, rfl⟩
    · rfl
    · rfl
  · intro h
    split at h
    · rename_i hu
      obtain rfl := Option.some.inj h
      exact ⟨Or.inl rfl, hu⟩
    · split at h
      · rename_i hu
        obtain rfl := Option.some.inj h
        exact ⟨Or.inr rfl, hu⟩
      · cases h

/-- A request for a free name is the entry of the name from then on, and changes no other. -/
theorem account_snoc_of_free_iff {calls : List Rpc} {r' : CreateUserRequest}
    (hfree : account calls r'.username = none) (u : String) (r : CreateUserRequest) :
    account (calls ++ [.createUser r']) u = some r ↔
      account calls u = some r ∨ (r = r' ∧ r.username = u) := by
  by_cases hu : r'.username = u
  · subst hu
    rw [account_snoc_self hfree, hfree]
    constructor
    · rintro ⟨⟩
      exact Or.inr ⟨rfl, rfl⟩
    · rintro (⟨⟨⟩⟩ | ⟨rfl, -⟩)
      rfl
  · rw [account_snoc_of_ne hu, or_iff_left]
    rintro ⟨rfl, hr⟩
    exact hu hr

/-- **The created accounts are the entries of the book.** -/
theorem mem_created_iff (hP : P.store = idealStore) {e : ℕ → Env}
    (he : ∀ n, (e n).sqliteOk = true) {jobsDb : Tables} {fs : Fs}
    (h : OneByOne P (construct P e jobsDb {} fs) log s) (u : String) (r : CreateUserRequest) :
    (r ∈ seedRequests ++ createdRequests log ∧ r.username = u) ↔
      account (callsOf log) u = some r := by
  induction h generalizing u r with
  | nil =>
    have hbook : account (callsOf []) u = firstFor u seedRequests := Option.or_none
    have hseeds : seedRequests ++ createdRequests [] = seedRequests := List.append_nil _
    rw [hbook, hseeds, mem_seedRequests_iff]
  | @snoc log s metadata call e' hlog he' ih =>
    have hbook := holdsBook_of_oneByOne hP he hlog
    rw [createdRequests_snoc, callsOf, List.map_append]
    change _ ↔ account (callsOf log ++ [call]) u = some r
    cases hc : creation (.rpc [] call) with
    | none =>
      rw [account_snoc_of_other hc, ← ih, Option.toList_none, ite_self, List.append_nil]
    | some r' =>
      obtain ⟨metadata', hcall⟩ := creation_eq_some hc
      obtain ⟨-, rfl⟩ := Task.rpc.inj hcall
      rcases hbook.createUser_cases hP metadata r' he' with ⟨hfree, info, hrun⟩ | ⟨htaken, hrun⟩
      · have hok : repliesOk (.userInfo info) = true := rfl
        rw [hrun, if_pos hok, Option.toList_some, ← List.append_assoc, List.mem_append,
          List.mem_singleton, or_and_right, ih, account_snoc_of_free_iff hfree]
      · rw [hrun, account_snoc_of_taken htaken, ← ih]
        simp [repliesOk]

/-! ### The list along a sequence of calls -/

/-- A name occurs in the list as a substring just if it is a part of a listed name. -/
theorem infix_userList_iff (hu : ',' ∉ u.toList) (hne : u ≠ "") :
    u.toList <:+: (userList kv).toList ↔ ∃ v ∈ listedNames kv, u.toList <:+: v.toList := by
  have hempty {part : List Char} (h : u.toList <:+: part) : part ≠ [] := by
    rintro rfl
    exact hne (String.toList_injective (List.infix_nil.mp h))
  rw [Text.infix_iff_splitOn hu, listedNames, MasterService.splitUserList]
  constructor
  · rintro ⟨part, hpart, hin⟩
    refine ⟨String.ofList part, List.mem_map.mpr ⟨part, List.mem_filter.mpr ⟨hpart, ?_⟩, rfl⟩, ?_⟩
    · exact decide_eq_true (hempty hin)
    · rwa [String.toList_ofList]
  · rintro ⟨v, hv, hin⟩
    obtain ⟨part, hpart, rfl⟩ := List.mem_map.mp hv
    rw [String.toList_ofList] at hin
    exact ⟨part, (List.mem_filter.mp hpart).1, hin⟩

/-- **What a creation does to the list**: the name is appended, unless it is a part of a
listed name. -/
theorem listedNames_enrolled (kv : Table String String) (hu : Listable r.username) :
    listedNames (enrolled r kv) = listedNames kv ++
      if ∃ v ∈ listedNames kv, r.username.toList <:+: v.toList then [] else [r.username] := by
  obtain ⟨hne, hcomma⟩ := hu
  rw [enrolled]
  by_cases h : r.username.toList <:+: (userList kv).toList
  · have hfind : (Text.find r.username.toList (userList kv).toList).isNone = false := by
      rw [Option.isNone_eq_false_iff, Text.find_isSome]
      exact h
    rw [if_pos ((infix_userList_iff hcomma hne).mp h), List.append_nil, hfind,
      if_neg Bool.false_ne_true, listedNames, userList,
      AList.lookup_insert_ne (roleKey_ne_listKey _).symm,
      AList.lookup_insert_ne (userKey_ne_listKey _).symm]
    rfl
  · have hfind : (Text.find r.username.toList (userList kv).toList).isNone = true := by
      rw [Option.isNone_iff_eq_none, Text.find_eq_none]
      exact h
    rw [if_neg fun hin => h ((infix_userList_iff hcomma hne).mpr hin), hfind, if_pos rfl,
      listedNames, userList, AList.lookup_insert, Option.getD_some, splitUserList_append,
      splitUserList_name hcomma fun hnil => hne (String.toList_injective hnil)]
    rfl

/-- **The list and the book**: no name is listed twice, or without an entry; and all entries
are listed if and only if no name was inside another one. -/
structure Lists (rs : List CreateUserRequest) (kv : Table String String) : Prop where
  nodup : (listedNames kv).Nodup
  known : ∀ u ∈ listedNames kv, u ∈ usernames (seedRequests ++ rs)
  complete : (∀ u ∈ usernames (seedRequests ++ rs), u ∈ listedNames kv) ↔ NoneInside rs

theorem mem_usernames_snoc :
    u ∈ usernames (seedRequests ++ (rs ++ [r])) ↔
      u ∈ usernames (seedRequests ++ rs) ∨ u = r.username := by
  rw [usernames, usernames, ← List.append_assoc, List.map_append, List.mem_append]
  simp

/-- A name that is there is asked for again. -/
theorem Lists.again (h : Lists rs kv) (hr : r.username ∈ usernames (seedRequests ++ rs)) :
    Lists (rs ++ [r]) kv := by
  have hsame (u : String) : u ∈ usernames (seedRequests ++ (rs ++ [r])) ↔
      u ∈ usernames (seedRequests ++ rs) := by
    rw [mem_usernames_snoc, or_iff_left_of_imp]
    rintro rfl
    exact hr
  refine ⟨h.nodup, fun u hu => (hsame u).mpr (h.known u hu), ?_⟩
  have hknown : KnownOrApart (usernames (seedRequests ++ rs)) r.username := Or.inl hr
  rw [noneInside_snoc, and_iff_left hknown, ← h.complete]
  exact forall_congr' fun u => imp_congr_left (hsame u)

/-- A new name is asked for. -/
theorem Lists.enrolled (h : Lists rs kv) (hr : r.username ∉ usernames (seedRequests ++ rs))
    (hu : Listable r.username) : Lists (rs ++ [r]) (enrolled r kv) := by
  have hnew : r.username ∉ listedNames kv := fun hin => hr (h.known _ hin)
  have hlist := listedNames_enrolled kv hu
  by_cases hin : ∃ v ∈ listedNames kv, r.username.toList <:+: v.toList
  · rw [if_pos hin, List.append_nil] at hlist
    refine ⟨?_, fun u hu => ?_, ?_⟩
    · rw [hlist]
      exact h.nodup
    · rw [hlist] at hu
      exact mem_usernames_snoc.mpr (Or.inl (h.known u hu))
    · -- the new name is not listed, and it is inside of a name that is there
      refine iff_of_false (fun hall => ?_) fun hnone => ?_
      · have hmem := hall r.username (mem_usernames_snoc.mpr (Or.inr rfl))
        rw [hlist] at hmem
        exact hnew hmem
      · obtain ⟨v, hv, hpart⟩ := hin
        rcases (noneInside_snoc.mp hnone).2 with hknown | hapart
        · exact hr hknown
        · exact hapart v (h.known v hv) hpart
  · rw [if_neg hin] at hlist
    refine ⟨?_, fun u hu => ?_, ?_⟩
    · rw [hlist]
      exact h.nodup.append (List.nodup_singleton _) (by simpa using hnew)
    · rw [hlist, List.mem_append, List.mem_singleton] at hu
      exact mem_usernames_snoc.mpr (hu.imp_left (h.known u))
    · rw [noneInside_snoc, ← h.complete]
      constructor
      · intro hall
        have hold (u : String) (hu : u ∈ usernames (seedRequests ++ rs)) :
            u ∈ listedNames kv := by
          have hmem := hall u (mem_usernames_snoc.mpr (Or.inl hu))
          rw [hlist, List.mem_append, List.mem_singleton] at hmem
          refine hmem.resolve_right ?_
          rintro rfl
          exact hr hu
        exact ⟨hold, Or.inr fun v hv hpart => hin ⟨v, hold v hv, hpart⟩⟩
      · rintro ⟨hold, -⟩ u hu
        rw [hlist, List.mem_append, List.mem_singleton]
        exact (mem_usernames_snoc.mp hu).imp_left (hold u)

/-- The seeded list. -/
theorem lists_construct (hP : P.store = idealStore) {e : ℕ → Env}
    (he : ∀ n, (e n).sqliteOk = true) (jobsDb : Tables) (fs : Fs) :
    Lists [] (construct P e jobsDb {} fs).adminDb.kvStore := by
  have hlist : listedNames (construct P e jobsDb {} fs).adminDb.kvStore = ["admin", "user1"] := by
    rw [listedNames, userList, lookup_construct (writesSeeds_of_eq hP) he, seedOf, if_pos rfl,
      Option.some_or, Option.getD_some]
    decide +kernel
  have hseeds : usernames (seedRequests ++ []) = ["admin", "user1"] := rfl
  refine ⟨?_, ?_, ?_⟩
  · rw [hlist]
    decide
  · rw [hlist, hseeds]
    exact fun u hu => hu
  · rw [hlist, hseeds]
    exact iff_of_true (fun u hu => hu) fun i r hi => by cases hi

/-- **The list and the book after every sequence of calls** of `CreateUser` with names that
the list can hold. -/
theorem lists_of_oneByOne (hP : P.store = idealStore) {e : ℕ → Env}
    (he : ∀ n, (e n).sqliteOk = true) {jobsDb : Tables} {fs : Fs}
    (h : OneByOne P (construct P e jobsDb {} fs) log s) (hcalls : callsOf log = rs.map .createUser)
    (hnames : ∀ r ∈ rs, Listable r.username) : Lists rs s.adminDb.kvStore := by
  induction h generalizing rs with
  | nil =>
    obtain rfl : rs = [] := List.map_eq_nil_iff.mp hcalls.symm
    exact lists_construct hP he jobsDb fs
  | @snoc log s metadata call e' hlog he' ih =>
    rw [callsOf, List.map_append] at hcalls
    obtain ⟨rs, rs', rfl, hrs, hone⟩ := List.map_eq_append_iff.mp hcalls.symm
    obtain ⟨r, rfl, rfl⟩ := List.map_eq_singleton_iff.mp hone
    have hlists := ih hrs.symm fun r hr => hnames r (List.mem_append_left _ hr)
    have hbook := holdsBook_of_oneByOne hP he hlog
    have hentry : (account (callsOf log) r.username).isSome = true ↔
        r.username ∈ usernames (seedRequests ++ rs) := by
      rw [← isSome_account_iff, hrs, callsOf]
    rcases hbook.createUser_cases hP metadata r he' with ⟨hfree, info, hrun⟩ | ⟨htaken, hrun⟩
    · rw [hfree] at hentry
      rw [hrun]
      exact hlists.enrolled (fun hin => by cases hentry.mpr hin)
        (hnames r (List.mem_append_right _ List.mem_cons_self))
    · rw [hrun]
      exact hlists.again (hentry.mp htaken)

/-! ### The law -/

/-- **The user list is exact** after a sequence of calls of `CreateUser`, with names that the
list can hold, if and only if no name was inside another one that was there when it was asked
for first, and every name was asked for first in a role that is stored as it is. -/
theorem user_list_exact_iff (hP : P.store = idealStore) {e : ℕ → Env}
    (he : ∀ n, (e n).sqliteOk = true) {jobsDb : Tables} {fs : Fs}
    (h : OneByOne P (construct P e jobsDb {} fs) log s) (hcalls : callsOf log = rs.map .createUser)
    (hnames : ∀ r ∈ rs, Listable r.username) :
    ListExact P log s ↔ NoneInside rs ∧ RolesStored rs := by
  have hlists := lists_of_oneByOne hP he h hcalls hnames
  have hbook := holdsBook_of_oneByOne hP he h
  have hentry (u : String) : (∃ r, account (callsOf log) u = some r) ↔
      u ∈ usernames (seedRequests ++ rs) := by
    rw [← isSome_account_iff, ← hcalls, Option.isSome_iff_exists]
  have hrole {u : String} {r : CreateUserRequest} (hr : account (callsOf log) u = some r) :
      (userEntry s.adminDb.kvStore u).role = accountRole r := by
    rw [userEntry, hbook.role u, hr]
    exact storedRole_roleName r
  have hreply (metadata : Metadata) {e' : ℕ → Env} (he' : ∀ n, (e' n).sqliteOk = true) :=
    run_adminListUsers (s := s) metadata hP he'
  have hroles : RolesStored rs ↔
      ∀ u r, account (callsOf log) u = some r → accountRole r = r.role := by
    simp only [RolesStored, hcalls, account_map, accountRole_eq_iff]
  rw [← hlists.complete, hroles]
  constructor
  · intro hexact
    obtain ⟨us, hus, -, hall⟩ := hexact [] e he
    rw [hreply [] he] at hus
    obtain rfl := Reply.users.inj hus
    -- an entry is among the created accounts, so it is listed, with the role it asked for
    have hlisted {u : String} {r : CreateUserRequest} (hr : account (callsOf log) u = some r) :
        u ∈ listedNames s.adminDb.kvStore ∧ accountRole r = r.role := by
      obtain ⟨hcreated, hname⟩ := (mem_created_iff hP he h u r).mpr hr
      obtain ⟨i, hi, hiu, hirole⟩ := (hall u _).mpr ⟨r, hcreated, hname, rfl⟩
      obtain ⟨v, hv, rfl⟩ := List.mem_map.mp hi
      obtain rfl : v = u := hiu
      exact ⟨hv, (hrole hr).symm.trans hirole⟩
    refine ⟨fun u hu => ?_, fun u r hr => (hlisted hr).2⟩
    obtain ⟨r, hr⟩ := (hentry u).mpr hu
    exact (hlisted hr).1
  · rintro ⟨hall, hsame⟩ metadata e' he'
    refine ⟨(listedNames s.adminDb.kvStore).map (userEntry s.adminDb.kvStore), ?_, ?_,
      fun u role => ?_⟩
    · rw [hreply metadata he']
    · rw [map_username_userEntry]
      exact hlists.nodup
    · constructor
      · rintro ⟨i, hi, rfl, rfl⟩
        obtain ⟨v, hv, rfl⟩ := List.mem_map.mp hi
        obtain ⟨r, hr⟩ := (hentry v).mpr (hlists.known v hv)
        obtain ⟨hcreated, hname⟩ := (mem_created_iff hP he h v r).mpr hr
        exact ⟨r, hcreated, hname, ((hrole hr).trans (hsame v r hr)).symm⟩
      · rintro ⟨r, hcreated, hname, rfl⟩
        have hr := (mem_created_iff hP he h u r).mp ⟨hcreated, hname⟩
        have hlisted := hall u ((hentry u).mp ⟨r, hr⟩)
        exact ⟨_, List.mem_map_of_mem hlisted, rfl, (hrole hr).trans (hsame u r hr)⟩

end Book

/-- The law at work: Bob and Eve are created, and the list is exact. -/
theorem user_list_exact_two : ∃ log s,
    OneByOne barePlatform seededMaster log s ∧
      callsOf log = [bobUser, eveUser].map .createUser ∧ ListExact barePlatform log s := by
  have hrun := ((OneByOne.nil (P := barePlatform) (s := seededMaster)).snoc []
    (.createUser bobUser) (fun _ => {}) fun _ => rfl).snoc [] (.createUser eveUser) (fun _ => {})
      fun _ => rfl
  have hnames : ∀ r ∈ [bobUser, eveUser], Listable r.username := by
    intro r hr
    rcases List.mem_pair.mp hr with rfl | rfl
    · exact ⟨by decide, by decide⟩
    · exact ⟨by decide, by decide⟩
  have hbob : NoneInside ([] ++ [bobUser]) :=
    noneInside_snoc.mpr ⟨(fun i r hi => by cases hi), Or.inr (by decide)⟩
  have hroles : RolesStored [bobUser, eveUser] := by
    intro u r hr
    have hall : ∀ r ∈ seedRequests ++ [bobUser, eveUser], r.role = .admin ∨ r.role = .user := by
      decide
    exact hall r (List.mem_of_find?_eq_some hr)
  exact ⟨_, _, hrun, rfl, (user_list_exact_iff rfl (fun _ => rfl) hrun rfl hnames).mpr
    ⟨noneInside_snoc.mpr ⟨hbob, Or.inr (by decide)⟩, hroles⟩⟩

/-- A user whose name is a part of the name of the administrator. -/
def minUser : CreateUserRequest := { username := "min", password := "p5", role := .user }

/-- **A user is not listed**: the creation of `min` returns `OK`, and `AdminListUsers` returns
`admin` and `user1` alone. -/
theorem user_not_listed : ∃ log s,
    OneByOne barePlatform seededMaster log s ∧ callsOf log = [minUser].map .createUser ∧
      Listable minUser.username ∧ createdRequests log = [minUser] ∧
      ¬ ListExact barePlatform log s := by
  have hrun := (OneByOne.nil (P := barePlatform) (s := seededMaster)).snoc []
    (.createUser minUser) (fun _ => {}) fun _ => rfl
  refine ⟨_, _, hrun, rfl, ⟨by decide, by decide⟩, by decide +kernel, fun hexact => ?_⟩
  obtain ⟨us, hus, -, hall⟩ := hexact [] (fun _ => {}) fun _ => rfl
  have hreply : (runTask barePlatform (.rpc [] .adminListUsers) (fun _ => {})
      (runTask barePlatform (.rpc [] (.createUser minUser)) (fun _ => {}) seededMaster).2).1 =
      .users [{ username := "admin", role := .admin }, { username := "user1", role := .user }] := by
    decide +kernel
  obtain rfl := Reply.users.inj (hreply.symm.trans hus)
  obtain ⟨i, hi, hname, -⟩ := (hall "min" .user).mpr ⟨minUser, by decide +kernel, rfl, rfl⟩
  rcases List.mem_pair.mp hi with rfl | rfl
  · exact absurd hname (by decide)
  · exact absurd hname (by decide)

end CertOS
