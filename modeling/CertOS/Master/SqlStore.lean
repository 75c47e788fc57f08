import CertOS.Master.StateStore
import CertOS.Quoting
import Mathlib.Data.List.Induction

/-!
# The key-value table behind its SQL text

`set_kv` and `get_kv` paste the key and the value between the quotes of an SQL
text and hand the text to SQLite. `CertOS.sqlStore` is the store as these calls
build it. SQLite itself is not part of the repository. What is assumed of it is
that it parses its own string literals: a text of the shape of the two
statements, with a literal in each gap (`CertOS.StateStore.parseInsert`,
`CertOS.StateStore.parseSelect`), is carried out on the table. What it makes of
any other text is a parameter, `CertOS.SqlEngine`, about which nothing is
assumed.

The store is then a map over strings only as far as the pasted texts are read
back whole. `CertOS.sqlStore_refines` is the simulation: on keys whose quotes
come in pairs and on values without a quote, the store answers as the ideal one
does. `CertOS.kvStore_isMap_iff` says that this is all: with any other key or
value the law of a map is broken, or is up to the engine.
-/

namespace CertOS

/-- What SQLite makes of a text that is not one of the two statements with a
literal in each gap. -/
structure SqlEngine where
  /-- `sqlite3_exec`: whether it succeeds, and the database after it. -/
  exec : String → Tables → Bool × Tables
  /-- The first column of the first row of a query, if there is one. -/
  query : String → Tables → Option String

namespace StateStore

/-! ### The texts -/

/-- The text of `set_kv`. -/
def setKvSql (key value : String) : String :=
  "INSERT OR REPLACE INTO kv_store (key, value) VALUES ('" ++ key ++ "', '" ++ value ++ "');"

/-- The text of `get_kv`. -/
def getKvSql (key : String) : String :=
  "SELECT value FROM kv_store WHERE key = '" ++ key ++ "';"

/-- The key and the value of an insertion, if a text is one with two literals. -/
def parseInsert (sql : List Char) : Option (List Char × List Char) := do
  let sql ← "INSERT OR REPLACE INTO kv_store (key, value) VALUES ('".toList.isPrefixOf? sql
  let (key, sql) ← Quoting.readLiteral '\'' sql
  let sql ← ", '".toList.isPrefixOf? sql
  let (value, sql) ← Quoting.readLiteral '\'' sql
  if sql = ");".toList then some (key, value) else none

/-- The key of a query, if a text is one with a literal. -/
def parseSelect (sql : List Char) : Option (List Char) := do
  let sql ← "SELECT value FROM kv_store WHERE key = '".toList.isPrefixOf? sql
  let (key, sql) ← Quoting.readLiteral '\'' sql
  if sql = ";".toList then some key else none

/-! ### The calls -/

variable (E : SqlEngine)

/-- `execute`, as `set_kv` uses it. -/
def execute (ok : Bool) (sql : String) (t : Tables) : Bool × Tables :=
  if ok = true then
    match parseInsert (cStr sql).toList with
    | some (key, value) =>
        (true, { t with
          kvStore := t.kvStore.insert (String.ofList key) (String.ofList value) })
    | none => E.exec (cStr sql) t
  else (false, t)

/-- `set_kv`. -/
def setKv (ok : Bool) (key value : String) (t : Tables) : Bool × Tables :=
  execute E ok (setKvSql key value) t

/-- `get_kv`: the value comes back as a C string. -/
def getKv (ok : Bool) (key : String) (t : Tables) : Option String :=
  if ok = true then
    match parseSelect (cStr (getKvSql key)).toList with
    | some key => (t.kvStore.lookup (String.ofList key)).map cStr
    | none => (E.query (cStr (getKvSql key)) t).map cStr
  else none

end StateStore

/-- **The store as its calls are written**, over an engine. -/
def sqlStore (E : SqlEngine) : StoreBackend Tables where
  exec ok op t :=
    match op with
    | .setKv k v => StateStore.setKv E ok k v t
    | .getKv k => (StateStore.getKv E ok k t, t)
    | .addJobRequest id email st data => StateStore.addJobRequest ok id email st data t
    | .updateRequestStatus id st data => StateStore.updateRequestStatus ok id st data t
    | .listRequests => (StateStore.listRequests ok t, t)

theorem sqlStore_keepsKv (E : SqlEngine) : (sqlStore E).KeepsKv := by
  intro ok op t h
  cases op with
  | setKv k v => exact absurd rfl (h k v)
  | getKv k => rfl
  | addJobRequest id email st data => exact StateStore.kvStore_addJobRequest ok id email st data t
  | updateRequestStatus id st data =>
    exact StateStore.kvStore_updateRequestStatus ok id st data t
  | listRequests => rfl

/-! ### Texts that are read back -/

/-- A string whose quotes come in pairs. -/
def Paired (s : String) : Prop := Quoting.paired '\'' s.toList = true

/-- A string without a quote. -/
def QuoteFree (s : String) : Prop := '\'' ∉ s.toList

instance (s : String) : Decidable (Paired s) := inferInstanceAs (Decidable (_ = _))
instance (s : String) : Decidable (QuoteFree s) := inferInstanceAs (Decidable (_ ∉ _))

/-- What a paired string is stored as. -/
def collapse (s : String) : String := String.ofList (Quoting.unquote '\'' s.toList)

theorem toList_paste_end {a k b : String} {b' : List Char} (hb : b.toList = '\'' :: b') :
    (a ++ k ++ b).toList = a.toList ++ (k.toList ++ '\'' :: b') := by
  rw [String.toList_append, String.toList_append, hb, List.append_assoc]

theorem toList_paste {a k b v c : String} {b' c' : List Char} (hb : b.toList = '\'' :: b')
    (hc : c.toList = '\'' :: c') :
    (a ++ k ++ b ++ v ++ c).toList =
      a.toList ++ (k.toList ++ '\'' :: (b' ++ (v.toList ++ '\'' :: c'))) := by
  rw [toList_paste_end hc, toList_paste_end hb]
  simp only [List.append_assoc, List.cons_append]

theorem QuoteFree.paired {s : String} (h : QuoteFree s) : Paired s := Quoting.paired_of_not_mem h

/-- **A paired string is stored as it is** just when it has no quote. -/
theorem collapse_eq_self {s : String} (h : Paired s) : collapse s = s ↔ QuoteFree s := by
  rw [QuoteFree, ← Quoting.unquote_eq_self h, collapse]
  constructor
  · intro he
    have := congrArg String.toList he
    rwa [String.toList_ofList] at this
  · intro he
    rw [he, String.ofList_toList]

theorem NulFree.collapse {s : String} (h : NulFree s) (hs : Paired s) : NulFree (collapse s) := by
  rw [NulFree, CertOS.collapse, String.toList_ofList, Quoting.mem_unquote hs]
  exact h

theorem collapse_inj {s t : String} (hs : Paired s) (ht : Paired t) (h : collapse s = collapse t) :
    s = t :=
  String.toList_injective (Quoting.unquote_inj hs ht (String.ofList_injective h))

namespace StateStore

theorem nulFree_setKvSql {k v : String} (hk : NulFree k) (hv : NulFree v) :
    NulFree (setKvSql k v) := by
  have hhead : NulFree "INSERT OR REPLACE INTO kv_store (key, value) VALUES ('" :=
    nul_not_mem_ofList (by decide)
  have hcomma : NulFree "', '" := nul_not_mem_ofList (by decide)
  have hend : NulFree "');" := nul_not_mem_ofList (by decide)
  exact (((hhead.append hk).append hcomma).append hv).append hend

theorem nulFree_getKvSql {k : String} (hk : NulFree k) : NulFree (getKvSql k) := by
  have hhead : NulFree "SELECT value FROM kv_store WHERE key = '" :=
    nul_not_mem_ofList (by decide)
  have hend : NulFree "';" := nul_not_mem_ofList (by decide)
  exact (hhead.append hk).append hend

/-- The text of `set_kv`, cut at the quotes it is pasted between. -/
theorem toList_setKvSql (k v : String) :
    (setKvSql k v).toList =
      "INSERT OR REPLACE INTO kv_store (key, value) VALUES ('".toList ++
        (k.toList ++ '\'' :: (", '".toList ++ (v.toList ++ '\'' :: ");".toList))) := by
  have hcomma : "', '".toList = '\'' :: ", '".toList := by decide +kernel
  have hend : "');".toList = '\'' :: ");".toList := by decide +kernel
  exact toList_paste hcomma hend

/-- The text of `get_kv`, cut at the quotes it is pasted between. -/
theorem toList_getKvSql (k : String) :
    (getKvSql k).toList =
      "SELECT value FROM kv_store WHERE key = '".toList ++ (k.toList ++ '\'' :: ";".toList) := by
  have hend : "';".toList = '\'' :: ";".toList := by decide +kernel
  exact toList_paste_end hend

theorem isPrefixOf?_append (xs ys : List Char) : xs.isPrefixOf? (xs ++ ys) = some ys :=
  List.isPrefixOf?_eq_some_iff_append_eq.mpr rfl

/-- The insertion of `set_kv` after its first literal, when the key is
paired. -/
theorem parseInsert_of_key {k v : String} (hk : Paired k) :
    parseInsert (setKvSql k v).toList =
      (Quoting.readLiteral '\'' (v.toList ++ '\'' :: ");".toList)).bind fun r =>
        if r.2 = ");".toList then some (Quoting.unquote '\'' k.toList, r.1) else none := by
  have hcomma : (", '".toList ++ (v.toList ++ '\'' :: ");".toList)).head? ≠ some '\'' := by
    simp
  rw [parseInsert, toList_setKvSql, isPrefixOf?_append]
  simp only [Option.bind_eq_bind, Option.bind_some, Quoting.readLiteral_append hk hcomma,
    isPrefixOf?_append]

/-- **The text of `set_kv` is an insertion of two literals** if both arguments
are paired. -/
theorem parseInsert_setKvSql {k v : String} (hk : Paired k) (hv : Paired v) :
    parseInsert (setKvSql k v).toList =
      some (Quoting.unquote '\'' k.toList, Quoting.unquote '\'' v.toList) := by
  have hend : ");".toList.head? ≠ some '\'' := by simp
  rw [parseInsert_of_key hk, Quoting.readLiteral_append hv hend, Option.bind_some, if_pos rfl]

/-- Nothing but a paired value makes it one. -/
theorem paired_of_parseInsert {k v : String} (hk : Paired k) {p : List Char × List Char}
    (h : parseInsert (setKvSql k v).toList = some p) : Paired v := by
  rw [parseInsert_of_key hk] at h
  obtain ⟨⟨c, rest⟩, hread, hrest⟩ := Option.bind_eq_some_iff.mp h
  split at hrest
  · rename_i hend
    dsimp only at hend
    subst hend
    exact Quoting.paired_of_readLiteral hread
  · cases hrest

/-- **The text of `get_kv` is a query with a literal** if the key is paired. -/
theorem parseSelect_getKvSql {k : String} (hk : Paired k) :
    parseSelect (getKvSql k).toList = some (Quoting.unquote '\'' k.toList) := by
  have hend : ";".toList.head? ≠ some '\'' := by simp
  rw [parseSelect, toList_getKvSql, isPrefixOf?_append]
  simp only [Option.bind_eq_bind, Option.bind_some, Quoting.readLiteral_append hk hend, if_pos]

/-- Nothing but a paired key makes it one. -/
theorem paired_of_parseSelect {k : String} {key : List Char}
    (h : parseSelect (getKvSql k).toList = some key) : Paired k := by
  rw [parseSelect, toList_getKvSql, isPrefixOf?_append, Option.bind_eq_bind, Option.bind_some] at h
  obtain ⟨⟨c, rest⟩, hread, hrest⟩ := Option.bind_eq_some_iff.mp h
  dsimp only at hrest
  split at hrest
  · rename_i hend
    subst hend
    exact Quoting.paired_of_readLiteral hread
  · cases hrest

/-! ### The calls on paired keys -/

variable {E : SqlEngine}

/-- A statement that SQLite does not carry out changes nothing. -/
theorem setKv_refused (k v : String) (t : Tables) : setKv E false k v t = (false, t) := by
  rw [setKv, execute, if_neg Bool.false_ne_true]

/-- A query that SQLite does not carry out has no answer. -/
theorem getKv_refused (k : String) (t : Tables) : getKv E false k t = none := by
  rw [getKv, if_neg Bool.false_ne_true]

/-- What `set_kv` does with a paired key and a paired value. -/
theorem setKv_of_paired {k v : String} (hk : NulFree k) (hv : NulFree v) (hkp : Paired k)
    (hvp : Paired v) (t : Tables) :
    setKv E true k v t =
      (true, { t with kvStore := t.kvStore.insert (collapse k) (collapse v) }) := by
  rw [setKv, execute, if_pos rfl, cStr_of_nul_not_mem (nulFree_setKvSql hk hv),
    parseInsert_setKvSql hkp hvp]
  rfl

/-- What `set_kv` does with a paired key and an unpaired value: what the engine
makes of the text. -/
theorem setKv_of_not_paired {k v : String} (hk : NulFree k) (hv : NulFree v) (hkp : Paired k)
    (hvp : ¬Paired v) (t : Tables) : setKv E true k v t = E.exec (setKvSql k v) t := by
  have hparse : parseInsert (setKvSql k v).toList = none := by
    rw [Option.eq_none_iff_forall_ne_some]
    exact fun p hp => hvp (paired_of_parseInsert hkp hp)
  rw [setKv, execute, if_pos rfl, cStr_of_nul_not_mem (nulFree_setKvSql hk hv), hparse]

/-- What `get_kv` answers for a paired key. -/
theorem getKv_of_paired {k : String} (hk : NulFree k) (hkp : Paired k) (t : Tables) :
    getKv E true k t = (t.kvStore.lookup (collapse k)).map cStr := by
  rw [getKv, if_pos rfl, cStr_of_nul_not_mem (nulFree_getKvSql hk), parseSelect_getKvSql hkp]
  rfl

/-- What `get_kv` answers for an unpaired key: what the engine makes of the
text. -/
theorem getKv_of_not_paired {k : String} (hk : NulFree k) (hkp : ¬Paired k) (t : Tables) :
    getKv E true k t = (E.query (getKvSql k) t).map cStr := by
  have hparse : parseSelect (getKvSql k).toList = none := by
    rw [Option.eq_none_iff_forall_ne_some]
    exact fun key h => hkp (paired_of_parseSelect h)
  rw [getKv, if_pos rfl, cStr_of_nul_not_mem (nulFree_getKvSql hk), hparse]

/-- What `set_kv` does with a key and a value without a quote. -/
theorem setKv_of_quoteFree {k v : String} (hk : NulFree k) (hv : NulFree v) (hkq : QuoteFree k)
    (hvq : QuoteFree v) (t : Tables) :
    setKv E true k v t = (true, { t with kvStore := t.kvStore.insert k v }) := by
  rw [setKv_of_paired hk hv hkq.paired hvq.paired, (collapse_eq_self hkq.paired).mpr hkq,
    (collapse_eq_self hvq.paired).mpr hvq]

end StateStore

theorem hexDigit_ne (i : Fin 16) : hexDigit i ≠ '\x00' ∧ hexDigit i ≠ '\'' := by
  revert i
  decide

/-- The key of a job in the jobs database has nothing that could leave its literal. -/
theorem plain_jobKey (d : UuidDraw) :
    NulFree ("job:" ++ shortId "job-" d) ∧ QuoteFree ("job:" ++ shortId "job-" d) := by
  have hdigits {c : Char} (hc : ∀ i, hexDigit i ≠ c) :
      c ∉ (String.ofList ((generateUuid d).take 8)).toList := by
    have htake : (generateUuid d).take 8 = (List.range 8).map fun i => hexDigit (d.dist i) := rfl
    simp [htake, hc]
  have hkind : NulFree ("job:" ++ "job-") ∧ QuoteFree ("job:" ++ "job-") := by decide +kernel
  have hkey : "job:" ++ shortId "job-" d =
      ("job:" ++ "job-") ++ String.ofList ((generateUuid d).take 8) := by
    rw [shortId, String.append_assoc]
  rw [hkey]
  refine ⟨hkind.1.append (hdigits fun i => (hexDigit_ne i).1), ?_⟩
  rw [QuoteFree, String.toList_append, List.mem_append, not_or]
  exact ⟨hkind.2, hdigits fun i => (hexDigit_ne i).2⟩

/-- What a submission writes into the jobs database. -/
theorem setKv_job (d : UuidDraw) (ok : Bool) (t : Tables) :
    (StateStore.setKv E ok ("job:" ++ shortId "job-" d) "QUEUED" t).2 =
      if ok = true then
        { t with kvStore := t.kvStore.insert ("job:" ++ shortId "job-" d) "QUEUED" }
      else t := by
  obtain ⟨hnul, hquote⟩ := plain_jobKey d
  have hqueued : NulFree "QUEUED" ∧ QuoteFree "QUEUED" := by decide +kernel
  cases ok with
  | false =>
    rw [StateStore.setKv_refused]
    rfl
  | true =>
    rw [StateStore.setKv_of_quoteFree hnul hqueued.1 hquote hqueued.2, if_pos rfl]

/-! ### Writes that stay in their literals -/

/-- The call pastes no text that leaves its literal. -/
def StoreOp.contained : StoreOp → Bool
  | .setKv k v => decide (NulFree k ∧ NulFree v ∧ Paired k ∧ Paired v)
  | _ => true

/-- The write of a submission into the jobs database is. -/
theorem contained_setKv_job (d : UuidDraw) :
    (StoreOp.setKv ("job:" ++ shortId "job-" d) "QUEUED").contained = true :=
  decide_eq_true
    ⟨(plain_jobKey d).1, by decide +kernel, (plain_jobKey d).2.paired, by decide +kernel⟩

/-- The store without the writes that leave their literals. -/
def confinedStore (E : SqlEngine) : StoreBackend Tables where
  exec ok op t :=
    ((sqlStore E).exec ok op t |>.1,
      if op.contained = true then ((sqlStore E).exec ok op t).2 else t)

theorem confinedStore_exec (E : SqlEngine) (ok : Bool) {op : StoreOp} (h : op.contained = true)
    (t : Tables) : (confinedStore E).exec ok op t = (sqlStore E).exec ok op t := by
  simp only [confinedStore, if_pos h]

/-- **A write that stays in its literals leaves the request table alone.** -/
theorem confinedStore_keepsRequests (E : SqlEngine) : (confinedStore E).KeepsRequests where
  getKv _ _ _ := rfl
  setKv ok k v t := by
    simp only [confinedStore]
    split_ifs with h
    · obtain ⟨hk, hv, hkp, hvp⟩ := of_decide_eq_true h
      simp only [sqlStore]
      cases ok with
      | false => rw [StateStore.setKv_refused]
      | true => rw [StateStore.setKv_of_paired hk hv hkp hvp]
    · rfl
  addJobRequest _ _ _ _ _ _ := rfl
  updateRequestStatus _ _ _ _ _ := rfl
  listRequests _ _ := rfl

/-! ### The simulation -/

/-- The calls that go through SQL unharmed: paired keys and values without a
quote. -/
def Faithful : StoreOp → Prop
  | .setKv k v => NulFree k ∧ NulFree v ∧ Paired k ∧ QuoteFree v
  | .getKv k => NulFree k ∧ Paired k
  | _ => True

/-- The database `t` stands for the map and the requests of `t'`. -/
structure Represents (t t' : Tables) : Prop where
  /-- Under each paired key the database has what the map has. -/
  lookup : ∀ k, Paired k → (t.kvStore.lookup (collapse k)).map cStr = t'.kvStore.lookup k
  /-- The requests are the same. -/
  jobRequests : t.jobRequests = t'.jobRequests

/-- **The store refines the ideal map** on the calls that go through SQL
unharmed: both give the same answer, and represent the same map afterwards. -/
theorem sqlStore_refines (E : SqlEngine) (ok : Bool) {op : StoreOp} {t t' : Tables}
    (h : Represents t t') (hop : Faithful op) :
    ((sqlStore E).exec ok op t).1 = (idealStore.exec ok op t').1 ∧
      Represents ((sqlStore E).exec ok op t).2 (idealStore.exec ok op t').2 := by
  obtain ⟨hkv, hreq⟩ := h
  cases op with
  | setKv k v =>
    obtain ⟨hk, hv, hkp, hvq⟩ := hop
    simp only [sqlStore, idealStore]
    cases ok with
    | false =>
      rw [StateStore.setKv_refused]
      exact ⟨rfl, hkv, hreq⟩
    | true =>
      rw [StateStore.setKv_of_paired hk hv hkp hvq.paired, (collapse_eq_self hvq.paired).mpr hvq,
        if_pos rfl]
      refine ⟨rfl, fun k' hk' => ?_, hreq⟩
      -- Different paired keys are stored under different names.
      rw [Table.lookup_insert, Table.lookup_insert]
      by_cases he : k' = k
      · subst he
        rw [if_pos rfl, if_pos rfl, Option.map_some, cStr_of_nul_not_mem hv]
      · have hne : collapse k' ≠ collapse k := fun hc => he (collapse_inj hk' hkp hc)
        rw [if_neg he, if_neg hne]
        exact hkv k' hk'
  | getKv k =>
    obtain ⟨hk, hkp⟩ := hop
    simp only [sqlStore, idealStore]
    refine ⟨?_, hkv, hreq⟩
    cases ok with
    | false => rw [StateStore.getKv_refused, if_neg Bool.false_ne_true]
    | true => rw [StateStore.getKv_of_paired hk hkp, hkv k hkp, if_pos rfl]
  | addJobRequest id email st data =>
    simp only [sqlStore, idealStore, StateStore.addJobRequest, hreq]
    split
    · exact ⟨rfl, hkv, rfl⟩
    · exact ⟨rfl, hkv, hreq⟩
  | updateRequestStatus id st data =>
    simp only [sqlStore, idealStore, StateStore.updateRequestStatus]
    split
    · exact ⟨rfl, hkv, by rw [hreq]⟩
    · exact ⟨rfl, hkv, hreq⟩
  | listRequests =>
    simp only [sqlStore, idealStore, StateStore.listRequests, hreq]
    exact ⟨trivial, hkv, hreq⟩

/-! ### The law of a map -/

/-- The database after a sequence of `set_kv` calls. -/
def setAll (B : StoreBackend Tables) (ws : List (String × String)) : Tables :=
  ws.foldl (fun t w => (B.exec true (.setKv w.1 w.2) t).2) {}

/-- What `get_kv` answers after a sequence of `set_kv` calls. -/
def getAfter (B : StoreBackend Tables) (ws : List (String × String)) (k : String) :
    Option String := (B.exec true (.getKv k) (setAll B ws)).1

/-- **The law of a map**, along a sequence of `set_kv` calls and for the keys
that are read. -/
structure IsMap (B : StoreBackend Tables) (ws : List (String × String)) (ks : List String) :
    Prop where
  /-- What was set is what one gets. -/
  get_set : ∀ ws₁ k v, ws₁ ++ [(k, v)] <+: ws → getAfter B (ws₁ ++ [(k, v)]) k = some v
  /-- Every other key keeps its value. -/
  get_of_ne : ∀ ws₁ k v, ws₁ ++ [(k, v)] <+: ws → ∀ k' ∈ ks, k' ≠ k →
    getAfter B (ws₁ ++ [(k, v)]) k' = getAfter B ws₁ k'
  /-- A key that was never set has no value. -/
  get_unset : ∀ ws₁, ws₁ <+: ws → ∀ k' ∈ ks, k' ∉ ws₁.map Prod.fst → getAfter B ws₁ k' = none

section Sequences

variable {B : StoreBackend Tables} {E : SqlEngine} {ws : List (String × String)}
  {ks : List String} {k v : String}

theorem setAll_nil (B : StoreBackend Tables) : setAll B [] = {} := rfl

theorem setAll_concat (B : StoreBackend Tables) (ws : List (String × String)) (k v : String) :
    setAll B (ws ++ [(k, v)]) = (B.exec true (.setKv k v) (setAll B ws)).2 := by
  rw [setAll, List.foldl_append]
  rfl

/-- What the ideal store has after one more call. -/
theorem getAfter_idealStore_concat (ws : List (String × String)) (k v k' : String) :
    getAfter idealStore (ws ++ [(k, v)]) k' =
      if k' = k then some v else getAfter idealStore ws k' := by
  simp only [getAfter, setAll_concat, idealStore, if_pos]
  exact Table.lookup_insert k k' v _

/-- A store that answers as a map does is a map. -/
theorem IsMap.of_getAfter_eq {B' : StoreBackend Tables} (h : IsMap B' ws ks)
    (hkeys : ∀ w ∈ ws, w.1 ∈ ks)
    (hsim : ∀ ws₁, ws₁ <+: ws → ∀ k ∈ ks, getAfter B ws₁ k = getAfter B' ws₁ k) :
    IsMap B ws ks := by
  refine ⟨fun ws₁ k v hpre => ?_, fun ws₁ k v hpre k' hk' hne => ?_,
    fun ws₁ hpre k' hk' hunset => ?_⟩
  · rw [hsim _ hpre k (hkeys (k, v) (hpre.subset List.mem_concat_self))]
    exact h.get_set ws₁ k v hpre
  · rw [hsim _ hpre k' hk', hsim ws₁ ((List.prefix_append _ _).trans hpre) k' hk']
    exact h.get_of_ne ws₁ k v hpre k' hk' hne
  · rw [hsim _ hpre k' hk']
    exact h.get_unset ws₁ hpre k' hk' hunset

/-- **The ideal store is a map.** -/
theorem idealStore_isMap (ws : List (String × String)) (ks : List String) :
    IsMap idealStore ws ks where
  get_set ws₁ k v _ := by rw [getAfter_idealStore_concat, if_pos rfl]
  get_of_ne ws₁ k v _ k' _ hne := by rw [getAfter_idealStore_concat, if_neg hne]
  get_unset ws₁ hpre k' _ := by
    clear hpre
    induction ws₁ using List.reverseRecOn with
    | nil => exact fun _ => rfl
    | append_singleton ws₁ w ih =>
      intro hk
      rw [List.map_append, List.mem_append, not_or] at hk
      have hne : k' ≠ w.1 := fun he => hk.2 (List.mem_singleton.mpr he)
      rw [getAfter_idealStore_concat, if_neg hne]
      exact ih hk.1

/-- Along faithful calls the database represents the map. -/
theorem represents_setAll (h : ∀ w ∈ ws, Faithful (.setKv w.1 w.2)) :
    Represents (setAll (sqlStore E) ws) (setAll idealStore ws) := by
  induction ws using List.reverseRecOn with
  | nil =>
    rw [setAll_nil, setAll_nil]
    exact ⟨fun _ _ => rfl, rfl⟩
  | append_singleton ws w ih =>
    obtain ⟨k, v⟩ := w
    have hws := ih fun w' hw' => h w' (List.mem_append_left _ hw')
    have hw : Faithful (.setKv k v) := h (k, v) List.mem_concat_self
    rw [setAll_concat, setAll_concat]
    exact (sqlStore_refines E true hws hw).2

/-- After faithful calls, a faithful query has the answer of the map. -/
theorem getAfter_sqlStore (h : ∀ w ∈ ws, Faithful (.setKv w.1 w.2)) (hk : Faithful (.getKv k)) :
    getAfter (sqlStore E) ws k = getAfter idealStore ws k :=
  (sqlStore_refines E true (represents_setAll h) hk).1

/-- What comes back is what the value is stored as. -/
theorem getAfter_concat (hk : NulFree k) (hv : NulFree v) (hkp : Paired k) (hvp : Paired v) :
    getAfter (sqlStore E) (ws ++ [(k, v)]) k = some (collapse v) := by
  simp only [getAfter, setAll_concat, sqlStore]
  rw [StateStore.setKv_of_paired hk hv hkp hvp, StateStore.getKv_of_paired hk hkp,
    Table.lookup_insert, if_pos rfl, Option.map_some, cStr_of_nul_not_mem (hv.collapse hvp)]

/-- **A value comes back exactly when it has no quote**, if its key and it are
paired; this holds for every engine. -/
theorem getAfter_concat_iff (hk : NulFree k) (hv : NulFree v) (hkp : Paired k) (hvp : Paired v) :
    getAfter (sqlStore E) (ws ++ [(k, v)]) k = some v ↔ QuoteFree v := by
  rw [getAfter_concat hk hv hkp hvp, Option.some_inj, collapse_eq_self hvp]

end Sequences

/-- An engine on which a text that leaves its literal does what such a text can
do: it empties the tables, or selects a row that was not asked for. -/
def SqlEngine.injected : SqlEngine where
  exec _ _ := (true, {})
  query _ _ := some ""

/-- If the store is a map on that engine, the quotes of its keys come in
pairs. -/
theorem paired_of_isMap_injected {ws : List (String × String)} {ks : List String}
    (h : IsMap (sqlStore .injected) ws ks) {k : String} (hmem : k ∈ ks) (hk : NulFree k) :
    Paired k := by
  by_contra hkp
  have hnone := h.get_unset [] List.nil_prefix k hmem List.not_mem_nil
  simp only [getAfter, sqlStore] at hnone
  rw [StateStore.getKv_of_not_paired hk hkp] at hnone
  cases hnone

/-- If the store is a map on that engine, its values have no quote. -/
theorem quoteFree_of_isMap_injected {ws : List (String × String)} {ks : List String}
    (h : IsMap (sqlStore .injected) ws ks) {k v : String} (hmem : (k, v) ∈ ws) (hk : NulFree k)
    (hv : NulFree v) (hkp : Paired k) : QuoteFree v := by
  obtain ⟨ws₁, ws₂, rfl⟩ := List.append_of_mem hmem
  have hpre : ws₁ ++ [(k, v)] <+: ws₁ ++ (k, v) :: ws₂ := ⟨ws₂, by simp⟩
  have hget := h.get_set ws₁ k v hpre
  by_cases hvp : Paired v
  · exact (getAfter_concat_iff hk hv hkp hvp).mp hget
  · -- The text of this call leaves its literal, and the engine drops the entry.
    simp only [getAfter, setAll_concat, sqlStore] at hget
    rw [StateStore.setKv_of_not_paired hk hv hkp hvp, StateStore.getKv_of_paired hk hkp] at hget
    cases hget

/-- **The store is a map exactly on faithful calls.** The law of a map holds
along a sequence of `set_kv` calls, for the keys that are read, whatever SQLite
makes of other texts, just when the quotes of every key come in pairs and no
value has a quote. -/
theorem kvStore_isMap_iff (ws : List (String × String)) (ks : List String)
    (hks : ∀ k ∈ ks, NulFree k) (hws : ∀ w ∈ ws, w.1 ∈ ks ∧ NulFree w.2) :
    (∀ E, IsMap (sqlStore E) ws ks) ↔
      (∀ k ∈ ks, Paired k) ∧ ∀ w ∈ ws, QuoteFree w.2 := by
  constructor
  · intro h
    have hmap := h .injected
    have hpaired : ∀ k ∈ ks, Paired k := fun k hk => paired_of_isMap_injected hmap hk (hks k hk)
    refine ⟨hpaired, fun w hw => ?_⟩
    obtain ⟨hk, hv⟩ := hws w hw
    exact quoteFree_of_isMap_injected hmap hw (hks _ hk) hv (hpaired _ hk)
  · rintro ⟨hpaired, hquote⟩ E
    have hset : ∀ w ∈ ws, Faithful (.setKv w.1 w.2) := fun w hw =>
      ⟨hks _ (hws w hw).1, (hws w hw).2, hpaired _ (hws w hw).1, hquote w hw⟩
    have hget : ∀ k ∈ ks, Faithful (.getKv k) := fun k hk => ⟨hks k hk, hpaired k hk⟩
    -- On every prefix and every key of the list, the store answers as the ideal one.
    refine (idealStore_isMap ws ks).of_getAfter_eq (fun w hw => (hws w hw).1) ?_
    intro ws₁ hpre k hk
    exact getAfter_sqlStore (fun w hw => hset w (hpre.subset hw)) (hget k hk)

/-- The two writes of an account with a plain name and a plain password, even on the engine
that would carry out anything else. -/
theorem kvStore_isMap_account :
    IsMap (sqlStore .injected) [("user:eve", "pw"), ("role:eve", "user")]
      ["user:eve", "role:eve"] :=
  (kvStore_isMap_iff _ _ (by decide +kernel) (by decide +kernel)).mpr
    ⟨by decide +kernel, by decide +kernel⟩ .injected

/-- An engine that refuses every text it is asked about. -/
def SqlEngine.refusing : SqlEngine where
  exec _ t := (false, t)
  query _ _ := none

/-- **A password with two quotes in a row is stored with one.** -/
theorem doubled_quote_collapses :
    getAfter (sqlStore .refusing) [("user:eve", "a''b")] "user:eve" = some "a'b" ∧
      ¬IsMap (sqlStore .refusing) [("user:eve", "a''b")] ["user:eve"] := by
  have hget : getAfter (sqlStore .refusing) [("user:eve", "a''b")] "user:eve" = some "a'b" := by
    have hcollapse : collapse "a''b" = "a'b" := by decide +kernel
    rw [← hcollapse, ← List.nil_append [("user:eve", "a''b")]]
    exact getAfter_concat (by decide +kernel) (by decide +kernel) (by decide +kernel)
      (by decide +kernel)
  refine ⟨hget, fun h => ?_⟩
  have hset := h.get_set [] "user:eve" "a''b" (List.prefix_refl _)
  rw [List.nil_append, hget] at hset
  exact absurd hset (by decide +kernel)

end CertOS
