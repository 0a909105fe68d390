/-
# Which stored tables `classify` finds, and which it hides

`classify` collects the last part of every name the visitor reports and leaves out those that
are the name of a member of the outermost `WITH`.  PostgreSQL resolves the same names by
scope (`Query.reads`).  The two differ in one direction only.  What the code leaves out is
too much: a stored table read under the name of an outermost CTE, where that CTE is not in
scope or the name is qualified or quoted, and a table read by `TABLE name` alone.

The list then decides access: `merge_verdicts` looks at the listed tables and at no others.
So a hidden table is read as the owner of the database, whatever its verdict
(`hidden_private_table`).  `tables_complete_iff` says exactly which statements are safe.
-/
import PgPaw.Capability.Classify
import PgPaw.Capability.Security
import PgPaw.Sql.Scope

namespace PgPaw

open Sql

/-! ## 1. The stored tables of a statement -/

/-- The name the tables of the cache are known by. -/
def Sql.StoredTable.lowerName (t : StoredTable) : String := toAsciiLowercase t.name

/-- The lower-cased bare names of the stored tables a statement reads. -/
def Sql.Query.storedNames (query : Query) : List String :=
  (query.reads []).filterMap fun r => (storedTable r.name).map StoredTable.lowerName

theorem mem_storedNames {query : Query} {t : String} :
    t ∈ query.storedNames ↔
      ∃ r ∈ query.reads [], ∃ st, storedTable r.name = some st ∧ st.lowerName = t := by
  simp only [Query.storedNames, List.mem_filterMap, Option.map_eq_some_iff]

/-- The code and PostgreSQL agree on the last part of a name, up to case. -/
theorem lastLower_of_storedTable : ∀ (name : ObjectName) {st : StoredTable},
    storedTable name = some st → lastLower name = st.lowerName
  | [], _, h => by simp [storedTable] at h
  | [i], st, h => by
    simp only [storedTable, Option.some.injEq] at h
    subst h
    simp [lastLower, StoredTable.lowerName]
  | [s, i], st, h => by
    simp only [storedTable, Option.some.injEq] at h
    subst h
    simp [lastLower, StoredTable.lowerName]
  | _ :: j :: k :: rest, st, h => by
    have ih := lastLower_of_storedTable (j :: k :: rest) h
    rw [← ih]
    simp [lastLower]

/-! ## 2. The statements that hide nothing -/

/-- A reference the code does not see: it carries the name of a member of the outermost
`WITH`, or it is a `TABLE name` body and no table factor carries its name. -/
def hides (query : Query) : Reference → Bool
  | .factor n => (outerCteNames query).contains (lastLower n)
  | .tableBody n => (outerCteNames query).contains (lastLower n) ||
      !(query.visitRelations.map lastLower).contains (lastLower n)

/-- **No stored table is hidden**: each is read under a name that is not an outermost CTE's,
and each `TABLE name` has a table factor of the same name somewhere in the statement. -/
def HidesNothing (query : Query) : Prop :=
  ∀ r ∈ query.reads [], (storedTable r.name).isSome → hides query r = false

instance (query : Query) : Decidable (HidesNothing query) :=
  inferInstanceAs (Decidable (∀ r ∈ _, _ → _))

/-- **A reference reaches the table list exactly when it is not hidden.** -/
theorem mem_queryTables_iff_not_hides {query : Query} {r : Reference} {st : StoredTable}
    (hr : r ∈ query.reads []) (hst : storedTable r.name = some st) :
    st.lowerName ∈ queryTables query ↔ hides query r = false := by
  rw [mem_queryTables, ← lastLower_of_storedTable _ hst]
  cases r with
  | factor n =>
    have hvisit : lastLower n ∈ query.visitRelations.map lastLower :=
      List.mem_map_of_mem (mem_visitRelations.mpr (Query.visit_of_reads query hr))
    simp only [hides, List.contains_eq_mem, decide_eq_false_iff_not]
    exact ⟨fun h => h.2, fun h => ⟨hvisit, h⟩⟩
  | tableBody n =>
    simp only [hides, List.contains_eq_mem, Bool.or_eq_false_iff, decide_eq_false_iff_not,
      Bool.not_eq_false', decide_eq_true_eq]
    exact and_comm

/-! ## 3. What access control needs of the table list -/

/-- The list has every stored table the statement reads. -/
def TablesComplete (query : Query) (tables : List String) : Prop :=
  ∀ t ∈ query.storedNames, t ∈ tables

instance (query : Query) (tables : List String) : Decidable (TablesComplete query tables) :=
  inferInstanceAs (Decidable (∀ t ∈ _, _))

/-- When `is_private` says no, on verdicts that are the catalog's, every stored table the
statement reads is public. -/
def NoPrivateRead (query : Query) (tables : List String) : Prop :=
  ∀ (catalog : Catalog) (verdicts : Verdicts),
    (∀ t ∈ tables, ∀ b, verdicts t = some b → catalog.verdict t = some b) →
      mergeVerdicts tables verdicts = false → ∀ t ∈ query.storedNames, catalog.isPublic t

/-- A complete list is all that access control needs. -/
theorem TablesComplete.noPrivateRead {query : Query} {tables : List String}
    (h : TablesComplete query tables) : NoPrivateRead query tables := by
  intro catalog verdicts hv hmerge t ht
  exact hv t (h t ht) false (mergeVerdicts_eq_false.mp hmerge t (h t ht))

/-- The list `classify` builds is complete exactly when nothing is hidden. -/
theorem tablesComplete_queryTables {query : Query} :
    TablesComplete query (queryTables query) ↔ HidesNothing query := by
  constructor
  · intro h r hr hsome
    obtain ⟨st, hst⟩ := Option.isSome_iff_exists.mp hsome
    have hmem : st.lowerName ∈ query.storedNames := mem_storedNames.mpr ⟨r, hr, st, hst, rfl⟩
    exact (mem_queryTables_iff_not_hides hr hst).mp (h _ hmem)
  · intro h t ht
    obtain ⟨r, hr, st, hst, rfl⟩ := mem_storedNames.mp ht
    exact (mem_queryTables_iff_not_hides hr hst).mpr (h r hr (by simp [hst]))

/-- **Access control cannot be bypassed by naming, exactly on the statements that hide no
stored table.** -/
theorem tables_complete_iff {crates : Crates} {self : ReadClassifier} {sql : String}
    {params : List Json} {q : CacheableQuery} {query : Query}
    (hq : self.classify crates sql params = .ok q)
    (hparse : crates.parseSql sql = some [.query query]) :
    (TablesComplete query q.tables ∧ NoPrivateRead query q.tables) ↔ HidesNothing query := by
  obtain ⟨query', hparse', -, -, -, -, rfl⟩ := ReadClassifier.classify_ok hq
  obtain rfl : query = query' := by simpa [hparse'] using hparse.symm
  rw [← tablesComplete_queryTables]
  exact ⟨fun h => h.1, fun h => ⟨h, h.noPrivateRead⟩⟩

/-! ## 4. Two statements -/

/-- A bare identifier. -/
def bareIdent (value : String) : Ident := ⟨value, none⟩

/-- `SELECT * FROM name [WHERE selection]`. -/
def selectAll (name : ObjectName) (selection : Option Expr) : Query :=
  .mk false [] (.select (.mk false [] [.wildcard] none [.mk (.table name none false []) []]
    selection [] [])) [] [] []

/-- A parser that knows one text.  Fingerprints are those of the standard hasher on it. -/
def oneText (sql : String) (query : Query) (fingerprint : Nat) : Crates where
  parseSql text := if text = sql then some [.query query] else none
  displayStatement _ := sql
  displayJson _ := ""
  finish _ := fingerprint

/-- `SELECT * FROM users`, and the crates on it. -/
def usersCrates : Crates :=
  oneText "SELECT * FROM users" (selectAll [bareIdent "users"] none) 10303469848723843506

/-- What `classify` returns for it. -/
def usersRead : CacheableQuery := ⟨10303469848723843506, ["users"], [], "SELECT * FROM users", []⟩

/-- A statement whose tables are all below its outermost `SELECT`: in a member of the `WITH`, in a
subquery, and in a `TABLE name` beside it.  `recent` is a CTE where it is named. -/
def nestedSql : String :=
  "WITH recent AS (SELECT * FROM Orders WHERE id IN (SELECT * FROM users)) " ++
    "SELECT * FROM (SELECT * FROM recent) r UNION TABLE users"

def nestedQuery : Query :=
  .mk false
    [.mk ⟨bareIdent "recent", []⟩ (selectAll [bareIdent "Orders"]
      (some (.inSubquery (.identifier (bareIdent "id")) (selectAll [bareIdent "users"] none)
        false)))]
    (.setOperation "UNION"
      (.select (.mk false [] [.wildcard] none
        [.mk (.derived false (selectAll [bareIdent "recent"] none)
          (some ⟨bareIdent "r", []⟩)) []] none [] []))
      (.table none (bareIdent "users"))) [] [] []

theorem users_tables_complete : nestedQuery.storedNames = ["orders", "users", "users"] ∧
    TablesComplete nestedQuery ["orders", "users"] ∧
      NoPrivateRead nestedQuery ["orders", "users"] := by
  have hq : (ReadClassifier.new ["users", "orders"]).classify (oneText nestedSql nestedQuery 0)
      nestedSql [] = .ok ⟨0, ["orders", "users"], [], nestedSql, []⟩ := by rfl
  exact ⟨by decide, (tables_complete_iff hq (by rfl)).mpr (by decide)⟩

/-- The text of a statement whose only table is hidden. -/
def shadowSql : String := "WITH secret AS (SELECT * FROM secret) SELECT * FROM secret"

/-- The member of its `WITH` reads the stored table: it is not in scope in its own body. -/
def shadowQuery : Query :=
  .mk false [.mk ⟨bareIdent "secret", []⟩ (selectAll [bareIdent "secret"] none)]
    (.select (.mk false [] [.wildcard] none [.mk (.table [bareIdent "secret"] none false []) []]
      none [] [])) [] [] []

/-- The crates on it. -/
def shadowCrates : Crates := oneText shadowSql shadowQuery 10080799988353868616

/-- What `classify` returns for it: no table at all, whatever is replicated. -/
def shadowRead : CacheableQuery := ⟨10080799988353868616, [], [], shadowSql, []⟩

/-- A catalog in which `secret` has row security. -/
def secretCatalog : Catalog := [⟨"public", "secret", 'r', true, false⟩]

/-- **A private table is read as a public one.**  The statement is accepted with an empty
table list, so `is_private` is false; its one stored table is private. -/
theorem hidden_private_table :
    (ReadClassifier.new ["secret"]).classify shadowCrates shadowSql [] = .ok shadowRead ∧
      mergeVerdicts shadowRead.tables (classifySecurity secretCatalog shadowRead.tables) = false ∧
      shadowQuery.storedNames = ["secret"] ∧ secretCatalog.verdict "secret" = some true ∧
      ¬ TablesComplete shadowQuery shadowRead.tables ∧
      ¬ NoPrivateRead shadowQuery shadowRead.tables := by
  refine ⟨by rfl, by decide, by decide, by decide, by decide, fun h => ?_⟩
  have hpublic := h secretCatalog (classifySecurity secretCatalog []) (by simp [shadowRead])
    (by decide) "secret" (by decide)
  exact absurd hpublic (by decide)

end PgPaw
