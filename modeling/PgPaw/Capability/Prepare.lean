/-
# `ReadOperations::prepare` and `ensure_unique_columns`

`prepare` decides whether a read is served at all.  After classification and access control it
looks at the names of the output columns, because `to_jsonb` keeps one value per name.  It does
so by running the query and looking at the first row it returns, and only when the query lists
more than one table.

So a repeated name goes unnoticed when the query lists one table, or none, and whenever it
happens to return no row (`accepted_columns_iff`).
-/
import PgPaw.Capability.TableExtraction
import PgPaw.Capability.Live

namespace PgPaw

open Sql

variable {γ : Type}

/-! ## 1. The code -/

/-- What `prepare` calls outside the two files: the classifier with its crates, `is_private`,
and `db.query`, of whose rows the check reads the names of the columns. -/
structure Reader (γ : Type) where
  crates : Crates
  classifier : ReadClassifier
  isPrivate : List String → Except CacheError Bool
  columns : Option Session → String → List Json → Database γ →
    Except CacheError (List (List String))

/-- A request for a read. -/
structure ReadRequest where
  sql : String
  principal : Option Principal
  headers : Option String
  params : List Json
  deriving DecidableEq, Repr

/-- The session a read runs in; none as the owner. -/
def ReadRequest.session (request : ReadRequest) : Option Session :=
  if ownerScope request.principal request.headers then none
  else some (beginScoped request.principal request.headers)

/-- `probe`. -/
def probeColumns (sql : String) : String := "select * from (" ++ sql ++ ") _pgpaw_cols limit 1"

/-- The loop over `row.columns()`: the first name that was `seen` before. -/
def repeatedColumn (seen : List String) : List String → Option String
  | [] => none
  | column :: columns =>
    if seen.contains (toAsciiLowercase column) then some column
    else repeatedColumn (toAsciiLowercase column :: seen) columns

/-- `ensure_unique_columns`. -/
def ensureUniqueColumns (reader : Reader γ) (request : ReadRequest) (db : Database γ) :
    Except CacheError Unit :=
  match reader.columns request.session (probeColumns request.sql) request.params db with
  | .error e => .error e
  | .ok [] => .ok ()
  | .ok (row :: _) => match repeatedColumn [] row with
    | none => .ok ()
    | some column => .error (.rejected ("result has more than one column named `" ++ column ++
        "`; alias the columns so each is unique (e.g. select a.id as a_id, b.id as b_id) " ++
        "— a live query needs a stable per-row identity"))

/-- `prepare`, up to the check of the columns. -/
def checkAccess (reader : Reader γ) (halted : Option String) (request : ReadRequest) :
    Except CacheError (CacheableQuery × Bool) :=
  match halted with
  | some reason => .error (.halted reason)
  | none => match reader.classifier.classify reader.crates request.sql request.params with
    | .error e => .error e
    | .ok query => match reader.isPrivate query.tables with
      | .error e => .error e
      | .ok priv =>
        if priv && ownerScope request.principal request.headers then .error (.unauthorized
          "this query is access-controlled; a bearer token or request identity is required")
        else .ok (query, priv)

/-- `ReadOperations::prepare`; `halted` is what the replica says, if there is one. -/
def prepare (reader : Reader γ) (halted : Option String) (request : ReadRequest)
    (db : Database γ) : Except CacheError PreparedRead :=
  match checkAccess reader halted request with
  | .error e => .error e
  | .ok (query, priv) =>
    let read : PreparedRead := ⟨query, request.principal, request.headers, priv⟩
    if query.tables.length > 1 then
      match ensureUniqueColumns reader request db with
      | .error e => .error e
      | .ok () => .ok read
    else .ok read

/-! ## 2. What is accepted -/

/-- The loop finds nothing exactly when the names differ in more than case. -/
theorem repeatedColumn_eq_none (columns seen : List String) :
    repeatedColumn seen columns = none ↔
      (columns.map toAsciiLowercase).Nodup ∧ ∀ c ∈ columns, toAsciiLowercase c ∉ seen := by
  induction columns generalizing seen with
  | nil => simp [repeatedColumn]
  | cons column columns ih =>
    rw [repeatedColumn]
    by_cases hseen : toAsciiLowercase column ∈ seen
    · rw [if_pos (by simpa using hseen)]
      exact iff_of_false (by simp) fun h => h.2 column List.mem_cons_self hseen
    · rw [if_neg (by simpa using hseen), ih, List.map_cons, List.nodup_cons, List.forall_mem_cons]
      simp only [List.mem_cons, not_or, List.mem_map, not_exists, not_and]
      constructor
      · rintro ⟨hnodup, hrest⟩
        exact ⟨⟨fun c hc => (hrest c hc).1, hnodup⟩, hseen, fun c hc => (hrest c hc).2⟩
      · rintro ⟨⟨hfresh, hnodup⟩, -, hrest⟩
        exact ⟨hnodup, fun c hc => ⟨hfresh c hc, hrest c hc⟩⟩

section Acceptance

variable {reader : Reader γ} {halted : Option String} {request : ReadRequest} {db : Database γ}

theorem ensureUniqueColumns_ok_iff : ensureUniqueColumns reader request db = .ok () ↔
    ∃ rows, reader.columns request.session (probeColumns request.sql) request.params db = .ok rows ∧
      ∀ row, rows.head? = some row → (row.map toAsciiLowercase).Nodup := by
  unfold ensureUniqueColumns
  cases reader.columns request.session (probeColumns request.sql) request.params db with
  | error e => simp
  | ok rows =>
    cases rows with
    | nil => simp
    | cons row rows =>
      have hnone : repeatedColumn [] row = none ↔ (row.map toAsciiLowercase).Nodup := by
        simpa using repeatedColumn_eq_none row []
      cases h : repeatedColumn [] row with
      | none => simp [h, hnone.mp h]
      | some column =>
        have hrepeated : ¬ (row.map toAsciiLowercase).Nodup := by
          rw [← hnone, h]
          simp
        simp [h, hrepeated]

/-- **What `prepare` accepts.** -/
theorem prepare_ok_iff {read : PreparedRead} : prepare reader halted request db = .ok read ↔
    ∃ query priv, checkAccess reader halted request = .ok (query, priv) ∧
      read = ⟨query, request.principal, request.headers, priv⟩ ∧
      (1 < query.tables.length → ensureUniqueColumns reader request db = .ok ()) := by
  unfold prepare
  cases checkAccess reader halted request with
  | error e => simp
  | ok access =>
    obtain ⟨query, priv⟩ := access
    by_cases htables : query.tables.length > 1
    · cases hcolumns : ensureUniqueColumns reader request db with
      | error e =>
        simp only [htables, if_true, reduceCtorEq, false_iff, not_exists, not_and]
        rintro query' priv' hq - hc
        obtain ⟨rfl, rfl⟩ := Prod.mk.inj (Except.ok.inj hq)
        cases hc htables
      | ok _ =>
        simp only [htables, if_true, Except.ok.injEq, Prod.mk.injEq]
        constructor
        · rintro rfl
          exact ⟨query, priv, ⟨rfl, rfl⟩, rfl, fun _ => trivial⟩
        · rintro ⟨_, _, ⟨rfl, rfl⟩, rfl, -⟩
          rfl
    · simp only [htables, if_false, Except.ok.injEq, Prod.mk.injEq]
      constructor
      · rintro rfl
        exact ⟨query, priv, ⟨rfl, rfl⟩, rfl, fun h => absurd h htables⟩
      · rintro ⟨_, _, ⟨rfl, rfl⟩, rfl, -⟩
        rfl

end Acceptance

/-! ## 3. Columns that are lost -/

section Columns

variable (reader : Reader γ) (halted : Option String) (request : ReadRequest)

/-- A request, once accepted, loses no column: its output names are distinct, and `to_jsonb`
keeps every row of these columns as it is. -/
def KeepsColumns (names : List String) : Prop :=
  ∀ db read, prepare reader halted request db = .ok read →
    names.Nodup ∧ ∀ row : List (String × Json), row.map Prod.fst = names → toJsonb row = row

/-- Whether a request is accepted does not depend on what is in the tables. -/
def AcceptedAlike : Prop :=
  ∀ db db', (∃ read, prepare reader halted request db = .ok read) →
    ∃ read, prepare reader halted request db' = .ok read

/-- The query fails in a state. -/
def Fails (db : Database γ) : Prop :=
  ∃ e, reader.columns request.session (probeColumns request.sql) request.params db = .error e

/-- The query returns no row in a state. -/
def ReturnsNothing (db : Database γ) : Prop :=
  reader.columns request.session (probeColumns request.sql) request.params db = .ok []

variable {reader} {request} {names : List String}

/-- The check of the columns, of a query whose rows all have the same ones. -/
theorem ensureUniqueColumns_ok_of_names (db : Database γ)
    (hnames : ∀ rows, reader.columns request.session (probeColumns request.sql) request.params db =
      .ok rows → ∀ row ∈ rows, row = names) :
    ensureUniqueColumns reader request db = .ok () ↔
      ReturnsNothing reader request db ∨
        ¬ Fails reader request db ∧ (names.map toAsciiLowercase).Nodup := by
  rw [ensureUniqueColumns_ok_iff, ReturnsNothing, Fails]
  cases h : reader.columns request.session (probeColumns request.sql) request.params db with
  | error e => simp
  | ok rows =>
    cases rows with
    | nil => simp
    | cons row rows =>
      obtain rfl := hnames _ h row List.mem_cons_self
      simp

/-- Once access is granted, only the check of the columns is left, and only for a join. -/
theorem accepted_iff {query : CacheableQuery} {priv : Bool}
    (haccess : checkAccess reader halted request = .ok (query, priv)) (db : Database γ) :
    (∃ read, prepare reader halted request db = .ok read) ↔
      (1 < query.tables.length → ensureUniqueColumns reader request db = .ok ()) := by
  constructor
  · rintro ⟨read, h⟩
    obtain ⟨query', priv', hq, -, hcolumns⟩ := prepare_ok_iff.mp h
    obtain ⟨rfl, -⟩ := Prod.mk.inj (Except.ok.inj (haccess.symm.trans hq))
    exact hcolumns
  · intro h
    exact ⟨_, prepare_ok_iff.mpr ⟨query, priv, haccess, rfl, h⟩⟩

theorem keepsColumns_iff {query : CacheableQuery} {priv : Bool}
    (haccess : checkAccess reader halted request = .ok (query, priv))
    (hnames : ∀ db rows, reader.columns request.session (probeColumns request.sql) request.params
      db = .ok rows → ∀ row ∈ rows, row = names) :
    KeepsColumns reader halted request names ↔
      names.Nodup ∨ ∀ db, 1 < query.tables.length ∧ ¬ ReturnsNothing reader request db := by
  have hcheck := fun db => ensureUniqueColumns_ok_of_names db (hnames db)
  constructor
  · intro h
    by_cases hnodup : names.Nodup
    · exact Or.inl hnodup
    · have hrefused : ∀ db, ¬ ∃ read, prepare reader halted request db = .ok read := by
        rintro db ⟨read, hread⟩
        exact hnodup (h db read hread).1
      simp only [accepted_iff halted haccess, Classical.not_imp, hcheck, not_or] at hrefused
      exact Or.inr fun db => ⟨(hrefused db).1, (hrefused db).2.1⟩
  · intro h db read hread
    suffices hnodup : names.Nodup from
      ⟨hnodup, fun row hrow => toJsonb_eq_self_iff.mpr (hrow ▸ hnodup)⟩
    rcases h with hnodup | hrows
    · exact hnodup
    · obtain ⟨hlen, hsome⟩ := hrows db
      have hcolumns := (accepted_iff halted haccess db).mp ⟨read, hread⟩ hlen
      rcases (hcheck db).mp hcolumns with hnothing | ⟨-, hnodup⟩
      · exact absurd hnothing hsome
      · exact hnodup.of_map _

theorem acceptedAlike_iff {query : CacheableQuery} {priv : Bool}
    (haccess : checkAccess reader halted request = .ok (query, priv))
    (hnames : ∀ db rows, reader.columns request.session (probeColumns request.sql) request.params
      db = .ok rows → ∀ row ∈ rows, row = names) :
    AcceptedAlike reader halted request ↔
      query.tables.length ≤ 1 ∨
        if (names.map toAsciiLowercase).Nodup
        then ∀ db db', Fails reader request db ↔ Fails reader request db'
        else ∀ db db', ReturnsNothing reader request db ↔ ReturnsNothing reader request db' := by
  have hcheck := fun db => ensureUniqueColumns_ok_of_names db (hnames db)
  simp only [AcceptedAlike, accepted_iff halted haccess, hcheck]
  by_cases hlen : query.tables.length ≤ 1
  · have hnot : ¬ 1 < query.tables.length := by omega
    exact iff_of_true (fun _ _ _ h => absurd h hnot) (Or.inl hlen)
  · have hmany : 1 < query.tables.length := by omega
    simp only [hlen, hmany, true_imp_iff, false_or]
    split
    · rename_i hnodup
      have hpass : ∀ db, ReturnsNothing reader request db ∨ ¬ Fails reader request db ∧
          (names.map toAsciiLowercase).Nodup ↔ ¬ Fails reader request db := by
        intro db
        constructor
        · rintro (hnothing | ⟨hrun, -⟩)
          · rintro ⟨e, he⟩
            cases hnothing.symm.trans he
          · exact hrun
        · intro hrun
          exact Or.inr ⟨hrun, hnodup⟩
      simp only [hpass]
      constructor
      · intro h db db'
        exact ⟨fun hf => not_not.mp fun hr => h db' db hr hf,
          fun hf => not_not.mp fun hr => h db db' hr hf⟩
      · intro h db db' hr hf
        exact hr ((h db db').mpr hf)
    · rename_i hrepeated
      simp only [hrepeated, and_false, or_false]
      constructor
      · intro h db db'
        exact ⟨h db db', h db' db⟩
      · intro h db db'
        exact (h db db').mp

/-- **An accepted read loses no output column exactly when** its output names are distinct, or
it lists more than one table and returns a row, or fails, in every state; **and acceptance does
not depend on the rows exactly when** at most one table is listed, or the query fails in every
state or in none while its names differ in more than case, or it returns nothing in every state
or in none while they do not. -/
theorem accepted_columns_iff
    (hnames : ∀ db rows, reader.columns request.session (probeColumns request.sql) request.params
      db = .ok rows → ∀ row ∈ rows, row = names) :
    (KeepsColumns reader halted request names ↔
        ∀ query priv, checkAccess reader halted request = .ok (query, priv) →
          names.Nodup ∨ ∀ db, 1 < query.tables.length ∧ ¬ ReturnsNothing reader request db) ∧
      (AcceptedAlike reader halted request ↔
        ∀ query priv, checkAccess reader halted request = .ok (query, priv) →
          query.tables.length ≤ 1 ∨
            if (names.map toAsciiLowercase).Nodup
            then ∀ db db', Fails reader request db ↔ Fails reader request db'
            else ∀ db db',
              ReturnsNothing reader request db ↔ ReturnsNothing reader request db') := by
  cases haccess : checkAccess reader halted request with
  | error e =>
    have hnone : ∀ db read, ¬ prepare reader halted request db = .ok read := by
      intro db read h
      obtain ⟨query, priv, hq, -⟩ := prepare_ok_iff.mp h
      cases haccess.symm.trans hq
    refine ⟨iff_of_true (fun db read h => absurd h (hnone db read)) ?_,
      iff_of_true (fun db db' ⟨read, h⟩ => absurd h (hnone db read)) ?_⟩
    · intro query priv h
      cases h
    · intro query priv h
      cases h
  | ok access =>
    obtain ⟨query, priv⟩ := access
    have hone : ∀ {P : CacheableQuery → Prop}, (∀ query' priv',
        (Except.ok (query, priv) : Except CacheError _) = .ok (query', priv') → P query') ↔
          P query := by
      intro P
      refine ⟨fun h => h query priv rfl, fun h query' priv' he => ?_⟩
      obtain ⟨rfl, -⟩ := Prod.mk.inj (Except.ok.inj he)
      exact h
    rw [hone, hone]
    exact ⟨keepsColumns_iff halted haccess hnames, acceptedAlike_iff halted haccess hnames⟩

end Columns

/-! ## 4. A join that loses a column -/

/-- `is_private` of an embedded primary, on its catalog. -/
def primaryVerdict (catalog : Catalog) (tables : List String) : Except CacheError Bool :=
  .ok (mergeVerdicts tables (classifySecurity catalog tables))

/-- Two public tables. -/
def usersOrdersCatalog : Catalog :=
  [⟨"public", "users", 'r', false, true⟩, ⟨"public", "orders", 'r', false, true⟩]

def joinSql : String := "SELECT * FROM users, orders"

def joinQuery : Query :=
  .mk false [] (.select (.mk false [] [.wildcard] none
    [.mk (.table [bareIdent "users"] none false []) [],
      .mk (.table [bareIdent "orders"] none false []) []] none [] [])) [] [] []

/-- A server with the two tables, each with the one column `id`: the join has a row when both
tables have one. -/
def joinReader : Reader String where
  crates := oneText joinSql joinQuery 0
  classifier := .new ["users", "orders"]
  isPrivate := primaryVerdict usersOrdersCatalog
  columns _ _ _ db := .ok (if db "users" = "[]" ∨ db "orders" = "[]" then [] else [["id", "id"]])

def joinRequest : ReadRequest := ⟨joinSql, none, none, []⟩

/-- The same join under an alias for each column. -/
def aliasedSql : String := "SELECT u.id AS uid, o.id AS oid FROM users u, orders o"

def aliasedQuery : Query :=
  .mk false [] (.select (.mk false []
    [.exprWithAlias (.compoundIdentifier [bareIdent "u", bareIdent "id"]) (bareIdent "uid"),
      .exprWithAlias (.compoundIdentifier [bareIdent "o", bareIdent "id"]) (bareIdent "oid")] none
    [.mk (.table [bareIdent "users"] (some ⟨bareIdent "u", []⟩) false []) [],
      .mk (.table [bareIdent "orders"] (some ⟨bareIdent "o", []⟩) false []) []] none [] []))
    [] [] []

def aliasedReader : Reader String where
  crates := oneText aliasedSql aliasedQuery 0
  classifier := .new ["users", "orders"]
  isPrivate := primaryVerdict usersOrdersCatalog
  columns _ _ _ db :=
    .ok (if db "users" = "[]" ∨ db "orders" = "[]" then [] else [["uid", "oid"]])

def aliasedRequest : ReadRequest := ⟨aliasedSql, none, none, []⟩

/-- It is accepted over empty tables and over others, and keeps both columns. -/
theorem accepted_columns_iff_aliased :
    (∃ read, prepare aliasedReader none aliasedRequest (fun _ => "[7]") = .ok read) ∧
      KeepsColumns aliasedReader none aliasedRequest ["uid", "oid"] ∧
      AcceptedAlike aliasedReader none aliasedRequest := by
  have hnames : ∀ db rows, aliasedReader.columns aliasedRequest.session
      (probeColumns aliasedRequest.sql) aliasedRequest.params db = .ok rows →
        ∀ row ∈ rows, row = ["uid", "oid"] := by
    intro db rows hrows row hrow
    obtain rfl := Except.ok.inj hrows
    split at hrow
    · cases hrow
    · exact List.mem_singleton.mp hrow
  have haccepted : prepare aliasedReader none aliasedRequest (fun _ => "[7]") =
      .ok ⟨⟨0, ["users", "orders"], [], aliasedSql, []⟩, none, none, false⟩ := by decide +kernel
  have hruns : ∀ db, ¬ Fails aliasedReader aliasedRequest db := by
    rintro db ⟨e, he⟩
    cases he
  have hiff := accepted_columns_iff none hnames
  refine ⟨⟨_, haccepted⟩, hiff.1.mpr fun query priv _ => Or.inl (by decide),
    hiff.2.mpr fun query priv _ => Or.inr ?_⟩
  rw [if_pos (by decide)]
  exact fun db db' => iff_of_false (hruns db) (hruns db')

/-- A server with the one public table `users`, asked for all of it. -/
def usersReader : Reader String where
  crates := usersCrates
  classifier := .new ["users"]
  isPrivate := primaryVerdict usersOrdersCatalog
  columns _ _ _ db := .ok (if db "users" = "[]" then [] else [["id"]])

/-- **A join over empty tables is accepted, and drops a column once there are rows.**  The same
request is refused as long as the tables are not empty. -/
theorem join_loses_column :
    (∃ read, prepare joinReader none joinRequest (fun _ => "[]") = .ok read) ∧
      prepare joinReader none joinRequest (fun _ => "[7]") = .error (.rejected
        ("result has more than one column named `id`; alias the columns so each is unique " ++
          "(e.g. select a.id as a_id, b.id as b_id) — a live query needs a stable per-row " ++
          "identity")) ∧
      toJsonb [("id", .number (.integer 1)), ("id", .number (.integer 2))] =
        [("id", .number (.integer 2))] ∧
      ¬ KeepsColumns joinReader none joinRequest ["id", "id"] ∧
      ¬ AcceptedAlike joinReader none joinRequest := by
  have haccepted : prepare joinReader none joinRequest (fun _ => "[]") =
      .ok ⟨⟨0, ["users", "orders"], [], joinSql, []⟩, none, none, false⟩ := by decide +kernel
  have hrefused : prepare joinReader none joinRequest (fun _ => "[7]") = .error (.rejected
      ("result has more than one column named `id`; alias the columns so each is unique " ++
        "(e.g. select a.id as a_id, b.id as b_id) — a live query needs a stable per-row " ++
        "identity")) := by
    decide +kernel
  refine ⟨⟨_, haccepted⟩, hrefused, by decide, fun h => ?_, fun h => ?_⟩
  · exact absurd (h _ _ haccepted).1 (by decide)
  · obtain ⟨read, hread⟩ := h _ (fun _ => "[7]") ⟨_, haccepted⟩
    cases hrefused.symm.trans hread

end PgPaw
