/-
# What a read replica runs for `pgpaw.sql`

On a replica `execute` lets a statement through when its command is `SELECT`, and `shape` gives
that command to every statement that is a query.  The parser makes a query of
`WITH .. INSERT` too, and of a query with an `INSERT` in a common table expression.

`readOnly_iff` says for which texts the check does what it is for (`ReadOnlySafe`): those whose
query has no `INSERT` or `UPDATE` as the body of any query in it.
-/
import PgPaw.Capability.Sql

namespace PgPaw.SqlOperations

open Sql

/-! ## 1. The statement -/

/-- A text with the command `SELECT` does not modify data, and neither does one that a read
replica hands to `run_sql_as`, whatever the database replies before. -/
structure ReadOnlySafe (crates : SqlCrates) (sql : String) : Prop where
  accepted : ∀ validated statement, validateOneStatement crates sql MAX_SQL_BYTES = .ok validated →
    validated.command = "SELECT" → crates.parse sql = .ok [statement] → statement.modifies = false
  admitted : ∀ (self : SqlOperations) (principal : Option Principal), self.readOnly = true →
    ∀ (σ : Type) (h : DbOp → σ → DbReply × σ) (s s' : σ) (admitted : Admitted),
      (acceptRequest crates self sql principal).run.run h s = (.ok admitted, s') →
        ∀ statement, crates.parse sql = .ok [statement] → statement.modifies = false

/-- A text of the right length that is one query has no `INSERT` or `UPDATE` as the body of a
query in it. -/
def BodiesRead (crates : SqlCrates) (sql : String) : Prop :=
  sql.utf8ByteSize ≤ MAX_SQL_BYTES → ∀ query, crates.parse sql = .ok [.query query] →
    ∀ visited ∈ query.visit, visited.writes = false

/-! ## 2. The check -/

section Check

variable {crates : SqlCrates} {self : SqlOperations} {sql : String} {principal : Option Principal}

/-- **What `acceptRequest` lets through.** -/
theorem acceptRequest_ok {σ : Type} {h : DbOp → σ → DbReply × σ} {s s' : σ} {admitted : Admitted}
    (haccept : (acceptRequest crates self sql principal).run.run h s = (.ok admitted, s')) :
    validateOneStatement crates sql MAX_SQL_BYTES = .ok admitted.validated ∧
      (self.readOnly = true → admitted.validated.command = "SELECT") := by
  obtain ⟨validated, t, hvalid, hrest⟩ := Program.run_fallible_bind_ok haccept
  have hvalid : validateOneStatement crates sql MAX_SQL_BYTES = .ok validated :=
    congrArg Prod.fst hvalid
  obtain ⟨_, t', -, hrest⟩ := Program.run_fallible_bind_ok hrest
  split at hrest
  · obtain ⟨_, _, hthrow, -⟩ := Program.run_fallible_bind_ok hrest
    cases hthrow
  · rename_i hcommand
    cases hrest
    refine ⟨hvalid, fun hreadOnly => ?_⟩
    simpa [hreadOnly] using hcommand

theorem drop_ne_select (objectType : ObjectType) : "DROP " ++ objectType.display ≠ "SELECT" := by
  cases objectType <;> decide

/-- The command is `SELECT` for a query, and for no other statement whose text does not begin
with that word. -/
theorem query_of_shape {statement : SqlStatement}
    (hfirst : firstWords crates sql = "SELECT" → ∃ query, statement = .query query)
    (h : (shape crates statement sql).command = "SELECT") : ∃ query, statement = .query query := by
  cases statement with
  | query query => exact ⟨query, rfl⟩
  | drop objectType => exact absurd h (drop_ne_select objectType)
  | insert _ | update _ | delete _ | createTable | alterTable _ | createIndex | createView
  | createSchema | createFunction | truncate => exact absurd h (by simp [shape, dml, ddl])
  | _ => exact hfirst h

/-- **The check keeps writes off a replica exactly for the texts whose queries all read.**  A
text that begins with the word `SELECT` is parsed as a query. -/
theorem readOnly_iff (hfirst : ∀ statement, crates.parse sql = .ok [statement] →
    firstWords crates sql = "SELECT" → ∃ query, statement = .query query) :
    ReadOnlySafe crates sql ↔ BodiesRead crates sql := by
  constructor
  · intro h hlen query hparse visited hvisited
    have hvalid : validateOneStatement crates sql MAX_SQL_BYTES =
        .ok (shape crates (.query query) sql) :=
      validateOneStatement_ok_iff.mpr ⟨hlen, _, hparse, rfl, rfl, rfl⟩
    have hmodifies : query.modifies = false := h.accepted _ _ hvalid rfl hparse
    rw [Query.modifies_eq] at hmodifies
    exact Bool.eq_false_iff.mpr (List.any_eq_false.mp hmodifies visited hvisited)
  · intro h
    have haccepted : ∀ validated statement,
        validateOneStatement crates sql MAX_SQL_BYTES = .ok validated →
          validated.command = "SELECT" → crates.parse sql = .ok [statement] →
            statement.modifies = false := by
      intro validated statement hvalid hcommand hparse
      obtain ⟨hlen, statement', hparse', -, -, rfl⟩ := validateOneStatement_ok_iff.mp hvalid
      obtain rfl : statement' = statement := by
        rw [hparse'] at hparse
        simpa using hparse
      obtain ⟨query, rfl⟩ := query_of_shape (hfirst _ hparse) hcommand
      show query.modifies = false
      rw [Query.modifies_eq, List.any_eq_false]
      intro visited hvisited
      rw [h hlen query hparse visited hvisited]
      decide
    constructor
    · exact haccepted
    · intro self principal hreadOnly σ handle s s' admitted haccept statement hparse
      obtain ⟨hvalid, hcommand⟩ := acceptRequest_ok haccept
      exact haccepted _ statement hvalid (hcommand hreadOnly) hparse

end Check

/-! ## 3. A statement that is let through -/

/-- An `INSERT` behind a `WITH`.  Without the `WHERE` the parser takes `RETURNING` for an alias. -/
def writeSql : String :=
  "WITH a AS (SELECT 1 AS x) INSERT INTO t SELECT x FROM a WHERE true RETURNING x"

/-- `SELECT item FROM tables WHERE selection`. -/
def selectItem (item : SelectItem) (tables : List TableWithJoins) (selection : Option Expr) :
    Query :=
  .mk false [] (.select (.mk false [] [item] none tables selection [] [])) [] [] []

/-- The column `x`, and a table of this name. -/
def columnX : Expr := .identifier ⟨"x", none⟩

def tableNamed (name : String) : TableWithJoins := .mk (.table [⟨name, none⟩] none false []) []

def writeQuery : Query :=
  .mk false
    [.mk ⟨⟨"a", none⟩, []⟩ (selectItem (.exprWithAlias (.value (.number "1")) ⟨"x", none⟩) [] none)]
    (.insert [⟨"t", none⟩]
      (some (selectItem (.unnamedExpr columnX) [tableNamed "a"] (some (.value (.boolean true)))))
      [] [.unnamedExpr columnX]) [] [] []

/-- A query that reads: in a `WITH`, in a subquery of its `WHERE` and in a derived table. -/
def readSql : String :=
  "WITH recent AS (SELECT x FROM t WHERE x IN (SELECT x FROM s)) " ++
    "SELECT * FROM (SELECT x FROM recent) r"

def readQuery : Query :=
  .mk false
    [.mk ⟨⟨"recent", none⟩, []⟩ (selectItem (.unnamedExpr columnX) [tableNamed "t"]
      (some (.inSubquery columnX (selectItem (.unnamedExpr columnX) [tableNamed "s"] none)
        false)))]
    (.select (.mk false [] [.wildcard] none
      [.mk (.derived false (selectItem (.unnamedExpr columnX) [tableNamed "recent"] none)
        (some ⟨⟨"r", none⟩, []⟩)) []] none [] [])) [] [] []

def sampleCrates : SqlCrates where
  parse sql :=
    if sql = writeSql then .ok [.query writeQuery]
    else if sql = readSql then .ok [.query readQuery]
    else .error "sql parser error"
  toUppercase text := String.ofList (text.toList.map Char.toUpper)
  fromStr _ := none

theorem readOnlySafe_read : ReadOnlySafe sampleCrates readSql := by
  refine (readOnly_iff fun statement hparse _ => ?_).mpr ?_
  · have hparsed : sampleCrates.parse readSql = .ok [.query readQuery] := by rfl
    rw [hparsed] at hparse
    cases hparse
    exact ⟨readQuery, rfl⟩
  · intro _ query hparse
    have hparsed : sampleCrates.parse readSql = .ok [.query readQuery] := by rfl
    rw [hparsed] at hparse
    cases hparse
    intro visited hvisited
    have hnone : readQuery.visit.any Visited.writes = false := by decide
    exact Bool.eq_false_iff.mpr (List.any_eq_false.mp hnone visited hvisited)

/-- A database that answers everything with no rows. -/
def noRows (ops : Nat) : List (Program.Await DbReply) := List.replicate ops ⟨true, some (.ok [])⟩

/-- **A replica runs and commits an `INSERT`.** -/
theorem replica_runs_insert : ¬ ReadOnlySafe sampleCrates writeSql ∧
    ((execute sampleCrates ⟨DEFAULT_PUBLIC_ROLE, true⟩ writeSql [] none none).run.play
      (noRows 7)).2.map Prod.fst =
      [.query ownerRolesText [.string DEFAULT_PUBLIC_ROLE], .transaction,
        .txQuery "SET LOCAL statement_timeout = '30s'" [],
        .txQuery "SET LOCAL request.headers = '\x7b\x7d'" [],
        .txQuery "SET LOCAL ROLE \"pgpaw_public\"" [],
        .txQuery (selectWrapped writeSql) [], .commit] := by
  have hvalid : validateOneStatement sampleCrates writeSql MAX_SQL_BYTES =
      .ok ⟨"SELECT", true, false⟩ :=
    validateOneStatement_ok_iff.mpr ⟨by decide, .query writeQuery, by rfl, rfl, rfl, rfl⟩
  refine ⟨fun h => ?_, ?_⟩
  · exact absurd (h.accepted _ _ hvalid rfl (by rfl)) (by decide)
  · rfl

end PgPaw.SqlOperations
