/-
# `capability/sql_validate.rs`

What `pgpaw.sql` accepts: one statement, not too long, that is not scoped to a connection, and
whose output list has no name twice.  `shape` says how `run_sql_as` will run it.

The parser, the JSON reader and Unicode's upper-case table are parameters (`SqlCrates`).
-/
import PgPaw.Error
import PgPaw.Json
import PgPaw.Sql.Statement
import PgPaw.Text

namespace PgPaw

open Sql

/-- What `pgpaw.sql` calls outside the repository. -/
structure SqlCrates where
  /-- `Parser::parse_sql(&PostgreSqlDialect {}, sql)`, or the text of its error. -/
  parse : String → Except String (List SqlStatement)
  /-- `str::to_uppercase`. -/
  toUppercase : String → String
  /-- `serde_json::from_str`. -/
  fromStr : String → Option Json

/-- `ValidatedSql`. -/
structure ValidatedSql where
  command : String
  returnsRows : Bool
  needsCountWrap : Bool
  deriving DecidableEq, Repr

/-! ## 1. The checks -/

/-- `connection_scoped`. -/
def connectionScoped : SqlStatement → Option String
  | .startTransaction => some "BEGIN"
  | .commit => some "COMMIT"
  | .rollback => some "ROLLBACK"
  | .savepoint => some "SAVEPOINT"
  | .releaseSavepoint => some "RELEASE SAVEPOINT"
  | .setTransaction => some "SET TRANSACTION"
  | .setVariable => some "SET"
  | .setTimeZone => some "SET TIME ZONE"
  | .setNames | .setNamesDefault => some "SET NAMES"
  | .setRole => some "SET ROLE"
  | .listen => some "LISTEN"
  | .notify => some "NOTIFY"
  | .discard => some "DISCARD"
  | .deallocate => some "DEALLOCATE"
  | .prepare => some "PREPARE"
  | .execute => some "EXECUTE"
  | .copy => some "COPY"
  | _ => none

/-- The `RETURNING` list of a statement. -/
def SqlStatement.returning : SqlStatement → Option (List SelectItem)
  | .insert returning | .update returning | .delete returning => returning
  | _ => none

/-- The output name `check_returning_duplicates` looks at. -/
def returningName : SelectItem → Option String
  | .exprWithAlias _ as => some (toAsciiLowercase as.value)
  | .unnamedExpr (.identifier ident) => some (toAsciiLowercase ident.value)
  | .unnamedExpr (.compoundIdentifier parts) =>
    some ((parts.getLast?.map fun ident => toAsciiLowercase ident.value).getD "")
  | _ => none

/-- Its loop over the items: the first name that was seen before. -/
def duplicateName : List SelectItem → List String → Option String
  | [], _ => none
  | item :: items, seen => match returningName item with
    | some name => if name ∈ seen then some name else duplicateName items (name :: seen)
    | none => duplicateName items seen

def isWildcard : SelectItem → Bool
  | .wildcard | .qualifiedWildcard _ => true
  | _ => false

/-- `check_returning_duplicates`. -/
def checkReturningDuplicates (statement : SqlStatement) : Except CacheError Unit :=
  match SqlStatement.returning statement with
  | none => .ok ()
  | some items =>
    let wildcards := items.countP isWildcard
    if wildcards > 1 || (wildcards == 1 && items.length > 1) then .error (.rejected
      ("RETURNING mixes a wildcard with other output columns; alias every column " ++
        "explicitly so each output name is unique"))
    else match duplicateName items [] with
      | some name => .error (.rejected
          ("RETURNING has more than one output column named `" ++ name ++
            "`; alias the columns so each output name is unique"))
      | none => .ok ()

/-! ## 2. The shape -/

/-- `dml`. -/
def dml (command : String) (hasReturning : Bool) : ValidatedSql :=
  ⟨command, hasReturning, !hasReturning⟩

/-- `ddl`. -/
def ddl (command : String) : ValidatedSql := ⟨command, false, false⟩

/-- `first_words`. -/
def firstWords (crates : SqlCrates) (sql : String) : String :=
  crates.toUppercase (" ".intercalate ((splitWhitespace sql).take 2))

/-- `shape`. -/
def shape (crates : SqlCrates) (statement : SqlStatement) (sql : String) : ValidatedSql :=
  match statement with
  | .query _ => ⟨"SELECT", true, false⟩
  | .insert returning => dml "INSERT" returning.isSome
  | .update returning => dml "UPDATE" returning.isSome
  | .delete returning => dml "DELETE" returning.isSome
  | .createTable => ddl "CREATE TABLE"
  | .alterTable _ => ddl "ALTER TABLE"
  | .createIndex => ddl "CREATE INDEX"
  | .createView => ddl "CREATE VIEW"
  | .createSchema => ddl "CREATE SCHEMA"
  | .createFunction => ddl "CREATE FUNCTION"
  | .truncate => ddl "TRUNCATE TABLE"
  -- the names of the object types are in upper case already
  | .drop objectType => ⟨"DROP " ++ objectType.display, false, false⟩
  | _ => ⟨firstWords crates sql, false, false⟩

/-- `validate_one_statement`. -/
def validateOneStatement (crates : SqlCrates) (sql : String) (maxSqlBytes : Nat) :
    Except CacheError ValidatedSql :=
  if sql.utf8ByteSize > maxSqlBytes then .error (.rejected
    ("statement is " ++ decimal sql.utf8ByteSize ++ " bytes; the advertised bound is " ++
      decimal maxSqlBytes))
  else match crates.parse sql with
    | .error error => .error (.rejected
        ("pgpaw.sql accepts one parseable PostgreSQL statement: " ++ error))
    | .ok [statement] => match connectionScoped statement with
      | some rejected => .error (.rejected (rejected ++
          " is connection-scoped and unsupported: each pgpaw.sql request commits or " ++
          "rolls back independently and no connection state survives the call"))
      | none => (checkReturningDuplicates statement).map fun _ => shape crates statement sql
    | .ok statements => .error (.rejected
        ("pgpaw.sql executes exactly one statement per request; got " ++
          decimal statements.length))

/-- `count_wrapped`. -/
def countWrapped (sql : String) : String :=
  "WITH _pgpaw_dml AS (" ++ trimStatement sql ++ " RETURNING 1) " ++
    "SELECT count(*)::int8 AS _pgpaw_affected FROM _pgpaw_dml"

/-! ## 3. What is accepted -/

variable {crates : SqlCrates} {sql : String} {maxSqlBytes : Nat} {validated : ValidatedSql}

/-- **What an accepted text is.** -/
theorem validateOneStatement_ok_iff : validateOneStatement crates sql maxSqlBytes = .ok validated ↔
    sql.utf8ByteSize ≤ maxSqlBytes ∧ ∃ statement, crates.parse sql = .ok [statement] ∧
      connectionScoped statement = none ∧ checkReturningDuplicates statement = .ok () ∧
      validated = shape crates statement sql := by
  unfold validateOneStatement
  constructor
  · intro h
    split at h
    · cases h
    rename_i hlen
    split at h
    · cases h
    · rename_i statement hparse
      split at h
      · cases h
      · rename_i hscoped
        cases hdup : checkReturningDuplicates statement with
        | error e =>
          rw [hdup] at h
          cases h
        | ok u =>
          rw [hdup] at h
          cases h
          exact ⟨Nat.le_of_not_lt hlen, statement, hparse, hscoped, hdup, rfl⟩
    · cases h
  · rintro ⟨hlen, statement, hparse, hscoped, hdup, rfl⟩
    rw [if_neg (Nat.not_lt.mpr hlen), hparse]
    simp only [hscoped, hdup, Except.map]

end PgPaw
