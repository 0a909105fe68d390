/-
# `capability/sql.rs`, and the part of `capability/rows.rs` it runs

`SqlOperations::execute` checks a statement and the role, and `run_sql_as` runs it in a
transaction of its own, in one of four shapes.  Both are programs over the operations of
`pglite`, in the order the source awaits them; what the operations do is left open.

A row is the list of its cells, and SQL's null is `Json.null`.
-/
import PgPaw.Capability.Rows
import PgPaw.Capability.SqlValidate
import PgPaw.Lib.Program

namespace PgPaw

/-- What is asked of `pglite`. -/
inductive DbOp
  /-- `db.query`. -/
  | query (sql : String) (params : List Json)
  /-- `db.transaction`. -/
  | transaction
  /-- `tx.query`. -/
  | txQuery (sql : String) (params : List Json)
  | commit
  | rollback

abbrev DbRow := List Json

/-- The rows, of which a transaction's begin and end have none. -/
abbrev DbReply := Except CacheError (List DbRow)

/-- A program over the database, with `?`. -/
abbrev Db := ExceptT CacheError (Program DbOp DbReply)

/-- An operation, and its reply. -/
def Db.perform (op : DbOp) : Db (List DbRow) := ExceptT.mk (Program.perform op)

/-- A value that may be an error, and `?`. -/
def Db.orError {α : Type} (result : Except CacheError α) : Db α := ExceptT.mk (pure result)

/-- The result of a block, its error included. -/
def Db.attempt {α : Type} (block : Db α) : Db (Except CacheError α) :=
  ExceptT.mk (block.run >>= fun result => pure (.ok result))

/-- The error of `row.get`. -/
def columnError : CacheError := .pglite "" "a column does not have the requested type"

/-- `row.get::<Option<String>>(i)`. -/
def getText (row : DbRow) (i : Nat) : Except CacheError (Option String) := match row[i]? with
  | some .null => .ok none
  | some (.string text) => .ok (some text)
  | _ => .error columnError

/-- `row.get::<Option<bool>>(i)`. -/
def getBool (row : DbRow) (i : Nat) : Except CacheError (Option Bool) := match row[i]? with
  | some .null => .ok none
  | some (.bool b) => .ok (some b)
  | _ => .error columnError

/-- `row.get::<Option<i64>>(i)`. -/
def getInt (row : DbRow) (i : Nat) : Except CacheError (Option Int) := match row[i]? with
  | some .null => .ok none
  | some (.number (.integer n)) => .ok (some n)
  | _ => .error columnError

/-! ## 1. `rows.rs` -/

/-- `rows::SqlOutcome`. -/
structure RowsOutcome where
  rowsJson : String
  rowsAffected : Nat
  deriving DecidableEq, Repr

/-- `SQL_DEADLINE_SECS`. -/
def SQL_DEADLINE_SECS : Nat := 30

/-- The text between two quotes, with the quotes in it doubled. -/
def quoted (quote : Char) (value : String) : String :=
  String.ofList
    (quote :: value.toList.flatMap (fun c => if c == quote then [c, c] else [c]) ++ [quote])

/-- `sql_literal`. -/
def sqlLiteral (value : String) : String := quoted '\'' value

/-- `sql_ident`. -/
def sqlIdent (value : String) : String := quoted '"' value

namespace SqlOperations

/-- `begin_scoped`. -/
def beginScoped (role claims headers : Option String) : Db Unit := do
  discard (Db.perform .transaction)
  discard (Db.perform (.txQuery
    ("SET LOCAL statement_timeout = '" ++ decimal SQL_DEADLINE_SECS ++ "s'") []))
  match claims with
  | some claims =>
    discard (Db.perform (.txQuery ("SET LOCAL request.jwt.claims = " ++ sqlLiteral claims) []))
  | none => pure ()
  discard (Db.perform (.txQuery
    ("SET LOCAL request.headers = " ++ sqlLiteral (headers.getD "\x7b\x7d")) []))
  match role with
  | some role => discard (Db.perform (.txQuery ("SET LOCAL ROLE " ++ sqlIdent role) []))
  | none => pure ()

/-- `query_json_scoped`. -/
def queryJsonScoped (principal : Option Principal) (headers : Option String) (sql : String)
    (params : List Json) : Db String := do
  if ownerScope principal headers then
    let rows ← Db.perform (.query (wrapJson sql) params)
    let body ← Db.orError (rows.head?.elim (.ok none) (getText · 0))
    return body.getD "[]"
  else
    beginScoped (some (scopedRole principal)) (principal.map Principal.claimsJson) headers
    let rows ← Db.perform (.txQuery (wrapJson sql) params)
    let body ← Db.orError (rows.head?.elim (.ok none) (getText · 0))
    discard (Db.perform .commit)
    return body.getD "[]"

/-- The text of the first shape, with the columns `j` and `duplicated`. -/
def selectWrapped (sql : String) : String :=
  "WITH _pgpaw_q AS (" ++ sql ++ "), " ++
    "_pgpaw_rows AS ( " ++
      "SELECT to_jsonb(_pgpaw_q) AS r, " ++
        "(SELECT count(*) FROM json_object_keys(row_to_json(_pgpaw_q))) AS total, " ++
        "(SELECT count(*) FROM jsonb_object_keys(to_jsonb(_pgpaw_q))) AS distinct_keys " ++
      "FROM _pgpaw_q) " ++
    "SELECT coalesce(jsonb_agg(r), '[]'::jsonb)::text AS j, " ++
      "coalesce(bool_or(total <> distinct_keys), false) AS duplicated " ++
    "FROM _pgpaw_rows"

/-- The text of the second shape, with the column `j`. -/
def returningWrapped (sql : String) : String :=
  "WITH _pgpaw_dml AS (" ++ trimStatement sql ++ ") " ++
    "select coalesce(jsonb_agg(to_jsonb(_t)), '[]'::jsonb)::text as j " ++
    "from _pgpaw_dml _t"

/-- `check_result_bound`. -/
def checkResultBound (rowsJson : String) (maxResultBytes : Nat) : Except CacheError Unit :=
  if rowsJson.utf8ByteSize > maxResultBytes then .error (.rejected
    ("result is " ++ decimal rowsJson.utf8ByteSize ++ " bytes; the advertised bound is " ++
      decimal maxResultBytes ++ " — nothing was committed; narrow the query or paginate " ++
      "with LIMIT/OFFSET"))
  else .ok ()

/-- What the first shape makes of the rows. -/
def selectOutcome (maxResultBytes : Nat) (rows : List DbRow) : Except CacheError RowsOutcome := do
  let (body, duplicated) ← match rows.head? with
    | some row => do pure (← getText row 0, ← getBool row 1)
    | none => pure (none, none)
  if duplicated.getD false then throw (.rejected
    ("result has more than one column with the same name; alias the columns so " ++
      "each output name is unique"))
  let rowsJson := body.getD "[]"
  checkResultBound rowsJson maxResultBytes
  return ⟨rowsJson, 0⟩

/-- And the second: the number of rows is read off the body. -/
def returningOutcome (crates : SqlCrates) (maxResultBytes : Nat) (rows : List DbRow) :
    Except CacheError RowsOutcome := do
  let body ← match rows.head? with
    | some row => getText row 0
    | none => pure none
  let rowsJson := body.getD "[]"
  checkResultBound rowsJson maxResultBytes
  let affected := match crates.fromStr rowsJson with
    | some (.array items) => items.length
    | _ => 0
  return ⟨rowsJson, affected⟩

/-- And the third. -/
def countOutcome (rows : List DbRow) : Except CacheError RowsOutcome := do
  let affected ← match rows.head? with
    | some row => do pure ((← getInt row 0).getD 0)
    | none => pure 0
  return ⟨"[]", affected.toNat⟩

/-- The statement as it is run, in its shape. -/
def statementText (validated : ValidatedSql) (sql : String) : String :=
  if validated.command == "SELECT" then selectWrapped sql
  else if validated.returnsRows then returningWrapped sql
  else if validated.needsCountWrap then countWrapped sql
  else sql

/-- And what becomes of its rows. -/
def statementOutcome (crates : SqlCrates) (validated : ValidatedSql) (maxResultBytes : Nat)
    (rows : List DbRow) : Except CacheError RowsOutcome :=
  if validated.command == "SELECT" then selectOutcome maxResultBytes rows
  else if validated.returnsRows then returningOutcome crates maxResultBytes rows
  else if validated.needsCountWrap then countOutcome rows
  else .ok ⟨"[]", 0⟩

/-- The block of `run_sql_as` inside the transaction. -/
def runStatement (crates : SqlCrates) (validated : ValidatedSql) (sql : String)
    (params : List Json) (maxResultBytes : Nat) : Db RowsOutcome := do
  let rows ← Db.perform (.txQuery (statementText validated sql) params)
  Db.orError (statementOutcome crates validated maxResultBytes rows)

/-- The end of `run_sql_as`: the transaction is committed, or rolled back. -/
def endTransaction (outcome : Except CacheError RowsOutcome) : Db RowsOutcome :=
  match outcome with
  | .ok outcome => do
    discard (Db.perform .commit)
    return outcome
  | .error error => do
    discard (Db.attempt (Db.perform .rollback))
    throw error

/-- `run_sql_as`. -/
def runSqlAs (crates : SqlCrates) (role : String) (claims headers : Option String)
    (validated : ValidatedSql) (sql : String) (params : List Json) (maxResultBytes : Nat) :
    Db RowsOutcome := do
  beginScoped (some role) claims headers
  let outcome ← Db.attempt (runStatement crates validated sql params maxResultBytes)
  endTransaction outcome

end SqlOperations

/-! ## 2. `sql.rs` -/

/-- `MAX_SQL_BYTES`. -/
def MAX_SQL_BYTES : Nat := 1024 * 1024

/-- `MAX_RESULT_BYTES`. -/
def MAX_RESULT_BYTES : Nat := 8 * 1024 * 1024

/-- `SqlOperations`, without the database and the verifier. -/
structure SqlOperations where
  publicRole : String
  readOnly : Bool

/-- `SqlOutcome`. -/
structure SqlOutcome where
  command : String
  rowsJson : String
  rowsAffected : Nat
  deriving DecidableEq, Repr

/-- `map_db_denial`. -/
def mapDbDenial : CacheError → CacheError
  | .pglite sqlstate message =>
    if ["42501", "42704", "28000"].contains sqlstate then
      .forbidden (pgliteDisplay sqlstate message)
    else .pglite sqlstate message
  | error => error

namespace SqlOperations

/-- The query of `deny_owner_roles`. -/
def ownerRolesText : String :=
  "SELECT rolsuper::int, rolbypassrls::int, " ++
    "(pg_has_role(rolname, (SELECT datdba FROM pg_database " ++
                           "WHERE datname = current_database()), 'member'))::int " ++
    "FROM pg_roles WHERE rolname = $1"

/-- `row.get::<i32>(i)`. -/
def getFlag (row : DbRow) (i : Nat) : Except CacheError Int := do
  match ← getInt row i with
  | some n => return n
  | none => throw columnError

/-- What `deny_owner_roles` makes of the rows. -/
def denyOwnerRow (rows : List DbRow) : Except CacheError Unit := do
  match rows.head? with
  | none => return
  | some row =>
    if (← getFlag row 0) == 1 then throw (.forbidden
      "public SQL never executes as a superuser role")
    if (← getFlag row 1) == 1 then throw (.forbidden
      "public SQL never executes as a role that bypasses row-level security")
    if (← getFlag row 2) == 1 then throw (.forbidden
      "public SQL never executes as the database owner or a member of it")

/-- `deny_owner_roles`. -/
def denyOwnerRoles (role : String) : Db Unit := do
  if role == "postgres" then throw (.forbidden
    "public SQL never executes as the engine owner")
  let rows ← Db.perform (.query ownerRolesText [.string role])
  Db.orError (denyOwnerRow rows)

/-- What `execute` hands to `run_sql_as` with the text. -/
structure Admitted where
  validated : ValidatedSql
  role : String
  claims : Option String
  deriving DecidableEq, Repr

/-- `execute`, up to the call of `run_sql_as`. -/
def acceptRequest (crates : SqlCrates) (self : SqlOperations) (sql : String)
    (principal : Option Principal) : Db Admitted := do
  let validated ← Db.orError (validateOneStatement crates sql MAX_SQL_BYTES)
  let role := (principal.map Principal.role).getD self.publicRole
  let claims := principal.map Principal.claimsJson
  denyOwnerRoles role
  if self.readOnly && validated.command != "SELECT" then throw (.rejected
    ("this node serves a read replica; only SELECT may execute here — send writes " ++
      "to the primary data node"))
  return ⟨validated, role, claims⟩

/-- `execute`. -/
def execute (crates : SqlCrates) (self : SqlOperations) (sql : String) (params : List Json)
    (principal : Option Principal) (headers : Option String) : Db SqlOutcome := do
  let admitted ← acceptRequest crates self sql principal
  let outcome ← (runSqlAs crates admitted.role admitted.claims headers admitted.validated sql
    params MAX_RESULT_BYTES).adapt mapDbDenial
  return ⟨admitted.validated.command, outcome.rowsJson, outcome.rowsAffected⟩

end SqlOperations

end PgPaw
