/-
# `source/`: what is read from, opened and put together

`build_read_core`, for a primary and for a replica: the calls it makes and what it gives back when
one of them fails.  What it hands on to the read operations is made of what `scan_schema` read.
-/
import PgPaw.Db.Lifecycle

namespace PgPaw.Lifecycle

open Program

/-! ## 1. `scan_schema` -/

/-- The tables, the primary keys of one column, and the tables of `REPLICA IDENTITY FULL`. -/
structure Scan where
  tables : List String
  pk : List (String × String)
  full : List String

def tablesQuery : String :=
  "select tablename from pg_tables where schemaname not in ('pg_catalog', 'information_schema')"

def primaryKeysQuery : String :=
  "select tc.table_name, kcu.column_name from information_schema.table_constraints tc " ++
  "join information_schema.key_column_usage kcu on kcu.constraint_name = tc.constraint_name " ++
  "and kcu.table_schema = tc.table_schema where tc.constraint_type = 'PRIMARY KEY' " ++
  "and tc.table_schema not in ('pg_catalog', 'information_schema')"

def replicaIdentityQuery : String :=
  "select c.relname from pg_class c join pg_namespace n on n.oid = c.relnamespace " ++
  "where c.relkind = 'r' and c.relreplident = 'f' " ++
  "and n.nspname not in ('pg_catalog', 'information_schema')"

/-- The column of the keys of one column. -/
def singleColumn (columns : List (String × String)) (table : String) : Option (String × String) :=
  match columns.filter (·.1 = table) with
  | [(_, column)] => some (table, column)
  | _ => none

/-- `scan_schema`. -/
def scanSchema (db : Nat) : Life Scan := do
  let tableRows ← Life.call (.query db tablesQuery) .pglite
  let names ← Life.orError (tableRows.rows.mapM fun row => (row 0).mapError .pglite)
  let keyRows ← Life.call (.query db primaryKeysQuery) .pglite
  let columns ← Life.orError (keyRows.rows.mapM fun row => do
    return (toAsciiLowercase (← (row 0).mapError .pglite), ← (row 1).mapError .pglite))
  let fullRows ← Life.call (.query db replicaIdentityQuery) .pglite
  let full ← Life.orError (fullRows.rows.mapM fun row => (row 0).mapError .pglite)
  return {
    tables := ((names.filter (· != "_pglite_replica")).map toAsciiLowercase).dedup
    pk := (columns.map Prod.fst).dedup.filterMap (singleColumn columns)
    full := (full.map toAsciiLowercase).dedup }

/-! ## 2. `build_read_core` -/

/-- What `shutdown` finds: `SourceShutdown`. -/
inductive SourceShutdown
  | replica (replica : Nat)
  | primary (observer : String × Nat)

/-- What is built. -/
structure Core where
  scan : Scan
  db : Nat
  dsn : Option String
  state : SourceShutdown

/-- The role of those who bring no token, and the setting for the headers. -/
def publicRole : String :=
  "DO $$ BEGIN " ++
    "IF NOT EXISTS (SELECT 1 FROM pg_roles WHERE rolname = 'pgpaw_public') THEN " ++
      "CREATE ROLE pgpaw_public NOLOGIN NOBYPASSRLS; " ++
    "END IF; " ++
  "END $$; " ++
  "GRANT USAGE ON SCHEMA public TO pgpaw_public; " ++
  "GRANT SELECT, INSERT, UPDATE, DELETE ON ALL TABLES IN SCHEMA public TO pgpaw_public; " ++
  "GRANT USAGE, SELECT ON ALL SEQUENCES IN SCHEMA public TO pgpaw_public; " ++
  "ALTER DEFAULT PRIVILEGES IN SCHEMA public " ++
    "GRANT SELECT, INSERT, UPDATE, DELETE ON TABLES TO pgpaw_public; " ++
  "ALTER DEFAULT PRIVILEGES IN SCHEMA public " ++
    "GRANT USAGE, SELECT ON SEQUENCES TO pgpaw_public; " ++
  "DO $$ BEGIN " ++
    "EXECUTE format('ALTER DATABASE %I SET request.headers = %L', " ++
                   "current_database(), '\x7b\x7d'); " ++
  "END $$"

section Build

-- `std::process::id()`, and whether `into_verifier` finds the configuration in order
variable (pid : Nat) (verifier : Except CacheError Unit)

/-- The `assembled` block of a primary. -/
def assemblePrimary (db : Nat) : Life (Scan × (String × Nat)) := do
  discard (Life.call (.exec db publicRole) .pglite)
  let scan ← scanSchema db
  discard (Life.call .spawn .io)
  Life.orError (verifier.mapError .cache)
  let observer ← startObserver db pid scan.tables
  return (scan, observer)

/-- `build_primary_core`. -/
def buildPrimaryCore (source : EmbeddedPrimarySource) : Life Core := do
  let (db, dsn) ← openPrimaryDb source
  match ← Life.attempt (assemblePrimary pid verifier db) with
  | .ok (scan, observer) => return ⟨scan, db, some dsn, .primary observer⟩
  | .error error =>
    Life.ignore (.close db)
    throw error

/-- The `assembled` block of a replica. -/
def assembleReplica (db : Nat) : Life Scan := do
  let scan ← scanSchema db
  discard (Life.call .spawn .io)
  Life.orError (verifier.mapError .cache)
  return scan

/-- The failure of `preflight`: its own, or the upstream's. -/
def preflightError (fault : Fault) : OpenError :=
  if fault.kind == .upstream then .upstream fault else .cache (.config fault.message)

/-- `build_replica_core`. -/
def buildReplicaCore : Life Core := do
  discard (Life.call .preflight preflightError)
  let db := (← Life.call (.openMultiProcess none) .pglite).handle
  match ← Life.attempt (Life.call (.startReplica db) .pglite) with
  | .error error =>
    Life.ignore (.shutdown db)
    throw error
  | .ok started =>
    let replica := started.handle
    match ← Life.attempt (assembleReplica verifier db) with
    | .ok scan => return ⟨scan, db, none, .replica replica⟩
    | .error error =>
      Life.ignore (.stopReplica replica)
      Life.ignore (.shutdown db)
      throw error

/-- `PgSource`; where a replica follows goes to `preflight` and to the engine as it is. -/
inductive PgSource
  | replica
  | primary (source : EmbeddedPrimarySource)

/-- `build_read_core`. -/
def buildReadCore : PgSource → Life Core
  | .replica => buildReplicaCore verifier
  | .primary source => buildPrimaryCore pid verifier source

end Build

/-! ## 3. What they own -/

/-- What a source holds besides its database. -/
def SourceShutdown.owned : SourceShutdown → Multiset Handle
  | .replica r => {.replica r}
  | .primary observer => {.listener observer.2}

def Core.owned (core : Core) : Multiset Handle := {.database core.db} + core.state.owned

theorem borrows_scanSchema (db : Nat) : handles.Borrows {.database db} (scanSchema db) := by
  unfold scanSchema
  refine Ownership.Borrows.bind (borrows_call le_rfl rfl fun _ => rfl) fun tableRows => ?_
  refine Ownership.Borrows.bind (borrows_orError _) fun names => ?_
  refine Ownership.Borrows.bind (borrows_call le_rfl rfl fun _ => rfl) fun keyRows => ?_
  refine Ownership.Borrows.bind (borrows_orError _) fun columns => ?_
  refine Ownership.Borrows.bind (borrows_call le_rfl rfl fun _ => rfl) fun fullRows => ?_
  exact Ownership.Borrows.bind (borrows_orError _) fun full => .pure _

variable {pid : Nat} {verifier : Except CacheError Unit}

theorem leaves_assemblePrimary (db : Nat) :
    handles.Leaves {.database db} (assemblePrimary pid verifier db)
      (fun assembled => {.database db} + {.listener assembled.2.2}) {.database db} := by
  have hgrants : handles.Borrows {.database db}
      (discard (Life.call (.exec db publicRole) .pglite)) :=
    Ownership.Borrows.discard (borrows_call le_rfl rfl fun _ => rfl)
  have hspawn : handles.Borrows 0 (discard (Life.call .spawn .io)) :=
    Ownership.Borrows.discard (borrows_call le_rfl rfl fun _ => rfl)
  unfold assemblePrimary
  refine Ownership.Leaves.bind (hgrants _ le_rfl) fun _ => ?_
  refine Ownership.Leaves.bind (borrows_scanSchema db _ le_rfl) fun scan => ?_
  refine Ownership.Leaves.bind (hspawn _ (Multiset.zero_le _)) fun _ => ?_
  refine Ownership.Leaves.bind (borrows_orError _ _ (Multiset.zero_le _)) fun _ => ?_
  exact Ownership.Leaves.bind (leaves_startObserver db pid scan.tables) fun _ =>
    Ownership.Leaves.pure rfl

theorem leaves_buildPrimaryCore (source : EmbeddedPrimarySource) :
    handles.Leaves 0 (buildPrimaryCore pid verifier source) Core.owned 0 := by
  unfold buildPrimaryCore
  refine Ownership.Leaves.bind (leaves_openPrimaryDb source) fun opened => ?_
  refine Ownership.Leaves.bind (leaves_attempt (leaves_assemblePrimary opened.1))
    fun result => ?_
  split
  · exact Ownership.Leaves.pure rfl
  · exact Ownership.Leaves.bind (leaves_ignore le_rfl (zero_add _).symm rfl fun _ => rfl)
      fun _ => Ownership.Leaves.throw rfl

theorem borrows_assembleReplica (db : Nat) :
    handles.Borrows {.database db} (assembleReplica verifier db) := by
  have hspawn : handles.Borrows 0 (discard (Life.call .spawn .io)) :=
    Ownership.Borrows.discard (borrows_call le_rfl rfl fun _ => rfl)
  unfold assembleReplica
  refine Ownership.Borrows.bind (borrows_scanSchema db) fun scan => ?_
  refine Ownership.Borrows.bind (hspawn.mono (Multiset.zero_le _)) fun _ => ?_
  exact Ownership.Borrows.bind (borrows_orError _) fun _ => .pure _

theorem leaves_buildReplicaCore :
    handles.Leaves 0 (buildReplicaCore verifier) Core.owned 0 := by
  have hpreflight : handles.Borrows 0 (discard (Life.call .preflight preflightError)) :=
    Ownership.Borrows.discard (borrows_call le_rfl rfl fun _ => rfl)
  unfold buildReplicaCore
  refine Ownership.Leaves.bind (hpreflight _ le_rfl) fun _ => ?_
  refine Ownership.Leaves.bind (leaves_acquire le_rfl rfl) fun opened => ?_
  rw [zero_add]
  refine Ownership.Leaves.bind (leaves_attempt (leaves_acquire le_rfl rfl)) fun result => ?_
  split
  · exact Ownership.Leaves.bind (leaves_ignore le_rfl (zero_add _).symm rfl fun _ => rfl)
      fun _ => Ownership.Leaves.throw rfl
  refine Ownership.Leaves.bind (leaves_attempt (borrows_assembleReplica opened.handle _
    (Multiset.le_add_right _ _))) fun assembled => ?_
  split
  · exact Ownership.Leaves.pure rfl
  · refine Ownership.Leaves.bind (leaves_ignore (Multiset.le_add_left _ _) rfl rfl fun _ => rfl)
      fun _ => ?_
    exact Ownership.Leaves.bind (leaves_ignore le_rfl (zero_add _).symm rfl fun _ => rfl)
      fun _ => Ownership.Leaves.throw rfl

/-- **`build_read_core` leaves what it built, or nothing.** -/
theorem leaves_buildReadCore (source : PgSource) :
    handles.Leaves 0 (buildReadCore pid verifier source) Core.owned 0 := by
  cases source with
  | replica => exact leaves_buildReplicaCore
  | primary source => exact leaves_buildPrimaryCore source

end PgPaw.Lifecycle
