/-
# `schema/mod.rs`: applying the migrations

`apply_migrations` goes through the chains and their files.  A file that is in the ledger has to
be unchanged; any other is executed and recorded, in one transaction.  A chain is refused when
the ledger has a file that it lacks.

The ledger knows a file by the world, the app and the filename.  What the SQL of a migration
does to the tables is a parameter; the two ledgers are the runner's own.
-/
import PgPaw.Lib.Loop
import PgPaw.Schema.Discover

namespace PgPaw.Schema

open Sql
open Loop (each)

/-! ## 1. Destructive migrations -/

/-- What `schema/mod.rs` calls outside the repository. -/
structure SchemaCrates where
  /-- `Parser::parse_sql(&PostgreSqlDialect {}, sql)`. -/
  parse : String → Option (List SqlStatement)
  /-- `str::to_lowercase`. -/
  toLowercase : String → String

/-- `str::contains`. -/
def contains (text part : String) : Bool :=
  text.toList.tails.any fun rest => part.toList.isPrefixOf rest

/-- `DESTRUCTIVE_ACK`. -/
def DESTRUCTIVE_ACK : String := "pgpaw: acknowledge-destructive"

def isDestructive : SqlStatement → Bool
  | .drop .table | .truncate => true
  | .alterTable operations => operations.contains .dropColumn
  | _ => false

/-- `check_destructive_acknowledged`. -/
def checkDestructiveAcknowledged (crates : SchemaCrates) (relDir : List String)
    (file : MigrationFile) : Except CacheError Unit :=
  let lowered := crates.toLowercase file.sql
  let destructive := match crates.parse file.sql with
    | some statements => statements.any isDestructive
    | none => contains lowered "drop table" || contains lowered "drop column" ||
        contains lowered "truncate "
  if destructive && !contains lowered DESTRUCTIVE_ACK then .error (.rejected
    (display relDir ++ "/" ++ file.filename ++
      " contains a destructive contraction (DROP TABLE / DROP COLUMN / TRUNCATE); " ++
      "schema evolution is expand/contract — confirm every run and snapshot depending on " ++
      "the prior schema has retired, then acknowledge by adding the comment " ++
      "`-- " ++ DESTRUCTIVE_ACK ++ "` to this migration file"))
  else .ok ()

/-! ## 2. The database -/

/-- What PostgreSQL does with the SQL of a migration, or the text of its error. -/
structure Postgres (σ : Type) where
  exec : String → σ → Except String σ
  /-- `reflected_table_names`. -/
  tableNames : σ → List String

/-- A row of `pgpaw_applied_migrations`. -/
structure LedgerRow where
  worldId : String
  app : String
  filename : String
  checksum : String
  deriving DecidableEq, Repr

/-- A migration that was executed, and committed. -/
structure Execution where
  app : String
  relDir : List String
  file : MigrationFile
  deriving DecidableEq, Repr

/-- The tables of the apps, the two ledgers, and the migrations that were executed. -/
structure Db (σ : Type) where
  tables : σ
  ledger : List LedgerRow
  /-- `pgpaw_app_schemas`, by world and app. -/
  schemas : List ((String × String) × List String)
  executed : List Execution

namespace Db

variable {σ : Type}

/-- The rows of an app. -/
def recorded (db : Db σ) (worldId app : String) : List LedgerRow :=
  db.ledger.filter fun row => row.worldId == worldId && row.app == app

/-- The checksum a file was applied with. -/
def existing (db : Db σ) (worldId app filename : String) : Option String :=
  ((db.recorded worldId app).find? fun row => row.filename == filename).map LedgerRow.checksum

/-- A migration is executed, and recorded. -/
def commit (db : Db σ) (worldId : String) (chain : AppChain) (file : MigrationFile) (tables : σ) :
    Db σ :=
  { db with
    tables
    ledger := db.ledger ++ [⟨worldId, chain.app, file.filename, file.checksum⟩]
    executed := db.executed ++ [⟨chain.app, chain.relDir, file⟩] }

/-- `INSERT INTO pgpaw_app_schemas .. ON CONFLICT DO UPDATE`. -/
def recordSchema (db : Db σ) (worldId app : String) (names : List String) : Db σ :=
  { db with
    schemas := ((worldId, app), names) :: db.schemas.filter fun row => row.1 != (worldId, app) }

end Db

/-- `AppliedReport`. -/
structure AppliedReport where
  applied : List (String × String)
  alreadyApplied : Nat
  deriving DecidableEq, Repr

/-- The database and the report, during a run. -/
structure Run (σ : Type) where
  db : Db σ
  report : AppliedReport

/-! ## 3. `apply_migrations` -/

section Apply

variable {σ : Type} (pg : Postgres σ) (crates : SchemaCrates) (worldId : String)

/-- The loop over the ledger: a file that is applied and not in the chain. -/
def missingFile (chain : AppChain) (rows : List LedgerRow) : Option String :=
  (rows.map LedgerRow.filename).find? fun filename =>
    !chain.files.any fun file => file.filename == filename

/-- The body of the loop over the files. -/
def applyFile (chain : AppChain) (file : MigrationFile) (run : Run σ) :
    Except CacheError Unit × Run σ :=
  let path := display chain.relDir ++ "/" ++ file.filename
  match run.db.existing worldId chain.app file.filename with
  | some checksum =>
    if checksum != file.checksum then (.error (.rejected
      (path ++ " changed after it was applied (checksum " ++ file.checksum ++ " vs " ++ checksum ++
        "); migrations are immutable once applied")), run)
    else (.ok (), { run with report.alreadyApplied := run.report.alreadyApplied + 1 })
  | none => match checkDestructiveAcknowledged crates chain.relDir file with
    | .error e => (.error e, run)
    | .ok () => match pg.exec file.sql run.db.tables with
      | .error message => (.error (.rejected (path ++ ": " ++ message)), run)
      | .ok tables => (.ok (), { run with
          db := run.db.commit worldId chain file tables
          report.applied := run.report.applied ++ [(chain.app, file.filename)] })

/-- The body of the loop over the chains. -/
def applyChain (chain : AppChain) (run : Run σ) : Except CacheError Unit × Run σ :=
  let rows := (run.db.recorded worldId chain.app).insertionSort (¬ ·.filename > ·.filename)
  match missingFile chain rows with
  | some filename => (.error (.rejected
      (display chain.relDir ++ "/" ++ filename ++
        " is applied but missing on disk (renamed or deleted); " ++
        "applied statements never re-execute — restore the file")), run)
  | none => match each (applyFile pg crates worldId chain) chain.files run with
    | (.error e, run) => (.error e, run)
    | (.ok (), run) => (.ok (), { run with
        db := run.db.recordSchema worldId chain.app (pg.tableNames run.db.tables) })

/-- `apply_migrations`. -/
def applyMigrations (chains : List AppChain) (db : Db σ) : Except CacheError AppliedReport × Db σ :=
  match each (applyChain pg crates worldId) chains ⟨db, [], 0⟩ with
  | (.error e, run) => (.error e, run.db)
  | (.ok (), run) => (.ok run.report, run.db)

end Apply

/-! ## 4. What a run does -/

/-- Texts executed one after the other. -/
def Executes {σ : Type} (pg : Postgres σ) : List String → σ → σ → Prop
  | [], tables, tables' => tables = tables'
  | sql :: rest, tables, tables' => ∃ next, pg.exec sql tables = .ok next ∧
      Executes pg rest next tables'

theorem executes_append {σ : Type} {pg : Postgres σ} {xs ys : List String} {tables tables' : σ} :
    Executes pg (xs ++ ys) tables tables' ↔
      ∃ next, Executes pg xs tables next ∧ Executes pg ys next tables' := by
  induction xs generalizing tables with
  | nil => simp [Executes]
  | cons sql xs ih =>
    simp only [List.cons_append, Executes, ih]
    constructor
    · rintro ⟨t, ht, u, hu, h⟩
      exact ⟨u, ⟨t, ht, hu⟩, h⟩
    · rintro ⟨u, ⟨t, ht, hu⟩, h⟩
      exact ⟨t, ht, u, hu, h⟩

section Results

variable {σ : Type} {pg : Postgres σ} {crates : SchemaCrates} {worldId : String}
  {chain : AppChain} {db db' : Db σ} {run run' : Run σ} {app filename : String}

/-- The files of a chain that are not in the ledger. -/
def Db.pending (db : Db σ) (worldId app : String) (files : List MigrationFile) :
    List MigrationFile :=
  files.filter fun file => (db.existing worldId app file.filename).isNone

theorem existing_eq_none :
    db.existing worldId app filename = none ↔
      filename ∉ (db.recorded worldId app).map LedgerRow.filename := by
  simp [Db.existing]

/-- A recorded file has the checksum of one of its rows. -/
theorem exists_row {checksum : String} (h : db.existing worldId app filename = some checksum) :
    ⟨worldId, app, filename, checksum⟩ ∈ db.ledger := by
  obtain ⟨row, hrow, rfl⟩ := Option.map_eq_some_iff.mp h
  have hmem := List.mem_of_find?_eq_some hrow
  have hname := List.find?_some hrow
  simp only [Db.recorded, List.mem_filter, Bool.and_eq_true, beq_iff_eq] at hmem hname
  obtain ⟨hledger, rfl, rfl⟩ := hmem
  subst hname
  exact hledger

/-- The rows after those of some files. -/
theorem recorded_append (db' : Db σ) (files : List MigrationFile) (chain : AppChain) (app : String)
    {ledger : List LedgerRow} (h : db'.ledger = ledger ++ files.map fun file =>
      ⟨worldId, chain.app, file.filename, file.checksum⟩) :
    db'.recorded worldId app =
      (ledger.filter fun row => row.worldId == worldId && row.app == app) ++
        if chain.app = app then files.map fun file =>
          ⟨worldId, chain.app, file.filename, file.checksum⟩ else [] := by
  rw [Db.recorded, h, List.filter_append]
  congr 1
  split
  · rename_i happ
    rw [List.filter_eq_self]
    intro row hrow
    obtain ⟨file, -, rfl⟩ := List.mem_map.mp hrow
    simp [happ]
  · rename_i happ
    rw [List.filter_eq_nil_iff]
    intro row hrow
    obtain ⟨file, -, rfl⟩ := List.mem_map.mp hrow
    simp [happ]

/-- Recording a file does not touch the others. -/
theorem existing_commit {file : MigrationFile} {tables : σ} (h : filename ≠ file.filename) :
    (db.commit worldId chain file tables).existing worldId app filename =
      db.existing worldId app filename := by
  have hrows := recorded_append (db.commit worldId chain file tables) [file] chain app rfl
  rw [Db.existing, hrows, List.find?_append, Db.existing]
  have hnew : (if chain.app = app then
      [file].map fun file => (⟨worldId, chain.app, file.filename, file.checksum⟩ : LedgerRow)
      else []).find? (fun row => row.filename == filename) = none := by
    split
    · simp [Ne.symm h]
    · rfl
  rw [hnew, Option.or_none]
  rfl

/-- The state after the files of a chain. -/
def Run.after (run : Run σ) (worldId : String) (chain : AppChain) (files : List MigrationFile)
    (tables : σ) : Run σ :=
  let pending := run.db.pending worldId chain.app files
  { db := { run.db with
      tables
      ledger := run.db.ledger ++ pending.map fun file =>
        ⟨worldId, chain.app, file.filename, file.checksum⟩
      executed := run.db.executed ++ pending.map fun file => ⟨chain.app, chain.relDir, file⟩ }
    report :=
      ⟨run.report.applied ++ pending.map fun file => (chain.app, file.filename),
        run.report.alreadyApplied + (files.length - pending.length)⟩ }

/-- A file that is recorded. -/
theorem applyFile_recorded {file : MigrationFile} {checksum : String}
    (h : run.db.existing worldId chain.app file.filename = some checksum) :
    applyFile pg crates worldId chain file run = (.ok (), run') ↔ checksum = file.checksum ∧
      run' = { run with report.alreadyApplied := run.report.alreadyApplied + 1 } := by
  simp only [applyFile, h]
  by_cases hsum : checksum = file.checksum
  · simp [hsum, eq_comm]
  · simp [hsum]

/-- A file that is not. -/
theorem applyFile_pending {file : MigrationFile}
    (h : run.db.existing worldId chain.app file.filename = none) :
    applyFile pg crates worldId chain file run = (.ok (), run') ↔
      checkDestructiveAcknowledged crates chain.relDir file = .ok () ∧
        ∃ tables, pg.exec file.sql run.db.tables = .ok tables ∧ run' = { run with
          db := run.db.commit worldId chain file tables
          report.applied := run.report.applied ++ [(chain.app, file.filename)] } := by
  simp only [applyFile, h]
  cases checkDestructiveAcknowledged crates chain.relDir file with
  | error e => simp
  | ok u => cases pg.exec file.sql run.db.tables <;> simp [eq_comm]

/-- A file that is recorded is not pending. -/
theorem pending_cons_recorded {file : MigrationFile} {files : List MigrationFile}
    {checksum : String} (h : db.existing worldId app file.filename = some checksum) :
    db.pending worldId app (file :: files) = db.pending worldId app files := by
  simp [Db.pending, h]

theorem pending_cons {file : MigrationFile} {files : List MigrationFile}
    (h : db.existing worldId app file.filename = none) :
    db.pending worldId app (file :: files) = file :: db.pending worldId app files := by
  simp [Db.pending, h]

theorem length_pending_le (db : Db σ) (worldId app : String) (files : List MigrationFile) :
    (db.pending worldId app files).length ≤ files.length := List.length_filter_le _ _

/-- A file among others of different names, recorded. -/
theorem pending_commit {file : MigrationFile} {files : List MigrationFile} {tables : σ}
    (h : file.filename ∉ files.map MigrationFile.filename) :
    (db.commit worldId chain file tables).pending worldId app files =
      db.pending worldId app files := by
  refine List.filter_congr ?_
  intro other hother
  rw [existing_commit]
  rintro hname
  exact h (List.mem_map.mpr ⟨other, hother, hname⟩)

/-- **The loop over the files of a chain.** -/
theorem applyFiles_iff : ∀ {files : List MigrationFile} {run : Run σ},
    (files.map MigrationFile.filename).Nodup →
    (each (applyFile pg crates worldId chain) files run = (.ok (), run') ↔
      (∀ file ∈ files, ∀ checksum, run.db.existing worldId chain.app file.filename = some checksum →
        checksum = file.checksum) ∧
      (∀ file ∈ run.db.pending worldId chain.app files,
        checkDestructiveAcknowledged crates chain.relDir file = .ok ()) ∧
      ∃ tables, Executes pg ((run.db.pending worldId chain.app files).map MigrationFile.sql)
        run.db.tables tables ∧ run' = run.after worldId chain files tables)
  | [], run, _ => by
    simp [each, Db.pending, Run.after, Executes, eq_comm]
  | file :: files, run, hnodup => by
    rw [List.map_cons, List.nodup_cons] at hnodup
    obtain ⟨hfresh, hnodup⟩ := hnodup
    rw [Loop.each_cons_ok]
    cases hfile : run.db.existing worldId chain.app file.filename with
    | some checksum =>
      simp only [applyFile_recorded hfile, List.forall_mem_cons, pending_cons_recorded hfile, hfile,
        Option.some.injEq, forall_eq']
      have hlen := length_pending_le run.db worldId chain.app files
      have hafter : ∀ tables, run.after worldId chain (file :: files) tables =
          Run.after { run with report.alreadyApplied := run.report.alreadyApplied + 1 } worldId
            chain files tables := by
        intro tables
        simp only [Run.after, pending_cons_recorded hfile, List.length_cons]
        congr 2
        omega
      simp only [hafter]
      constructor
      · rintro ⟨t, ⟨hsum, rfl⟩, hrest⟩
        obtain ⟨hsums, hcheck, tables, hexec, hrun⟩ := (applyFiles_iff hnodup).mp hrest
        exact ⟨⟨hsum, hsums⟩, hcheck, tables, hexec, hrun⟩
      · rintro ⟨⟨hsum, hsums⟩, hcheck, tables, hexec, hrun⟩
        exact ⟨_, ⟨hsum, rfl⟩, (applyFiles_iff hnodup).mpr ⟨hsums, hcheck, tables, hexec, hrun⟩⟩
    | none =>
      simp only [applyFile_pending hfile, List.forall_mem_cons, pending_cons hfile, hfile,
        List.map_cons, Executes]
      have hother : ∀ tables, ∀ other ∈ files,
          (run.db.commit worldId chain file tables).existing worldId chain.app other.filename =
            run.db.existing worldId chain.app other.filename := by
        intro tables other hother
        refine existing_commit ?_
        intro hname
        exact hfresh (List.mem_map.mpr ⟨other, hother, hname⟩)
      have hafter : ∀ next tables, run.after worldId chain (file :: files) tables =
          Run.after { run with
            db := run.db.commit worldId chain file next
            report.applied := run.report.applied ++ [(chain.app, file.filename)] } worldId chain
              files tables := by
        intro next tables
        simp only [Run.after, pending_cons hfile, pending_commit hfresh]
        simp only [Db.commit, List.map_cons, List.append_assoc, List.singleton_append,
          List.length_cons, Nat.add_sub_add_right]
      constructor
      · rintro ⟨t, ⟨hcheck, next, hnext, rfl⟩, hrest⟩
        obtain ⟨hsums, hchecks, tables, hexec, hrun⟩ := (applyFiles_iff hnodup).mp hrest
        rw [pending_commit hfresh] at hchecks hexec
        refine ⟨⟨fun _ he => (by cases he), fun other ho => ?_⟩, ⟨hcheck, hchecks⟩, tables,
          ⟨next, hnext, hexec⟩, hrun.trans (hafter next tables).symm⟩
        rw [← hother next other ho]
        exact hsums other ho
      · rintro ⟨⟨-, hsums⟩, ⟨hcheck, hchecks⟩, tables, ⟨next, hnext, hexec⟩, hrun⟩
        refine ⟨_, ⟨hcheck, next, hnext, rfl⟩, (applyFiles_iff hnodup).mpr ⟨fun other ho => ?_, ?_,
          tables, ?_, hrun.trans (hafter next tables)⟩⟩
        · rw [hother next other ho]
          exact hsums other ho
        · rw [pending_commit hfresh]
          exact hchecks
        · rw [pending_commit hfresh]
          exact hexec

/-- The chain lacks no file of the ledger. -/
theorem missingFile_eq_none {rows : List LedgerRow} : missingFile chain rows = none ↔
    ∀ row ∈ rows, row.filename ∈ chain.files.map MigrationFile.filename := by
  simp [missingFile]

/-- **What a chain does when it is applied.** -/
theorem applyChain_iff (hnodup : (chain.files.map MigrationFile.filename).Nodup) :
    applyChain pg crates worldId chain run = (.ok (), run') ↔
      (∀ row ∈ run.db.recorded worldId chain.app,
        row.filename ∈ chain.files.map MigrationFile.filename) ∧
      (∀ file ∈ chain.files, ∀ checksum,
        run.db.existing worldId chain.app file.filename = some checksum →
          checksum = file.checksum) ∧
      (∀ file ∈ run.db.pending worldId chain.app chain.files,
        checkDestructiveAcknowledged crates chain.relDir file = .ok ()) ∧
      ∃ tables, Executes pg
          ((run.db.pending worldId chain.app chain.files).map MigrationFile.sql)
          run.db.tables tables ∧
        run' = { run.after worldId chain chain.files tables with
          db := (run.after worldId chain chain.files tables).db.recordSchema worldId chain.app
            (pg.tableNames tables) } := by
  have hmissing : missingFile chain ((run.db.recorded worldId chain.app).insertionSort
      (¬ ·.filename > ·.filename)) = none ↔ ∀ row ∈ run.db.recorded worldId chain.app,
        row.filename ∈ chain.files.map MigrationFile.filename := by
    simp only [missingFile_eq_none, List.mem_insertionSort]
  simp only [applyChain]
  constructor
  · intro h
    split at h
    · cases h
    rename_i hnone
    refine ⟨hmissing.mp hnone, ?_⟩
    split at h
    · cases h
    rename_i next hfiles
    obtain ⟨hsums, hchecks, tables, hexec, rfl⟩ := (applyFiles_iff hnodup).mp hfiles
    cases h
    exact ⟨hsums, hchecks, tables, hexec, rfl⟩
  · rintro ⟨hrows, hsums, hchecks, tables, hexec, rfl⟩
    simp only [hmissing.mpr hrows,
      (applyFiles_iff hnodup).mpr ⟨hsums, hchecks, tables, hexec, rfl⟩]
    rfl

/-! ## 5. The ledger and what was executed -/

/-- The row of an execution. -/
def Execution.row (worldId : String) (e : Execution) : LedgerRow :=
  ⟨worldId, e.app, e.file.filename, e.file.checksum⟩

/-- What the ledger knows an execution by. -/
def Execution.key (e : Execution) : String × String := (e.app, e.file.filename)

/-- **The ledger is what was executed**, and nothing was executed twice under one name. -/
structure Ledgered (worldId : String) (db : Db σ) : Prop where
  ledger : db.ledger = db.executed.map (Execution.row worldId)
  nodup : (db.executed.map Execution.key).Nodup

/-- Nothing was applied yet. -/
def Db.start (tables : σ) (schemas : List ((String × String) × List String)) : Db σ :=
  ⟨tables, [], schemas, []⟩

theorem ledgered_start (worldId : String) (tables : σ)
    (schemas : List ((String × String) × List String)) :
    Ledgered worldId (Db.start tables schemas) :=
  ⟨rfl, List.nodup_nil⟩

/-- The rows of an app are those of its executions. -/
theorem Ledgered.mem_recorded (h : Ledgered worldId db) {row : LedgerRow} :
    row ∈ db.recorded worldId app ↔ ∃ e ∈ db.executed, e.app = app ∧ row = e.row worldId := by
  simp only [Db.recorded, h.ledger, List.mem_filter, List.mem_map, Bool.and_eq_true, beq_iff_eq]
  constructor
  · rintro ⟨⟨e, he, rfl⟩, -, happ⟩
    exact ⟨e, he, happ, rfl⟩
  · rintro ⟨e, he, rfl, rfl⟩
    exact ⟨⟨e, he, rfl⟩, rfl, rfl⟩

/-- A file is not in the ledger when nothing was executed under its name. -/
theorem Ledgered.existing_eq_none (h : Ledgered worldId db) :
    db.existing worldId app filename = none ↔ (app, filename) ∉ db.executed.map Execution.key := by
  rw [Schema.existing_eq_none, not_iff_not, List.mem_map, List.mem_map]
  constructor
  · rintro ⟨row, hrow, rfl⟩
    obtain ⟨e, he, rfl, rfl⟩ := h.mem_recorded.mp hrow
    exact ⟨e, he, rfl⟩
  · rintro ⟨e, he, hkey⟩
    cases hkey
    exact ⟨e.row worldId, h.mem_recorded.mpr ⟨e, he, rfl, rfl⟩, rfl⟩

/-- A file of the ledger was executed under its name, with this checksum. -/
theorem Ledgered.exists_execution (h : Ledgered worldId db) {checksum : String}
    (hexisting : db.existing worldId app filename = some checksum) :
    ∃ e ∈ db.executed, e.app = app ∧ e.file.filename = filename ∧ e.file.checksum = checksum := by
  have hrow := exists_row hexisting
  rw [h.ledger, List.mem_map] at hrow
  obtain ⟨e, he, hrow⟩ := hrow
  cases hrow
  exact ⟨e, he, rfl, rfl, rfl⟩

/-- The executions of a chain. -/
def AppChain.executions (chain : AppChain) (files : List MigrationFile) : List Execution :=
  files.map fun file => ⟨chain.app, chain.relDir, file⟩

theorem mem_executions {files : List MigrationFile} {e : Execution} :
    e ∈ chain.executions files ↔ e.app = chain.app ∧ e.relDir = chain.relDir ∧ e.file ∈ files := by
  simp only [AppChain.executions, List.mem_map]
  constructor
  · rintro ⟨file, hfile, rfl⟩
    exact ⟨rfl, rfl, hfile⟩
  · rintro ⟨happ, hrel, hfile⟩
    exact ⟨e.file, hfile, by rw [← happ, ← hrel]⟩

/-- **What a chain adds to what was executed.** -/
theorem executed_applyChain (hnodup : (chain.files.map MigrationFile.filename).Nodup)
    (h : applyChain pg crates worldId chain run = (.ok (), run')) :
    run'.db.executed =
      run.db.executed ++ chain.executions (run.db.pending worldId chain.app chain.files) := by
  obtain ⟨-, -, -, tables, -, rfl⟩ := (applyChain_iff hnodup).mp h
  rfl

theorem Ledgered.applyChain (hnodup : (chain.files.map MigrationFile.filename).Nodup)
    (hledgered : Ledgered worldId run.db)
    (h : Schema.applyChain pg crates worldId chain run = (.ok (), run')) :
    Ledgered worldId run'.db := by
  refine ⟨?_, ?_⟩
  · obtain ⟨-, -, -, tables, -, rfl⟩ := (applyChain_iff hnodup).mp h
    show run.db.ledger ++ _ = (run.db.executed ++ _).map _
    rw [hledgered.ledger, List.map_append, List.map_map]
    rfl
  · rw [executed_applyChain hnodup h, List.map_append, List.nodup_append]
    have hpending : ((run.db.pending worldId chain.app chain.files).map
        MigrationFile.filename).Nodup :=
      hnodup.sublist (List.filter_sublist.map _)
    refine ⟨hledgered.nodup, ?_, ?_⟩
    · rw [AppChain.executions, List.map_map]
      have hkeys : Execution.key ∘ (fun file => (⟨chain.app, chain.relDir, file⟩ : Execution)) =
          (fun filename => (chain.app, filename)) ∘ MigrationFile.filename := rfl
      rw [hkeys, ← List.map_map]
      exact hpending.map fun _ _ he => (Prod.mk.inj he).2
    · rintro key hkey _ hnew rfl
      obtain ⟨e, he, rfl⟩ := List.mem_map.mp hnew
      obtain ⟨happ, -, hfile⟩ := mem_executions.mp he
      have hnone := Option.isNone_iff_eq_none.mp (List.mem_filter.mp hfile).2
      rw [hledgered.existing_eq_none, ← happ] at hnone
      exact hnone hkey

/-- After a chain is applied, what was executed for its app goes by the names of its files. -/
theorem Ledgered.names_applyChain (hnodup : (chain.files.map MigrationFile.filename).Nodup)
    (hledgered : Ledgered worldId run.db)
    (h : Schema.applyChain pg crates worldId chain run = (.ok (), run')) :
    (chain.app, filename) ∈ run'.db.executed.map Execution.key ↔
      filename ∈ chain.files.map MigrationFile.filename := by
  have hrows := ((applyChain_iff hnodup).mp h).1
  rw [executed_applyChain hnodup h, List.map_append, List.mem_append]
  constructor
  · rintro (hold | hnew)
    · obtain ⟨e, he, hkey⟩ := List.mem_map.mp hold
      obtain ⟨happ, rfl⟩ := Prod.mk.inj hkey
      exact hrows (e.row worldId) (hledgered.mem_recorded.mpr ⟨e, he, happ, rfl⟩)
    · obtain ⟨e, he, hkey⟩ := List.mem_map.mp hnew
      obtain ⟨-, rfl⟩ := Prod.mk.inj hkey
      have hfile := (mem_executions.mp he).2.2
      exact List.mem_map.mpr ⟨e.file, (List.mem_filter.mp hfile).1, rfl⟩
  · intro hname
    obtain ⟨file, hfile, rfl⟩ := List.mem_map.mp hname
    cases hexisting : run.db.existing worldId chain.app file.filename with
    | some checksum =>
      left
      by_contra hnot
      rw [hledgered.existing_eq_none.mpr hnot] at hexisting
      cases hexisting
    | none =>
      right
      refine List.mem_map.mpr ⟨⟨chain.app, chain.relDir, file⟩, mem_executions.mpr ⟨rfl, rfl, ?_⟩,
        rfl⟩
      exact List.mem_filter.mpr ⟨hfile, Option.isNone_iff_eq_none.mpr hexisting⟩

end Results

end PgPaw.Schema
