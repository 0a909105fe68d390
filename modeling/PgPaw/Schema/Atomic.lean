/-
# `schema/mod.rs`: a migration and its ledger row

`apply_migrations` executes a file in a transaction, puts its row into the ledger in the same
transaction, and commits.  PostgreSQL allows the file to end that transaction itself.

So the database has of every migration what its ledger says, all of it once or nothing, whatever
statement fails and however often the runner is started, exactly if in each file no `COMMIT` or
`ROLLBACK` comes after the first other command, and a transaction is open at the end
(`whole_iff`).  A file with a `COMMIT` in it may leave effects without a row, and a later run
executes them again (`commit_left_behind`).

What the commands of a migration do, and where something fails, is up to the server, and may be
different in each run.
-/
import PgPaw.Sql.Script
import PgPaw.Lib.Transaction
import PgPaw.Schema.Once

namespace PgPaw.Schema.Atomic

open Sql Script Transaction
open Loop (each)

/-! ## 1. The server -/

/-- An error of the server. -/
structure PgError where
  sqlstate : String
  message : String
  deriving DecidableEq, Repr

/-- The text of `pglite::Error`. -/
def PgError.display (e : PgError) : String := pgliteDisplay e.sqlstate e.message

/-- What is done in a transaction: a command of the file, or the `INSERT` into the ledger. -/
inductive Work
  | command (s : Script.Command)
  | record
  deriving DecidableEq, Repr

/-- What PostgreSQL does, and where it fails. -/
structure Server (σ : Type) where
  /-- A text is parsed before any of it is executed. -/
  syntaxError : String → Option PgError
  run : Script.Command → σ → Except PgError σ
  /-- A command that is an error where it stands. -/
  refuse : Transaction.Block → Transaction.Command Work → Option PgError
  /-- Deferred constraints are checked. -/
  atCommit : σ → Except PgError σ
  /-- The `INSERT INTO pgpaw_applied_migrations`. -/
  insertError : LedgerRow → σ → Option PgError
  /-- The `INSERT INTO pgpaw_app_schemas`. -/
  schemaError : String → σ → Option PgError
  /-- `reflected_table_names`. -/
  tableNames : σ → List String

/-- The commands that were executed, and the migration each is from. -/
abbrev Log := List (Execution × Work)

/-- The tables, and the commands that made them. -/
structure Traced (σ : Type) where
  tables : σ
  log : Log

/-- The command of a transaction that a command of a file is. -/
def toCommand (s : Script.Command) : Transaction.Command Work :=
  if s.begins then .begin
  else if s.commits then .commit s.chains
  else if s.rollsBack then .rollback s.chains
  else .work (.command s)

/-- The commands of a text. -/
def script (sql : String) : List (Transaction.Command Work) := (commands sql).map toCommand

/-! ## 2. `apply_migrations` -/

section Apply

variable {σ : Type} (server : Server σ) (crates : SchemaCrates) (worldId : String)

/-- The transactions of a migration. -/
def engine (chain : AppChain) (file : MigrationFile) :
    Transaction.Engine Work (Db (Traced σ)) PgError where
  run
    | .command s, db => match server.run s db.tables.tables with
      | .ok tables => .ok { db with
          tables := ⟨tables, db.tables.log ++ [(⟨chain.app, chain.relDir, file⟩, .command s)]⟩ }
      | .error e => .error e
    | .record, db =>
      match server.insertError ⟨worldId, chain.app, file.filename, file.checksum⟩
        db.tables.tables with
      | some e => .error e
      | none => .ok (db.commit worldId chain file db.tables)
  refuse := server.refuse
  atCommit db := match server.atCommit db.tables.tables with
    | .ok tables => .ok { db with tables := ⟨tables, db.tables.log⟩ }
    | .error e => .error e
  aborted := ⟨"25P02",
    "current transaction is aborted, commands ignored until end of transaction block"⟩

/-- `tx.exec`. -/
def exec (chain : AppChain) (file : MigrationFile) (s : Transaction.Session (Db (Traced σ))) :
    Except PgError Unit × Transaction.Session (Db (Traced σ)) :=
  match server.syntaxError file.sql with
  | some e => (.error e, s.abort)
  | none => string (engine server worldId chain file) (script file.sql) s

/-- The transaction of a file.  What is not committed when it ends is gone. -/
def transact (chain : AppChain) (file : MigrationFile) (db : Db (Traced σ)) :
    Except CacheError Unit × Db (Traced σ) :=
  let path := display chain.relDir ++ "/" ++ file.filename
  match exec server worldId chain file (.opened db) with
  | (.error e, s) => (.error (.rejected (path ++ ": " ++ e.display)), s.committed)
  | (.ok (), s) => match string (engine server worldId chain file) [.work .record] s with
    | (.error e, s) => (.error (.rejected (path ++ ": " ++ e.display)), s.committed)
    | (.ok (), s) => match close (engine server worldId chain file) false s with
      | (.error e, s) => (.error (.pglite e.sqlstate e.message), s.committed)
      | (.ok (), s) => (.ok (), s.committed)

/-- The body of the loop over the files. -/
def applyFile (chain : AppChain) (file : MigrationFile) (run : Run (Traced σ)) :
    Except CacheError Unit × Run (Traced σ) :=
  let path := display chain.relDir ++ "/" ++ file.filename
  match run.db.existing worldId chain.app file.filename with
  | some checksum =>
    if checksum != file.checksum then (.error (.rejected
      (path ++ " changed after it was applied (checksum " ++ file.checksum ++ " vs " ++ checksum ++
        "); migrations are immutable once applied")), run)
    else (.ok (), { run with report.alreadyApplied := run.report.alreadyApplied + 1 })
  | none => match checkDestructiveAcknowledged crates chain.relDir file with
    | .error e => (.error e, run)
    | .ok () => match transact server worldId chain file run.db with
      | (.error e, db) => (.error e, { run with db })
      | (.ok (), db) => (.ok (), { run with
          db
          report.applied := run.report.applied ++ [(chain.app, file.filename)] })

/-- The body of the loop over the chains. -/
def applyChain (chain : AppChain) (run : Run (Traced σ)) :
    Except CacheError Unit × Run (Traced σ) :=
  let rows := (run.db.recorded worldId chain.app).insertionSort (¬ ·.filename > ·.filename)
  match missingFile chain rows with
  | some filename => (.error (.rejected
      (display chain.relDir ++ "/" ++ filename ++
        " is applied but missing on disk (renamed or deleted); " ++
        "applied statements never re-execute — restore the file")), run)
  | none => match each (applyFile server crates worldId chain) chain.files run with
    | (.error e, run) => (.error e, run)
    | (.ok (), run) => match server.schemaError chain.app run.db.tables.tables with
      | some e => (.error (.pglite e.sqlstate e.message), run)
      | none => (.ok (), { run with
          db := run.db.recordSchema worldId chain.app (server.tableNames run.db.tables.tables) })

/-- `apply_migrations`. -/
def applyMigrations (chains : List AppChain) (db : Db (Traced σ)) :
    Except CacheError AppliedReport × Db (Traced σ) :=
  match each (applyChain server crates worldId) chains ⟨db, [], 0⟩ with
  | (.error e, run) => (.error e, run.db)
  | (.ok (), run) => (.ok run.report, run.db)

end Apply

/-! ## 3. What the database has of the migrations -/

/-- The effects of a migration: its commands, in order. -/
def effects (e : Execution) : Log := (works (script e.file.sql)).map fun w => (e, w)

/-- The database as far as migrations are concerned. -/
def migrated {σ : Type} (db : Db (Traced σ)) : Db Log :=
  ⟨db.tables.log, db.ledger, db.schemas, db.executed⟩

/-- **A migration is there with its row**: there are the effects of the files in the ledger, of
each all of them and once, and no others. -/
structure Whole (worldId : String) (db : Db Log) : Prop where
  ledgered : Ledgered worldId db
  effects : db.tables = db.executed.flatMap effects

/-- What the runner makes of a database without migrations, started again and again, as long as
the files are `accepted`. -/
inductive Reachable {σ : Type} (worldId : String) (accepted : MigrationFile → Prop) :
    Db (Traced σ) → Prop
  | start (tables : σ) (schemas : List ((String × String) × List String)) :
    Reachable worldId accepted (Db.start ⟨tables, []⟩ schemas)
  | run {db : Db (Traced σ)} (server : Server σ) (crates : SchemaCrates) (chains : List AppChain)
    (h : Reachable worldId accepted db)
    (hfiles : ∀ chain ∈ chains, ∀ file ∈ chain.files, accepted file) :
    Reachable worldId accepted (applyMigrations server crates worldId chains db).2

/-! ## 4. One transaction -/

section Transact

variable {σ : Type} {server : Server σ} {worldId : String} {chain : AppChain}
  {file : MigrationFile} {db db' : Db (Traced σ)}

/-- What work leaves in the database. -/
def effect (worldId : String) (chain : AppChain) (file : MigrationFile) (m : Db Log) :
    Work → Db Log
  | .command s => { m with tables := m.tables ++ [(⟨chain.app, chain.relDir, file⟩, .command s)] }
  | .record => m.commit worldId chain file m.tables

theorem migrated_run {w : Work} (h : (engine server worldId chain file).run w db = .ok db') :
    migrated db' = effect worldId chain file (migrated db) w := by
  cases w with
  | command s =>
    simp only [engine] at h
    split at h
    · cases h
      rfl
    · cases h
  | record =>
    simp only [engine] at h
    split at h
    · cases h
    · cases h
      rfl

theorem migrated_atCommit (h : (engine server worldId chain file).atCommit db = .ok db') :
    migrated db' = migrated db := by
  simp only [engine] at h
  split at h
  · cases h
    rfl
  · cases h

/-- The work of a file is commands. -/
theorem exists_command {w : Work} (h : w ∈ works (script file.sql)) : ∃ s, w = .command s := by
  rw [mem_works, script, List.mem_map] at h
  obtain ⟨s, -, hs⟩ := h
  unfold toCommand at hs
  split_ifs at hs
  cases hs
  exact ⟨s, rfl⟩

theorem foldl_effect {ws : List Work} (h : ∀ w ∈ ws, ∃ s, w = .command s) (m : Db Log) :
    ws.foldl (effect worldId chain file) m = { m with
      tables := m.tables ++ ws.map fun w => (⟨chain.app, chain.relDir, file⟩, w) } := by
  induction ws generalizing m with
  | nil => simp
  | cons w ws ih =>
    obtain ⟨s, rfl⟩ := h w List.mem_cons_self
    rw [List.foldl_cons, ih fun w hw => h w (List.mem_cons_of_mem _ hw)]
    simp [effect]

/-- This is what the work of a file has left. -/
def HasDone (worldId : String) (chain : AppChain) (file : MigrationFile) (db : Db (Traced σ))
    (done : List Work) (now : Db (Traced σ)) : Prop :=
  migrated now = done.foldl (effect worldId chain file) (migrated db)

theorem hasDone_run (done : List Work) (w : Work) (now next : Db (Traced σ))
    (h : HasDone worldId chain file db done now)
    (hstep : (engine server worldId chain file).run w now = .ok next) :
    HasDone worldId chain file db (done ++ [w]) next := by
  rw [HasDone, List.foldl_append, migrated_run hstep, h]
  rfl

theorem hasDone_atCommit (done : List Work) (now next : Db (Traced σ))
    (h : HasDone worldId chain file db done now)
    (hstep : (engine server worldId chain file).atCommit now = .ok next) :
    HasDone worldId chain file db done next := (migrated_atCommit hstep).trans h

/-- A file that is there, with its row. -/
def applied (worldId : String) (chain : AppChain) (file : MigrationFile) (m : Db Log) : Db Log :=
  m.commit worldId chain file (m.tables ++ effects ⟨chain.app, chain.relDir, file⟩)

theorem HasDone.applied (h : HasDone worldId chain file db
    (works (script file.sql) ++ [.record]) db') :
    migrated db' = applied worldId chain file (migrated db) := by
  rw [HasDone, List.foldl_append, foldl_effect fun w hw => exists_command hw] at h
  exact h

variable (server worldId chain db) in
/-- **A contained file is there with its row, or not at all.** -/
theorem migrated_transact (h : Contained (script file.sql)) :
    ((transact server worldId chain file db).1 = .ok () ∧
      migrated (transact server worldId chain file db).2 =
        applied worldId chain file (migrated db)) ∨
    ((transact server worldId chain file db).1 ≠ .ok () ∧
      migrated (transact server worldId chain file db).2 = migrated db) := by
  have hstart : HasDone worldId chain file db [] db := rfl
  have hrun : ∀ done w now next, HasDone worldId chain file db done now →
      (engine server worldId chain file).run w now = .ok next →
        HasDone worldId chain file db (done ++ [w]) next := hasDone_run
  have hcommit : ∀ done now next, HasDone worldId chain file db done now →
      (engine server worldId chain file).atCommit now = .ok next →
        HasDone worldId chain file db done next := hasDone_atCommit
  rw [transact]
  cases hexec : exec server worldId chain file (.opened db) with
  | mk r s =>
    have hstring : HasDone worldId chain file db [] s.committed ∧
        (r = .ok () → HasDone worldId chain file db (works (script file.sql)) s.working ∧
          (s.block = .explicit ∨ works (script file.sql) = [] ∧ s.block = .idle)) := by
      rw [exec] at hexec
      split at hexec
      · cases hexec
        exact ⟨hstart, fun hok => by cases hok⟩
      · have hall := string_contained hrun hcommit h hstart
        rw [hexec] at hall
        exact hall
    obtain ⟨hcommitted, hok⟩ := hstring
    cases r with
    | error e => exact .inr ⟨fun he => (by cases he), hcommitted⟩
    | ok u =>
      obtain ⟨hworking, hblock⟩ := hok rfl
      obtain ⟨hfail, hdone⟩ :=
        query_contained (i := .record) hrun hcommit hcommitted hworking hblock
      cases hquery : string (engine server worldId chain file) [.work .record] s with
      | mk r t =>
        rw [hquery] at hfail hdone
        simp only [hquery]
        cases r with
        | error e =>
          have hkept := hfail fun he => by cases he
          exact .inr ⟨fun he => (by cases he), hkept⟩
        | ok u =>
          obtain ⟨hcloseFail, hclose⟩ := hdone rfl
          cases hend : close (engine server worldId chain file) false t with
          | mk r s' =>
            simp only [hend]
            cases r with
            | error e => exact .inr ⟨fun he => (by cases he), hcloseFail e s' hend⟩
            | ok u => exact .inl ⟨rfl, (hclose s' hend).applied⟩

end Transact

/-! ## 5. The runs -/

section Runs

variable {σ : Type} {server : Server σ} {crates : SchemaCrates} {worldId : String}
  {accepted : MigrationFile → Prop}

/-- A file that is new, with its row. -/
theorem Whole.applied {m : Db Log} {chain : AppChain} {file : MigrationFile} (h : Whole worldId m)
    (hnew : m.existing worldId chain.app file.filename = none) :
    Whole worldId (applied worldId chain file m) := by
  refine ⟨⟨?_, ?_⟩, ?_⟩
  · show m.ledger ++ _ = (m.executed ++ _).map _
    rw [h.ledgered.ledger, List.map_append]
    rfl
  · show ((m.executed ++ _).map _).Nodup
    rw [h.ledgered.existing_eq_none] at hnew
    rw [List.map_append, List.nodup_append]
    refine ⟨h.ledgered.nodup, List.nodup_singleton _, ?_⟩
    rintro key hkey key' hkey' rfl
    rw [List.map_singleton, List.mem_singleton] at hkey'
    rw [hkey'] at hkey
    exact hnew hkey
  · show m.tables ++ _ = (m.executed ++ _).flatMap _
    rw [h.effects, List.flatMap_append, List.flatMap_singleton]

theorem whole_applyFile {chain : AppChain} {file : MigrationFile} {run : Run (Traced σ)}
    (hfile : Contained (script file.sql)) (h : Whole worldId (migrated run.db)) :
    Whole worldId (migrated (applyFile server crates worldId chain file run).2.db) := by
  rw [applyFile]
  split
  · split
    · exact h
    · exact h
  · rename_i hnew
    split
    · exact h
    · have htransact : Whole worldId
          (migrated (transact server worldId chain file run.db).2) := by
        rcases migrated_transact server worldId chain run.db hfile with ⟨-, hdone⟩ | ⟨-, hkept⟩
        · rw [hdone]
          exact h.applied hnew
        · rw [hkept]
          exact h
      split
      · rename_i hrun
        rw [hrun] at htransact
        exact htransact
      · rename_i hrun
        rw [hrun] at htransact
        exact htransact

theorem whole_recordSchema {db : Db (Traced σ)} {app : String} {names : List String}
    (h : Whole worldId (migrated db)) :
    Whole worldId (migrated (db.recordSchema worldId app names)) :=
  ⟨⟨h.ledgered.ledger, h.ledgered.nodup⟩, h.effects⟩

theorem whole_applyChain {chain : AppChain} {run : Run (Traced σ)}
    (hfiles : ∀ file ∈ chain.files, Contained (script file.sql))
    (h : Whole worldId (migrated run.db)) :
    Whole worldId (migrated (applyChain server crates worldId chain run).2.db) := by
  have hloop : Whole worldId
      (migrated (each (applyFile server crates worldId chain) chain.files run).2.db) :=
    Loop.each_preserves (P := fun run : Run (Traced σ) => Whole worldId (migrated run.db)) h
      fun file hfile _ ht => whole_applyFile (hfiles file hfile) ht
  simp only [applyChain]
  split
  · exact h
  · split
    · rename_i hrun
      rw [hrun] at hloop
      exact hloop
    · rename_i hrun
      rw [hrun] at hloop
      split
      · exact hloop
      · exact whole_recordSchema hloop

/-- **A run keeps the database whole**, whether it ends in an error or not. -/
theorem whole_applyMigrations {chains : List AppChain} {db : Db (Traced σ)}
    (hfiles : ∀ chain ∈ chains, ∀ file ∈ chain.files, Contained (script file.sql))
    (h : Whole worldId (migrated db)) :
    Whole worldId (migrated (applyMigrations server crates worldId chains db).2) := by
  have hloop : Whole worldId
      (migrated (each (applyChain server crates worldId) chains ⟨db, [], 0⟩).2.db) :=
    Loop.each_preserves (P := fun run : Run (Traced σ) => Whole worldId (migrated run.db)) h
      fun chain hchain _ ht => whole_applyChain (hfiles chain hchain) ht
  rw [applyMigrations]
  split
  · rename_i hrun
    rw [hrun] at hloop
    exact hloop
  · rename_i hrun
    rw [hrun] at hloop
    exact hloop

theorem whole_of_contained {db : Db (Traced σ)} (h : Reachable worldId accepted db)
    (hfiles : ∀ file, accepted file → Contained (script file.sql)) :
    Whole worldId (migrated db) := by
  induction h with
  | start tables schemas => exact ⟨⟨rfl, List.nodup_nil⟩, rfl⟩
  | run server crates chains _ haccepted ih =>
    exact whole_applyMigrations
      (fun chain hchain file hfile => hfiles file (haccepted chain hchain file hfile)) ih

end Runs

/-! ## 6. A file that is not contained -/

/-- A server on which only the `INSERT` into the ledger may fail. -/
def lenient (insertError : Option PgError) : Server Unit where
  syntaxError _ := none
  run _ tables := .ok tables
  refuse _ _ := none
  atCommit tables := .ok tables
  insertError _ _ := insertError
  schemaError _ _ := none
  tableNames _ := []

/-- One file, and nothing else. -/
def chainOf (file : MigrationFile) : AppChain := ⟨"app", ["migrations"], [file]⟩

/-- A database without migrations. -/
def fresh : Db (Traced Unit) := Db.start ⟨(), []⟩ []

section Leak

variable {worldId : String} {file : MigrationFile} {insertError : Option PgError}

/-- The effects and the row, in a database without migrations. -/
theorem migrated_run_one (insertError : Option PgError) (worldId : String) (file : MigrationFile) :
    ∃ schemas, migrated (applyMigrations (lenient insertError) mildCrates worldId [chainOf file]
        fresh).2 =
      { migrated (transact (lenient insertError) worldId (chainOf file) file fresh).2 with
        schemas } := by
  have hnew : fresh.existing worldId (chainOf file).app file.filename = none := rfl
  have hcheck : checkDestructiveAcknowledged mildCrates (chainOf file).relDir file = .ok () := rfl
  have hmissing : missingFile (chainOf file) ((fresh.recorded worldId (chainOf file).app)
      |>.insertionSort (¬ ·.filename > ·.filename)) = none := rfl
  have hfiles : (chainOf file).files = [file] := rfl
  cases htransact : transact (lenient insertError) worldId (chainOf file) file fresh with
  | mk r db =>
    cases r with
    | error e =>
      refine ⟨db.schemas, ?_⟩
      simp only [applyMigrations, each, applyChain, hmissing, hfiles, applyFile, hnew, hcheck,
        htransact]
      rfl
    | ok u =>
      refine ⟨(db.recordSchema worldId (chainOf file).app []).schemas, ?_⟩
      simp only [applyMigrations, each, applyChain, hmissing, hfiles, applyFile, hnew, hcheck,
        htransact]
      rfl

/-- The script has executed nothing but commands. -/
theorem executed_exec (s : Transaction.Session (Db (Traced Unit)))
    (h : string (engine (lenient insertError) worldId (chainOf file) file) (script file.sql)
      (.opened fresh) = (.ok (), s)) : s.committed.executed = [] ∧ s.working.executed = [] := by
  have hrun : ∀ w ∈ works (script file.sql), ∀ db db' : Db (Traced Unit), db.executed = [] →
      (engine (lenient insertError) worldId (chainOf file) file).run w db = .ok db' →
        db'.executed = [] := by
    intro w hw db db' hdb hrun
    obtain ⟨c, rfl⟩ := exists_command hw
    cases hrun
    exact hdb
  have hcommit : ∀ db db' : Db (Traced Unit), db.executed = [] →
      (engine (lenient insertError) worldId (chainOf file) file).atCommit db = .ok db' →
        db'.executed = [] := by
    intro db db' hdb hcommit
    cases hcommit
    exact hdb
  have hstart : (Transaction.Session.opened fresh).committed.executed = [] ∧
      (Transaction.Session.opened fresh).working.executed = [] := ⟨rfl, rfl⟩
  have hkept := string_preserves hrun hcommit hstart
  rw [h] at hkept
  exact hkept

/-- The script does not depend on what becomes of the `INSERT`. -/
theorem string_lenient (s : Transaction.Session (Db (Traced Unit))) :
    string (engine (lenient insertError) worldId (chainOf file) file) (script file.sql) s =
      string (engine (lenient none) worldId (chainOf file) file) (script file.sql) s := by
  have hsteps : ∀ c ∈ script file.sql,
      step (engine (lenient insertError) worldId (chainOf file) file) c =
        step (engine (lenient none) worldId (chainOf file) file) c := by
    intro c hc
    cases c with
    | work w =>
      obtain ⟨s, rfl⟩ := exists_command (mem_works.mpr hc)
      rfl
    | _ => rfl
  rw [string, Loop.each_congr hsteps]
  rfl

/-- What the script leaves pending and committed. -/
theorem exists_leak (worldId : String) (h : ¬ Contained (script file.sql)) :
    ∃ s, (∀ insertError, string (engine (lenient insertError) worldId (chainOf file) file)
        (script file.sql) (.opened fresh) = (.ok (), s)) ∧ s.block ≠ .failed ∧
      (s.committed.tables.log.length ≠ 0 ∨
        s.working.tables.log.length < (works (script file.sql)).length) := by
  have hrun : ∀ w ∈ works (script file.sql), ∀ db : Db (Traced Unit),
      ∃ db', (engine (lenient none) worldId (chainOf file) file).run w db = .ok db' ∧
        db'.tables.log.length = db.tables.log.length + 1 := by
    intro w hw db
    obtain ⟨c, rfl⟩ := exists_command hw
    refine ⟨_, rfl, ?_⟩
    rw [List.length_append]
    rfl
  have hcommit : ∀ db : Db (Traced Unit),
      ∃ db', (engine (lenient none) worldId (chainOf file) file).atCommit db = .ok db' ∧
        db'.tables.log.length = db.tables.log.length := fun db => ⟨db, rfl, rfl⟩
  have hnothing : fresh.tables.log.length = 0 := rfl
  obtain ⟨s, hs, halive, -, hleak⟩ := string_leaks (fun _ _ => rfl) hrun hcommit hnothing h
  exact ⟨s, fun _ => by rw [string_lenient, hs], halive, hleak⟩

/-- **What a file that is not contained leaves behind**: where the `INSERT` into the ledger fails,
effects without a row; or where it does not, a row without all of the effects. -/
theorem exists_not_whole (worldId : String) (h : ¬ Contained (script file.sql)) :
    ∃ insertError, ¬ Whole worldId (migrated
      (applyMigrations (lenient insertError) mildCrates worldId [chainOf file] fresh).2) := by
  obtain ⟨s, hs, halive, hleak⟩ := exists_leak worldId h
  obtain ⟨hcommitted, hworking⟩ := executed_exec s (hs none)
  rcases hleak with hne | hless
  · refine ⟨some ⟨"42501", "permission denied"⟩, fun hwhole => ?_⟩
    have hdenied : (engine (lenient (some ⟨"42501", "permission denied"⟩)) worldId (chainOf file)
        file).run .record s.working = .error ⟨"42501", "permission denied"⟩ := rfl
    obtain ⟨t, ht, hkept⟩ := query_failed (fun _ _ => rfl) halive hdenied
    have htransact : (transact (lenient (some ⟨"42501", "permission denied"⟩)) worldId
        (chainOf file) file fresh).2 = s.committed := by
      have hexec : exec (lenient (some ⟨"42501", "permission denied"⟩)) worldId (chainOf file) file
          (.opened fresh) = (.ok (), s) := hs _
      simp only [transact, hexec, ht]
      exact hkept
    obtain ⟨schemas, hrun⟩ := migrated_run_one (some ⟨"42501", "permission denied"⟩) worldId file
    have heffects := hwhole.effects
    rw [hrun, htransact] at heffects
    have hlog : s.committed.tables.log = s.committed.executed.flatMap effects := heffects
    rw [hlog, hcommitted] at hne
    exact hne rfl
  · refine ⟨none, fun hwhole => ?_⟩
    have hrecord : (engine (lenient none) worldId (chainOf file) file).run .record s.working =
        .ok (s.working.commit worldId (chainOf file) file s.working.tables) := rfl
    have hatCommit : (engine (lenient none) worldId (chainOf file) file).atCommit
        (s.working.commit worldId (chainOf file) file s.working.tables) =
          .ok (s.working.commit worldId (chainOf file) file s.working.tables) := rfl
    obtain ⟨t, ht, hclose⟩ := query_done (fun _ _ => rfl) halive hrecord hatCommit
    have hexec : exec (lenient none) worldId (chainOf file) file (.opened fresh) = (.ok (), s) :=
      hs none
    have htransact : migrated (transact (lenient none) worldId (chainOf file) file fresh).2 =
        migrated (s.working.commit worldId (chainOf file) file s.working.tables) := by
      simp only [transact, hexec, ht, hclose]
      rfl
    obtain ⟨schemas, hrun⟩ := migrated_run_one none worldId file
    have heffects := hwhole.effects
    rw [hrun, htransact] at heffects
    have hlog : s.working.tables.log =
        (s.working.executed ++ [(⟨"app", ["migrations"], file⟩ : Execution)]).flatMap effects :=
      heffects
    rw [hworking, List.nil_append, List.flatMap_singleton, effects] at hlog
    rw [hlog, List.length_map] at hless
    exact absurd hless (Nat.lt_irrefl _)

end Leak

/-! ## 7. The files for which it holds -/

/-- **A migration and its ledger row commit together**, for the files of which all is in one
transaction, and for no other file. -/
theorem whole_iff (worldId : String) (accepted : MigrationFile → Prop) :
    (∀ (σ : Type) (db : Db (Traced σ)), Reachable worldId accepted db →
      Whole worldId (migrated db)) ↔
      ∀ file, accepted file → Contained (script file.sql) := by
  constructor
  · intro h file hfile
    by_contra hnot
    obtain ⟨insertError, hbroken⟩ := exists_not_whole worldId hnot
    refine hbroken (h Unit _ (.run (lenient insertError) mildCrates [chainOf file]
      (.start () []) fun chain hchain other hother => ?_))
    rw [List.mem_singleton.mp hchain] at hother
    rw [List.mem_singleton.mp hother]
    exact hfile
  · intro h σ db hdb
    exact whole_of_contained hdb h

/-! ## 8. A file with a `COMMIT` in it -/

def commitSql : String := "CREATE TABLE a (); COMMIT; CREATE TABLE b ()"

/-- A table is made, and the transaction ended; the next command fails. -/
def commitFile : MigrationFile := ⟨"0001_init.sql", 1, commitSql, contentHash commitSql⟩

/-- A server that has the table `b` already. -/
def serverWithB : Server Unit where
  syntaxError _ := none
  run s _ := if s.any (·.text == ['b']) then .error ⟨"42P07", "relation \"b\" already exists"⟩
    else .ok ()
  refuse _ _ := none
  atCommit _ := .ok ()
  insertError _ _ := none
  schemaError _ _ := none
  tableNames _ := []

/-- The database after one run, and after another. -/
def afterRun (db : Db (Traced Unit)) : Db (Traced Unit) :=
  (applyMigrations serverWithB mildCrates "w" [chainOf commitFile] db).2

/-- **The table is left behind without a row**, and the next run executes its command again. -/
theorem commit_left_behind :
    (afterRun fresh).ledger = [] ∧ (afterRun fresh).tables.log.length = 1 ∧
      (afterRun (afterRun fresh)).tables.log.length = 2 ∧
      ¬ ∀ (σ : Type) (db : Db (Traced σ)), Reachable "w" (fun _ => True) db →
        Whole "w" (migrated db) := by
  have hledger : (afterRun fresh).ledger = [] := by decide +kernel
  have hlog : (afterRun fresh).tables.log.length = 1 := by decide +kernel
  refine ⟨hledger, hlog, by decide +kernel, fun h => ?_⟩
  have hwhole := h Unit (afterRun fresh) (.run _ _ _ (.start () []) fun _ _ _ _ => trivial)
  have hexecuted : (afterRun fresh).executed = [] := by
    have hrows : (afterRun fresh).ledger = (afterRun fresh).executed.map (Execution.row "w") :=
      hwhole.ledgered.ledger
    rw [hledger] at hrows
    exact List.map_eq_nil_iff.mp hrows.symm
  have heffects : (afterRun fresh).tables.log = (afterRun fresh).executed.flatMap effects :=
    hwhole.effects
  rw [hexecuted] at heffects
  rw [heffects] at hlog
  cases hlog

end PgPaw.Schema.Atomic
