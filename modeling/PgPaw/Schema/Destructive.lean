/-
# `schema/mod.rs`: which destructive migrations are caught

`check_destructive_acknowledged` has two detectors.  Where `sqlparser` reads the file, it looks at
the statements.  Where it does not, it looks for three phrases in the text, and PostgreSQL allows
more than those: two spaces or a comment between the words, a line end after `TRUNCATE`, a dropped
column without the word `COLUMN`.

So a file that needs an acknowledgement and has none is refused as long as `sqlparser` reads the
statement, or the text has a phrase (`caught_iff`); otherwise it is executed
(`dropped_column_unseen`).

`sqlparser` reads a file statement by statement, with one exception: it takes what comes after a
`COPY` from standard input for the data.
-/
import PgPaw.Sql.Script
import PgPaw.Schema.Apply

namespace PgPaw.Schema

open Sql Script
open Loop (each)

/-! ## 1. The two readers -/

/-- **The file has a destructive statement**, as PostgreSQL reads it. -/
def Destructive (sql : String) : Prop := ∃ s ∈ commands sql, s.isDestructive

/-- The file has the acknowledgement, in any letter case. -/
def Acknowledged (crates : SchemaCrates) (sql : String) : Prop :=
  contains (crates.toLowercase sql) DESTRUCTIVE_ACK

/-- A `COPY` between a table and standard input. -/
def copiesStdin (s : Command) : Bool :=
  startsWith ["copy"] s && (outside .top s).tails.any fun rest =>
    startsWith ["from", "stdin"] rest || startsWith ["to", "stdin"] rest

/-- The statements that `sqlparser` does not take for data. -/
def legible : List Command → List Command
  | [] => []
  | s :: ss => if copiesStdin s then [s] else s :: legible ss

/-- `AlterTableOperation::DropColumn` is among the operations. -/
def alterDrops : SqlStatement → Bool
  | .alterTable operations => operations.contains .dropColumn
  | _ => false

/-- What `sqlparser` makes of a statement, as far as tables and columns are dropped. -/
structure Represents (s : Command) (ast : SqlStatement) : Prop where
  dropTable : ast = .drop .table ↔ s.dropsTable = true
  truncate : ast = .truncate ↔ s.truncates = true
  alterTable : alterDrops ast = true ↔
    s.altersTable = true ∧ s.actions.any Command.dropsColumn = true

/-- `sqlparser` **reads the file** statement by statement, if it reads it. -/
def ReadsStatements (crates : SchemaCrates) (sql : String) : Prop :=
  ∀ asts, crates.parse sql = some asts → List.Forall₂ Represents (legible (commands sql)) asts

/-- The phrases that are looked for in a text that is not read. -/
def hasPhrase (crates : SchemaCrates) (sql : String) : Bool :=
  let lowered := crates.toLowercase sql
  contains lowered "drop table" || contains lowered "drop column" || contains lowered "truncate "

/-- **The statement is seen**: among those `sqlparser` reads, or by a phrase. -/
def Seen (crates : SchemaCrates) (sql : String) : Prop :=
  ((crates.parse sql).isSome ∧ ∃ s ∈ legible (commands sql), s.isDestructive) ∨
    (crates.parse sql = none ∧ hasPhrase crates sql)

/-! ## 2. What the check sees -/

section Check

variable {crates : SchemaCrates} {relDir : List String} {file : MigrationFile}

theorem isDestructive_eq (ast : SqlStatement) :
    isDestructive ast = true ↔ ast = .drop .table ∨ ast = .truncate ∨ alterDrops ast = true := by
  cases ast with
  | drop kind => cases kind <;> simp [isDestructive, alterDrops]
  | alterTable operations => simp [isDestructive, alterDrops]
  | _ => simp [isDestructive, alterDrops]

theorem Represents.isDestructive {s : Command} {ast : SqlStatement} (h : Represents s ast) :
    Schema.isDestructive ast = s.isDestructive := by
  rw [Bool.eq_iff_iff, isDestructive_eq, h.dropTable, h.truncate, h.alterTable]
  simp [Command.isDestructive, or_assoc]

theorem any_isDestructive {ss : List Command} {asts : List SqlStatement}
    (h : List.Forall₂ Represents ss asts) :
    asts.any isDestructive = true ↔ ∃ s ∈ ss, s.isDestructive := by
  induction h with
  | nil => simp
  | cons hhead _ ih => simp [hhead.isDestructive, ih]

theorem check_cases (crates : SchemaCrates) (relDir : List String) (file : MigrationFile) :
    checkDestructiveAcknowledged crates relDir file = .ok () ∨
      ∃ e, checkDestructiveAcknowledged crates relDir file = .error e := by
  cases h : checkDestructiveAcknowledged crates relDir file with
  | error e => exact .inr ⟨e, rfl⟩
  | ok u => exact .inl rfl

/-- What the two detectors say. -/
def detected (crates : SchemaCrates) (sql : String) : Bool :=
  (crates.parse sql).elim (hasPhrase crates sql) fun asts => asts.any isDestructive

theorem check_eq : checkDestructiveAcknowledged crates relDir file = .ok () ↔
    ¬ (detected crates file.sql = true ∧ ¬ Acknowledged crates file.sql) := by
  obtain ⟨e, he⟩ : ∃ e, checkDestructiveAcknowledged crates relDir file =
      if detected crates file.sql && !contains (crates.toLowercase file.sql) DESTRUCTIVE_ACK
      then .error e else .ok () := by
    rw [checkDestructiveAcknowledged, detected]
    cases crates.parse file.sql with
    | none => exact ⟨_, rfl⟩
    | some asts => exact ⟨_, rfl⟩
  have hcond : (detected crates file.sql &&
      !contains (crates.toLowercase file.sql) DESTRUCTIVE_ACK) = true ↔
        detected crates file.sql = true ∧ ¬ Acknowledged crates file.sql := by
    simp [Acknowledged]
  rw [he, ← hcond]
  split
  · rename_i h
    exact iff_of_false (fun hok => by cases hok) (not_not.mpr h)
  · rename_i h
    exact iff_of_true rfl h

theorem detected_iff (hread : ReadsStatements crates file.sql) :
    detected crates file.sql = true ↔ Seen crates file.sql := by
  rw [detected, Seen]
  cases hparse : crates.parse file.sql with
  | none => simp
  | some asts => simp [any_isDestructive (hread asts hparse)]

/-- **The check refuses** exactly what it sees and finds unacknowledged. -/
theorem check_error_iff (hread : ReadsStatements crates file.sql) :
    (∃ e, checkDestructiveAcknowledged crates relDir file = .error e) ↔
      Seen crates file.sql ∧ ¬ Acknowledged crates file.sql := by
  rw [← detected_iff hread, ← not_iff_not, ← check_eq]
  constructor
  · intro h
    rcases check_cases crates relDir file with hok | herror
    · exact hok
    · exact absurd herror h
  · rintro hok ⟨e, herror⟩
    rw [hok] at herror
    cases herror

/-- What the check says of a text does not depend on where the file is. -/
theorem check_ok_congr {relDir' : List String} {file' : MigrationFile}
    (hsql : file'.sql = file.sql) (h : checkDestructiveAcknowledged crates relDir file = .ok ()) :
    checkDestructiveAcknowledged crates relDir' file' = .ok () := by
  rw [check_eq] at h ⊢
  rw [hsql]
  exact h

end Check

/-! ## 3. What a run executes -/

section Runs

variable {σ : Type} {pg : Postgres σ} {crates : SchemaCrates} {worldId : String}

/-- What was executed since: files that passed the check. -/
def ExecutedChecked (crates : SchemaCrates) (before : Db σ) (run : Run σ) : Prop :=
  ∃ new, run.db.executed = before.executed ++ new ∧
    ∀ e ∈ new, checkDestructiveAcknowledged crates e.relDir e.file = .ok ()

theorem executedChecked_applyFile {before : Db σ} {run : Run σ} (chain : AppChain)
    (file : MigrationFile) (h : ExecutedChecked crates before run) :
    ExecutedChecked crates before (applyFile pg crates worldId chain file run).2 := by
  obtain ⟨new, hnew, hchecked⟩ := h
  rw [applyFile]
  split
  · split
    · exact ⟨new, hnew, hchecked⟩
    · exact ⟨new, hnew, hchecked⟩
  · split
    · exact ⟨new, hnew, hchecked⟩
    · rename_i hcheck
      split
      · exact ⟨new, hnew, hchecked⟩
      · refine ⟨new ++ [⟨chain.app, chain.relDir, file⟩], ?_, ?_⟩
        · rw [← List.append_assoc, ← hnew]
          rfl
        · intro e he
          rcases List.mem_append.mp he with hold | hlast
          · exact hchecked e hold
          · rw [List.mem_singleton.mp hlast]
            exact hcheck

theorem executedChecked_applyChain (pg : Postgres σ) (worldId : String) {before : Db σ}
    {run : Run σ} (chain : AppChain) (h : ExecutedChecked crates before run) :
    ExecutedChecked crates before (applyChain pg crates worldId chain run).2 := by
  have hfiles : ExecutedChecked crates before
      (each (applyFile pg crates worldId chain) chain.files run).2 :=
    Loop.each_preserves h fun file _ _ ht => executedChecked_applyFile chain file ht
  simp only [applyChain]
  split
  · exact h
  · split
    · rename_i hrun
      rw [hrun] at hfiles
      exact hfiles
    · rename_i hrun
      rw [hrun] at hfiles
      exact hfiles

/-- **A run executes only what passes the check**, whether it ends in an error or not. -/
theorem executed_checked (chains : List AppChain) (db : Db σ) :
    ∃ new, (applyMigrations pg crates worldId chains db).2.executed = db.executed ++ new ∧
      ∀ e ∈ new, checkDestructiveAcknowledged crates e.relDir e.file = .ok () := by
  have hstart : ExecutedChecked crates db ⟨db, [], 0⟩ :=
    ⟨[], (List.append_nil _).symm, fun _ he => by cases he⟩
  have hchains : ExecutedChecked crates db
      (each (applyChain pg crates worldId) chains ⟨db, [], 0⟩).2 :=
    Loop.each_preserves hstart fun chain _ _ ht => executedChecked_applyChain pg worldId chain ht
  rw [applyMigrations]
  split
  · rename_i hrun
    rw [hrun] at hchains
    exact hchains
  · rename_i hrun
    rw [hrun] at hchains
    exact hchains

end Runs

/-! ## 4. Which files are caught -/

/-- **A destructive file is caught**: unless it is acknowledged, the check is an error, and no run
executes the text. -/
def Caught (crates : SchemaCrates) (file : MigrationFile) : Prop :=
  Destructive file.sql → ¬ Acknowledged crates file.sql →
    (∀ relDir, ∃ e, checkDestructiveAcknowledged crates relDir file = .error e) ∧
    ∀ (σ : Type) (pg : Postgres σ) (worldId : String) (chains : List AppChain) (db : Db σ),
      ∃ new, (applyMigrations pg crates worldId chains db).2.executed = db.executed ++ new ∧
        ∀ e ∈ new, e.file.sql ≠ file.sql

/-- **A destructive file is caught exactly if the statement is seen.** -/
theorem caught_iff {crates : SchemaCrates} {file : MigrationFile}
    (hread : ReadsStatements crates file.sql) :
    Caught crates file ↔
      (Destructive file.sql → ¬ Acknowledged crates file.sql → Seen crates file.sql) := by
  constructor
  · intro h hdestructive hack
    exact ((check_error_iff hread).mp ((h hdestructive hack).1 [])).1
  · intro h hdestructive hack
    have herror : ∀ relDir, ∃ e, checkDestructiveAcknowledged crates relDir file = .error e :=
      fun _ => (check_error_iff hread).mpr ⟨h hdestructive hack, hack⟩
    refine ⟨herror, fun σ pg worldId chains db => ?_⟩
    obtain ⟨new, hnew, hchecked⟩ := executed_checked chains db
    refine ⟨new, hnew, fun e he hsql => ?_⟩
    obtain ⟨error, hrefused⟩ := herror e.relDir
    rw [check_ok_congr hsql.symm (hchecked e he)] at hrefused
    cases hrefused

/-! ## 5. A file that is caught, and one that is not -/

/-- `sqlparser` on a text that it reads, or on one that it does not read. -/
def cratesReading (asts : Option (List SqlStatement)) : SchemaCrates where
  parse _ := asts
  toLowercase text := String.ofList (text.toList.map Char.toLower)

/-- A migration. -/
def migration (sql : String) : MigrationFile := ⟨"0001_init.sql", 1, sql, contentHash sql⟩

/-- The table is dropped; the statement is read, and the migration is refused. -/
def dropFile : MigrationFile := migration "DROP /* old */ TABLE t"

theorem caught_drop : Caught (cratesReading (some [.drop .table])) dropFile := by
  have hcommands : legible (commands dropFile.sql) =
      [[⟨.word, ['D', 'R', 'O', 'P']⟩, ⟨.word, ['T', 'A', 'B', 'L', 'E']⟩, ⟨.word, ['t']⟩]] := by
    decide +kernel
  refine (caught_iff fun asts hparse => ?_).mpr fun _ _ => .inl ⟨rfl, ?_⟩
  · rw [← Option.some.inj hparse, hcommands]
    refine .cons ⟨iff_of_true rfl (by decide +kernel), ?_, ?_⟩ .nil
    · exact iff_of_false (fun h => by cases h) (by decide +kernel)
    · exact iff_of_false (fun h => by cases h) (by decide +kernel)
  · rw [hcommands]
    exact ⟨_, List.mem_singleton.mpr rfl, by decide +kernel⟩

/-- A column is dropped without the word `COLUMN`, after a statement that `sqlparser` does not
know. -/
def ruleFile : MigrationFile := migration
  "CREATE RULE r AS ON DELETE TO u DO INSTEAD NOTHING;\nALTER TABLE t DROP c;"

/-- **A column that is dropped unseen.** -/
theorem dropped_column_unseen : Destructive ruleFile.sql ∧
    ¬ Acknowledged (cratesReading none) ruleFile.sql ∧
    checkDestructiveAcknowledged (cratesReading none) [] ruleFile = .ok () ∧
    ¬ Caught (cratesReading none) ruleFile := by
  have hdestructive : Destructive ruleFile.sql := by
    rw [Destructive, ← List.any_eq_true]
    decide +kernel
  have hack : ¬ Acknowledged (cratesReading none) ruleFile.sql := by
    rw [Acknowledged]
    decide +kernel
  have hok : checkDestructiveAcknowledged (cratesReading none) [] ruleFile = .ok () := by
    rw [check_eq]
    rintro ⟨hseen, -⟩
    have hunseen : detected (cratesReading none) ruleFile.sql = false := by decide +kernel
    rw [hunseen] at hseen
    cases hseen
  refine ⟨hdestructive, hack, hok, fun h => ?_⟩
  obtain ⟨e, he⟩ := (h hdestructive hack).1 []
  rw [hok] at he
  cases he

end PgPaw.Schema
