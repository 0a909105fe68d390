/-
# `schema/mod.rs`: the legacy ledgers

`handoff_legacy_ledgers` moves the rows of two legacy tables into the two ledgers, in one
transaction: a table that exists is compared with its ledger, copied where the ledger has no row
of the key, counted, and dropped.

The handoff loses nothing, leaves everything as it was when it fails, and may be repeated
(`handoff_lossless`).  It fails exactly where a key that is in both carries something else; the
second of the two counts never differs from the first.

A ledger that does not exist is created before the transaction, so it is an empty table here.
Values of `tables` are compared as `jsonb`.
-/
import PgPaw.Error
import PgPaw.Json
import PgPaw.Text
import PgPaw.Lib.KeyedTable

namespace PgPaw.Schema.Handoff

/-! ## 1. The tables -/

/-- A row of either migration ledger, by world, app and filename. -/
structure Applied where
  checksum : String
  /-- In microseconds. -/
  appliedAt : Int
  deriving DecidableEq

/-- A row of `app_schemas`, by world and app. -/
structure LegacySchema where
  tables : Option Json
  appliedAt : Int
  deriving DecidableEq

/-- A row of `pgpaw_app_schemas`. -/
structure AppSchema where
  tables : Json
  appliedAt : Int
  deriving DecidableEq

structure Ledgers where
  /-- `applied_app_migrations`. -/
  legacyMigrations : Option (Keyed (String × String × String) Applied)
  /-- `app_schemas`. -/
  legacySchemas : Option (Keyed (String × String) LegacySchema)
  /-- `pgpaw_applied_migrations`. -/
  migrations : Keyed (String × String × String) Applied
  /-- `pgpaw_app_schemas`. -/
  schemas : Keyed (String × String) AppSchema

/-- `new.checksum <> legacy.checksum`. -/
def checksumsDiffer (new legacy : Applied) : Bool := new.checksum != legacy.checksum

/-- `new.tables IS DISTINCT FROM legacy.tables`. -/
def tablesDiffer (new legacy : AppSchema) : Bool := new.tables != legacy.tables

/-- `coalesce(tables, '[]'::jsonb)`. -/
def coalesced (legacy : LegacySchema) : AppSchema :=
  ⟨legacy.tables.getD (.array []), legacy.appliedAt⟩

/-! ## 2. `handoff_legacy_ledgers` -/

/-- One of the two ledgers. -/
inductive Part
  | migrations
  | schemas
  deriving DecidableEq

/-- What is sent to the database, each at most once. -/
inductive Query
  | ensureLedgers
  | begin
  | present (part : Part)
  | conflicts (part : Part)
  | insert (part : Part)
  | source (part : Part)
  | copied (part : Part)
  | drop (part : Part)
  | commit
  deriving DecidableEq

/-- The error, by what causes it. -/
inductive Failure
  | db (error : CacheError)
  | conflicts (part : Part) (conflicts : Nat)
  | copied (part : Part) (copied source : Nat)

/-- The error that is returned. -/
def Failure.error : Failure → CacheError
  | db error => error
  | conflicts .migrations n => .rejected
      ("ledger handoff found " ++ decimal n ++ " migration rows whose checksums " ++
        "disagree with already-migrated rows; resolve before retrying")
  | conflicts .schemas n => .rejected
      ("ledger handoff found " ++ decimal n ++ " schema rows whose tables disagree " ++
        "with already-migrated rows; resolve before retrying")
  | copied .migrations n source => .rejected ("ledger handoff copied " ++ decimal n ++ " of " ++
      decimal source ++ " migration rows; aborting")
  | copied .schemas n source => .rejected ("ledger handoff copied " ++ decimal n ++ " of " ++
      decimal source ++ " schema rows; aborting")

section Handoff

variable (fault : Query → Option CacheError)

/-- A query, which may fail. -/
def query (q : Query) : Except Failure Unit :=
  match fault q with
  | some error => .error (.db error)
  | none => .ok ()

/-- One ledger: the body of `if legacy_migrations` and of `if legacy_schemas`. -/
def move {κ ν : Type} [DecidableEq κ] (part : Part) (differ : ν → ν → Bool)
    (ledger legacy : Keyed κ ν) : Except Failure (Keyed κ ν) := do
  query fault (.conflicts part)
  if 0 < ledger.conflicts differ legacy then
    throw (.conflicts part (ledger.conflicts differ legacy))
  query fault (.insert part)
  query fault (.source part)
  query fault (.copied part)
  if (ledger.insertMissing legacy).copied legacy ≠ legacy.count then
    throw (.copied part ((ledger.insertMissing legacy).copied legacy) legacy.count)
  query fault (.drop part)
  return ledger.insertMissing legacy

def moveMigrations (s : Ledgers) : Except Failure Ledgers :=
  match s.legacyMigrations with
  | none => .ok s
  | some legacy => do
    let migrations ← move fault .migrations checksumsDiffer s.migrations legacy
    return { s with legacyMigrations := none, migrations }

def moveSchemas (s : Ledgers) : Except Failure Ledgers :=
  match s.legacySchemas with
  | none => .ok s
  | some legacy => do
    let schemas ← move fault .schemas tablesDiffer s.schemas (legacy.mapValues coalesced)
    return { s with legacySchemas := none, schemas }

/-- The transaction: the working copy it ends with, or its error. -/
def transaction (s : Ledgers) : Except Failure Ledgers := do
  query fault .begin
  query fault (.present .migrations)
  query fault (.present .schemas)
  let s ← moveMigrations fault s
  let s ← moveSchemas fault s
  query fault .commit
  return s

/-- `handoff_legacy_ledgers`.  With an error the working copy is gone. -/
def handoffLegacyLedgers (s : Ledgers) : Except Failure Unit × Ledgers :=
  match query fault .ensureLedgers with
  | .error failure => (.error failure, s)
  | .ok () => match transaction fault s with
    | .error failure => (.error failure, s)
    | .ok s' => (.ok (), s')

end Handoff

/-! ## 3. One ledger -/

section Move

variable {fault : Query → Option CacheError} {κ ν : Type} [DecidableEq κ] {part : Part}
  {differ : ν → ν → Bool} {ledger legacy : Keyed κ ν}

theorem ok_bind {α β : Type} (a : α) (f : α → Except Failure β) : (Except.ok a >>= f) = f a := rfl

theorem query_cases (fault : Query → Option CacheError) (q : Query) :
    query fault q = .ok () ∨
      ∃ error, query fault q = .error (.db error) ∧ fault q = some error := by
  unfold query
  cases fault q with
  | none => exact .inl rfl
  | some error => exact .inr ⟨error, rfl, rfl⟩

/-- **What becomes of a ledger**: it is copied, the keys conflict, or the database fails. -/
theorem move_cases (fault : Query → Option CacheError) (part : Part) (differ : ν → ν → Bool)
    (ledger legacy : Keyed κ ν) :
    (move fault part differ ledger legacy = .ok (ledger.insertMissing legacy) ∧
      ledger.Agrees differ legacy) ∨
    (∃ n, move fault part differ ledger legacy = .error (.conflicts part n) ∧
      ¬ ledger.Agrees differ legacy) ∨
    ∃ q error, move fault part differ ledger legacy = .error (.db error) ∧
      fault q = some error := by
  unfold move
  rcases query_cases fault (.conflicts part) with hquery | ⟨error, hquery, hfault⟩
  rotate_left
  · exact .inr (.inr ⟨_, error, by rw [hquery]; rfl, hfault⟩)
  rw [hquery]
  by_cases hconflicts : 0 < ledger.conflicts differ legacy
  · refine .inr (.inl ⟨ledger.conflicts differ legacy, ?_, ?_⟩)
    · simp only [hconflicts, if_true]
      rfl
    · rw [← Keyed.conflicts_eq_zero_iff]
      exact Nat.ne_of_gt hconflicts
  have hagrees : ledger.Agrees differ legacy :=
    Keyed.conflicts_eq_zero_iff.mp (Nat.eq_zero_of_not_pos hconflicts)
  rcases query_cases fault (.insert part) with hinsert | ⟨error, hinsert, hfault⟩
  rotate_left
  · exact .inr (.inr ⟨_, error, by simp only [hconflicts, hinsert]; rfl, hfault⟩)
  rcases query_cases fault (.source part) with hsource | ⟨error, hsource, hfault⟩
  rotate_left
  · exact .inr (.inr ⟨_, error, by simp only [hconflicts, hinsert, hsource]; rfl, hfault⟩)
  rcases query_cases fault (.copied part) with hcopied | ⟨error, hcopied, hfault⟩
  rotate_left
  · exact .inr (.inr ⟨_, error, by simp only [hconflicts, hinsert, hsource, hcopied]; rfl, hfault⟩)
  have hcount : (ledger.insertMissing legacy).copied legacy = legacy.count :=
    Keyed.copied_insertMissing
  rcases query_cases fault (.drop part) with hdrop | ⟨error, hdrop, hfault⟩
  rotate_left
  · refine .inr (.inr ⟨_, error, ?_, hfault⟩)
    simp only [hconflicts, hinsert, hsource, hcopied, hcount, hdrop, ne_eq, not_true_eq_false,
      if_false]
    rfl
  · refine .inl ⟨?_, hagrees⟩
    simp only [hconflicts, hinsert, hsource, hcopied, hcount, hdrop, ne_eq, not_true_eq_false,
      if_false]
    rfl

end Move

/-! ## 4. Both ledgers -/

/-- A migration in both has another checksum. -/
def MigrationConflict (s : Ledgers) : Prop :=
  ∃ legacy, s.legacyMigrations = some legacy ∧ ∃ key new old, (key, new) ∈ s.migrations.rows ∧
    (key, old) ∈ legacy.rows ∧ new.checksum ≠ old.checksum

/-- An app in both has another value of `tables`. -/
def SchemaConflict (s : Ledgers) : Prop :=
  ∃ legacy, s.legacySchemas = some legacy ∧ ∃ key new old, (key, new) ∈ s.schemas.rows ∧
    (key, old) ∈ legacy.rows ∧ new.tables ≠ old.tables.getD (.array [])

/-- **A key in both carries something else.** -/
def Conflicting (s : Ledgers) : Prop := MigrationConflict s ∨ SchemaConflict s

/-- **The handoff lost nothing and invented nothing.** -/
structure HandedOff (s s' : Ledgers) : Prop where
  migrations : ∀ legacy, s.legacyMigrations = some legacy → ∀ key old, (key, old) ∈ legacy.rows →
    ∃ new, (key, new) ∈ s'.migrations.rows ∧ new.checksum = old.checksum
  schemas : ∀ legacy, s.legacySchemas = some legacy → ∀ key old, (key, old) ∈ legacy.rows →
    ∃ new, (key, new) ∈ s'.schemas.rows ∧ new.tables = old.tables.getD (.array [])
  kept : (∀ row ∈ s.migrations.rows, row ∈ s'.migrations.rows) ∧
    ∀ row ∈ s.schemas.rows, row ∈ s'.schemas.rows
  noOther : (∀ row ∈ s'.migrations.rows, row ∈ s.migrations.rows ∨
      ∃ legacy, s.legacyMigrations = some legacy ∧ row ∈ legacy.rows) ∧
    ∀ row ∈ s'.schemas.rows, row ∈ s.schemas.rows ∨
      ∃ legacy, s.legacySchemas = some legacy ∧ row ∈ (legacy.mapValues coalesced).rows
  dropped : s'.legacyMigrations = none ∧ s'.legacySchemas = none

/-- What a call does, whatever the database lets it do. -/
structure Lossless (fault : Query → Option CacheError) (s : Ledgers) : Prop where
  ok : (handoffLegacyLedgers fault s).1 = .ok () → HandedOff s (handoffLegacyLedgers fault s).2
  again : (handoffLegacyLedgers fault s).1 = .ok () → ∀ fault', (handoffLegacyLedgers fault'
    (handoffLegacyLedgers fault s).2).2 = (handoffLegacyLedgers fault s).2
  error : (handoffLegacyLedgers fault s).1 ≠ .ok () → (handoffLegacyLedgers fault s).2 = s
  conflict : (∃ part n, (handoffLegacyLedgers fault s).1 = .error (.conflicts part n)) →
    Conflicting s
  /-- Unless the database fails, a conflict is the only error. -/
  exact : (∀ q, fault q = none) →
    (Conflicting s → ∃ part n, (handoffLegacyLedgers fault s).1 = .error (.conflicts part n)) ∧
    (¬ Conflicting s → (handoffLegacyLedgers fault s).1 = .ok ())

section Both

variable {fault : Query → Option CacheError} {s s' : Ledgers}

/-- The migrations, moved. -/
def movedMigrations (s : Ledgers) : Ledgers :=
  match s.legacyMigrations with
  | none => s
  | some legacy => { s with
      legacyMigrations := none
      migrations := s.migrations.insertMissing legacy }

/-- The schemas, moved. -/
def movedSchemas (s : Ledgers) : Ledgers :=
  match s.legacySchemas with
  | none => s
  | some legacy => { s with
      legacySchemas := none
      schemas := s.schemas.insertMissing (legacy.mapValues coalesced) }

theorem not_agrees_migrations {ledger legacy : Keyed (String × String × String) Applied} :
    ¬ ledger.Agrees checksumsDiffer legacy ↔ ∃ key new old, (key, new) ∈ ledger.rows ∧
      (key, old) ∈ legacy.rows ∧ new.checksum ≠ old.checksum := by
  simp [Keyed.Agrees, checksumsDiffer]

theorem mem_mapValues_coalesced {legacy : Keyed (String × String) LegacySchema}
    {key : String × String} {v : AppSchema} : (key, v) ∈ (legacy.mapValues coalesced).rows ↔
      ∃ old, (key, old) ∈ legacy.rows ∧ coalesced old = v := by
  simp only [Keyed.mapValues, List.mem_map, Prod.mk.injEq]
  constructor
  · rintro ⟨⟨key', old⟩, hold, rfl, rfl⟩
    exact ⟨old, hold, rfl⟩
  · rintro ⟨old, hold, rfl⟩
    exact ⟨(key, old), hold, rfl, rfl⟩

theorem not_agrees_schemas {ledger : Keyed (String × String) AppSchema}
    {legacy : Keyed (String × String) LegacySchema} :
    ¬ ledger.Agrees tablesDiffer (legacy.mapValues coalesced) ↔
      ∃ key new old, (key, new) ∈ ledger.rows ∧ (key, old) ∈ legacy.rows ∧
        new.tables ≠ old.tables.getD (.array []) := by
  simp only [Keyed.Agrees, mem_mapValues_coalesced, tablesDiffer]
  constructor
  · intro h
    by_contra hnone
    refine h ?_
    intro key new v hnew hv
    obtain ⟨old, hold, rfl⟩ := hv
    by_contra hdiffer
    exact hnone ⟨key, new, old, hnew, hold, by simpa [coalesced] using hdiffer⟩
  · rintro ⟨key, new, old, hnew, hold, hdiffer⟩ h
    have hsame := h key new (coalesced old) hnew ⟨old, hold, rfl⟩
    exact hdiffer (by simpa [coalesced] using hsame)

theorem moveMigrations_cases (fault : Query → Option CacheError) (s : Ledgers) :
    (moveMigrations fault s = .ok (movedMigrations s) ∧ ¬ MigrationConflict s) ∨
    (∃ n, moveMigrations fault s = .error (.conflicts .migrations n) ∧ MigrationConflict s) ∨
    ∃ q error, moveMigrations fault s = .error (.db error) ∧ fault q = some error := by
  unfold moveMigrations movedMigrations MigrationConflict
  cases hlegacy : s.legacyMigrations with
  | none => exact .inl ⟨rfl, fun ⟨_, h, _⟩ => by cases h⟩
  | some legacy =>
    rcases move_cases fault .migrations checksumsDiffer s.migrations legacy with
      ⟨hmove, hagrees⟩ | ⟨n, hmove, hconflict⟩ | ⟨q, error, hmove, hfault⟩
    · refine .inl ⟨by simp only [hmove]; rfl, ?_⟩
      rintro ⟨legacy', h, hconflict⟩
      cases h
      exact not_agrees_migrations.mpr hconflict hagrees
    · exact .inr (.inl ⟨n, by simp only [hmove]; rfl, legacy, rfl,
        not_agrees_migrations.mp hconflict⟩)
    · exact .inr (.inr ⟨q, error, by simp only [hmove]; rfl, hfault⟩)

theorem moveSchemas_cases (fault : Query → Option CacheError) (s : Ledgers) :
    (moveSchemas fault s = .ok (movedSchemas s) ∧ ¬ SchemaConflict s) ∨
    (∃ n, moveSchemas fault s = .error (.conflicts .schemas n) ∧ SchemaConflict s) ∨
    ∃ q error, moveSchemas fault s = .error (.db error) ∧ fault q = some error := by
  unfold moveSchemas movedSchemas SchemaConflict
  cases hlegacy : s.legacySchemas with
  | none => exact .inl ⟨rfl, fun ⟨_, h, _⟩ => by cases h⟩
  | some legacy =>
    rcases move_cases fault .schemas tablesDiffer s.schemas (legacy.mapValues coalesced) with
      ⟨hmove, hagrees⟩ | ⟨n, hmove, hconflict⟩ | ⟨q, error, hmove, hfault⟩
    · refine .inl ⟨by simp only [hmove]; rfl, ?_⟩
      rintro ⟨legacy', h, hconflict⟩
      cases h
      exact not_agrees_schemas.mpr hconflict hagrees
    · exact .inr (.inl ⟨n, by simp only [hmove]; rfl, legacy, rfl, not_agrees_schemas.mp hconflict⟩)
    · exact .inr (.inr ⟨q, error, by simp only [hmove]; rfl, hfault⟩)

/-- The schemas are what they were before the migrations were moved. -/
theorem schemaConflict_movedMigrations :
    SchemaConflict (movedMigrations s) ↔ SchemaConflict s := by
  unfold movedMigrations
  cases s.legacyMigrations with
  | none => exact Iff.rfl
  | some legacy => exact Iff.rfl

/-- **What becomes of a transaction**: both ledgers are moved, or a key conflicts, or the database
fails. -/
theorem transaction_cases (fault : Query → Option CacheError) (s : Ledgers) :
    (transaction fault s = .ok (movedSchemas (movedMigrations s)) ∧ ¬ Conflicting s) ∨
    (∃ part n, transaction fault s = .error (.conflicts part n) ∧ Conflicting s) ∨
    ∃ q error, transaction fault s = .error (.db error) ∧ fault q = some error := by
  unfold transaction
  rcases query_cases fault .begin with hbegin | ⟨error, hbegin, hfault⟩
  rotate_left
  · exact .inr (.inr ⟨_, error, by rw [hbegin]; rfl, hfault⟩)
  rcases query_cases fault (.present .migrations) with hfirst | ⟨error, hfirst, hfault⟩
  rotate_left
  · exact .inr (.inr ⟨_, error, by rw [hbegin, hfirst]; rfl, hfault⟩)
  rcases query_cases fault (.present .schemas) with hsecond | ⟨error, hsecond, hfault⟩
  rotate_left
  · exact .inr (.inr ⟨_, error, by rw [hbegin, hfirst, hsecond]; rfl, hfault⟩)
  rw [hbegin, hfirst, hsecond]
  rcases moveMigrations_cases fault s with
    ⟨hmigrations, hnone⟩ | ⟨n, hmigrations, hconflict⟩ | ⟨q, error, hmigrations, hfault⟩
  rotate_left
  · exact .inr (.inl ⟨_, n, by rw [hmigrations]; rfl, .inl hconflict⟩)
  · exact .inr (.inr ⟨q, error, by rw [hmigrations]; rfl, hfault⟩)
  rcases moveSchemas_cases fault (movedMigrations s) with
    ⟨hschemas, hnone'⟩ | ⟨n, hschemas, hconflict⟩ | ⟨q, error, hschemas, hfault⟩
  rotate_left
  · refine .inr (.inl ⟨.schemas, n, ?_, .inr (schemaConflict_movedMigrations.mp hconflict)⟩)
    simp only [hmigrations, ok_bind, hschemas]
    rfl
  · exact .inr (.inr ⟨q, error, by simp only [hmigrations, ok_bind, hschemas]; rfl, hfault⟩)
  rw [schemaConflict_movedMigrations] at hnone'
  rcases query_cases fault .commit with hcommit | ⟨error, hcommit, hfault⟩
  · refine .inl ⟨?_, not_or.mpr ⟨hnone, hnone'⟩⟩
    simp only [hmigrations, ok_bind, hschemas, hcommit]
    rfl
  · refine .inr (.inr ⟨_, error, ?_, hfault⟩)
    simp only [hmigrations, ok_bind, hschemas, hcommit]
    rfl

theorem handoff_cases (fault : Query → Option CacheError) (s : Ledgers) :
    (handoffLegacyLedgers fault s = (.ok (), movedSchemas (movedMigrations s)) ∧
      ¬ Conflicting s) ∨
    (∃ part n, handoffLegacyLedgers fault s = (.error (.conflicts part n), s) ∧ Conflicting s) ∨
    ∃ q error, handoffLegacyLedgers fault s = (.error (.db error), s) ∧ fault q = some error := by
  unfold handoffLegacyLedgers
  rcases query_cases fault .ensureLedgers with hensure | ⟨error, hensure, hfault⟩
  · rw [hensure]
    rcases transaction_cases fault s with
      ⟨h, hnone⟩ | ⟨part, n, h, hconflict⟩ | ⟨q, error, h, hfault⟩
    · exact .inl ⟨by simp only [h], hnone⟩
    · exact .inr (.inl ⟨part, n, by simp only [h], hconflict⟩)
    · exact .inr (.inr ⟨q, error, by simp only [h], hfault⟩)
  · exact .inr (.inr ⟨_, error, by rw [hensure], hfault⟩)

/-! ## 5. The handoff -/

theorem migrations_moved : (movedSchemas (movedMigrations s)).migrations =
    (movedMigrations s).migrations := by
  unfold movedSchemas
  split
  · rfl
  · rfl

theorem schemas_moved : (movedSchemas (movedMigrations s)).schemas = (movedSchemas s).schemas := by
  unfold movedMigrations
  split
  · rfl
  · unfold movedSchemas
    split
    · rename_i hnone
      rw [hnone]
    · rename_i legacy hsome
      rw [hsome]

theorem legacy_moved : (movedSchemas (movedMigrations s)).legacyMigrations = none ∧
    (movedSchemas (movedMigrations s)).legacySchemas = none := by
  have hmigrations : (movedMigrations s).legacyMigrations = none := by
    unfold movedMigrations
    split
    · assumption
    · rfl
  unfold movedSchemas
  split
  · rename_i hnone
    exact ⟨hmigrations, hnone⟩
  · exact ⟨hmigrations, rfl⟩

/-- Where there are no legacy tables, there is nothing to move. -/
theorem moved_eq_self (h : s.legacyMigrations = none ∧ s.legacySchemas = none) :
    movedSchemas (movedMigrations s) = s := by
  have hmigrations : movedMigrations s = s := by
    unfold movedMigrations
    rw [h.1]
  rw [hmigrations]
  unfold movedSchemas
  rw [h.2]

theorem handedOff_moved (h : ¬ Conflicting s) : HandedOff s (movedSchemas (movedMigrations s)) := by
  obtain ⟨hmigrations, hschemas⟩ := not_or.mp h
  refine ⟨?_, ?_, ⟨?_, ?_⟩, ⟨?_, ?_⟩, legacy_moved⟩
  · intro legacy hlegacy key old hold
    have hagrees : s.migrations.Agrees checksumsDiffer legacy := by
      by_contra hnot
      exact hmigrations ⟨legacy, hlegacy, not_agrees_migrations.mp hnot⟩
    obtain ⟨new, hnew, hsame⟩ :=
      Keyed.exists_row hagrees (fun v => by simp [checksumsDiffer]) hold
    rw [migrations_moved, movedMigrations, hlegacy]
    exact ⟨new, hnew, by simpa [checksumsDiffer] using hsame⟩
  · intro legacy hlegacy key old hold
    have hagrees : s.schemas.Agrees tablesDiffer (legacy.mapValues coalesced) := by
      by_contra hnot
      exact hschemas ⟨legacy, hlegacy, not_agrees_schemas.mp hnot⟩
    obtain ⟨new, hnew, hsame⟩ := Keyed.exists_row hagrees (fun v => by simp [tablesDiffer])
      (mem_mapValues_coalesced.mpr ⟨old, hold, rfl⟩)
    rw [schemas_moved, movedSchemas, hlegacy]
    exact ⟨new, hnew, by simpa [tablesDiffer, coalesced] using hsame⟩
  · intro row hrow
    rw [migrations_moved, movedMigrations]
    split
    · exact hrow
    · exact Keyed.mem_insertMissing.mpr (.inl hrow)
  · intro row hrow
    rw [schemas_moved, movedSchemas]
    split
    · exact hrow
    · exact Keyed.mem_insertMissing.mpr (.inl hrow)
  · intro row hrow
    rw [migrations_moved, movedMigrations] at hrow
    split at hrow
    · exact .inl hrow
    · rename_i legacy hlegacy
      exact (Keyed.mem_insertMissing.mp hrow).imp_right fun hnew => ⟨legacy, hlegacy, hnew.1⟩
  · intro row hrow
    rw [schemas_moved, movedSchemas] at hrow
    split at hrow
    · exact .inl hrow
    · rename_i legacy hlegacy
      exact (Keyed.mem_insertMissing.mp hrow).imp_right fun hnew => ⟨legacy, hlegacy, hnew.1⟩

/-- **The handoff is lossless, atomic and rerun-safe**, and fails exactly where keys conflict. -/
theorem handoff_lossless (fault : Query → Option CacheError) (s : Ledgers) : Lossless fault s := by
  rcases handoff_cases fault s with ⟨h, hnone⟩ | ⟨part, n, h, hconflict⟩ | ⟨q, error, h, hfault⟩
  · refine ⟨fun _ => ?_, fun _ fault' => ?_, fun herror => ?_, ?_, fun _ => ⟨fun hc => ?_, ?_⟩⟩
    · rw [h]
      exact handedOff_moved hnone
    · rw [h]
      rcases handoff_cases fault' (movedSchemas (movedMigrations s)) with
        ⟨hagain, _⟩ | ⟨_, _, hagain, _⟩ | ⟨_, _, hagain, _⟩
      · rw [hagain]
        exact moved_eq_self legacy_moved
      · rw [hagain]
      · rw [hagain]
    · rw [h] at herror
      exact absurd rfl herror
    · rintro ⟨part, n, herror⟩
      rw [h] at herror
      cases herror
    · exact absurd hc hnone
    · intro _
      rw [h]
  · refine ⟨fun hok => ?_, fun hok => ?_, fun _ => ?_, fun _ => hconflict,
      fun _ => ⟨fun _ => ⟨part, n, by rw [h]⟩, fun hnone => absurd hconflict hnone⟩⟩
    · rw [h] at hok
      cases hok
    · rw [h] at hok
      cases hok
    · rw [h]
  · refine ⟨fun hok => ?_, fun hok => ?_, fun _ => ?_, ?_, fun hfaultless => ?_⟩
    · rw [h] at hok
      cases hok
    · rw [h] at hok
      cases hok
    · rw [h]
    · rintro ⟨part, n, herror⟩
      rw [h] at herror
      cases herror
    · rw [hfaultless q] at hfault
      cases hfault

end Both

end PgPaw.Schema.Handoff
