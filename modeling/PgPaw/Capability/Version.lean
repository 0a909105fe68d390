/-
# `capability/version.rs`

The `VersionIndex` keeps, for each table and for each anchored column value, the end LSN of
the last transaction that touched it.  `advance` feeds it the committed transactions one by
one; `version_of` reads the version of a query off it, at the level of its tables or, when an
equality filter allows it, of one column value.

The maps are partial functions from their keys.  The columns a change carries are those
logical replication delivers: the old key columns and the new row, each value as the server
prints it, or absent.
-/
import PgPaw.Text
import Mathlib.Tactic.Convert

namespace PgPaw

/-! ## 1. Committed transactions -/

/-- The columns of a row or a key, by name, with their text. -/
abbrev Columns := List (String × Option String)

/-- `pglite::RowChange`. -/
inductive RowChange
  | insert (table : String) (row : Columns)
  | update (table : String) (key row : Columns)
  | delete (table : String) (key : Columns)
  | truncate (table : String)
  deriving DecidableEq, Repr

/-- `pglite::CommittedTransaction`, as far as the server looks at it. -/
structure CommittedTransaction where
  xid : Nat
  endLsn : Nat
  changes : List RowChange
  deriving DecidableEq, Repr

/-- `change_table`. -/
def changeTable : RowChange → String
  | .insert table _ | .update table _ _ | .delete table _ | .truncate table => table

/-- `find_value`. -/
def findValue (columns : Columns) (pk : String) : Option String :=
  (columns.find? fun (column, _) => eqIgnoreAsciiCase column pk).bind fun (_, value) => value

/-- `pk_values`. -/
def pkValues (change : RowChange) (pk : String) : List String :=
  match change with
  | .insert _ row => (findValue row pk).toList
  | .update _ key row => (findValue key pk).toList ++ (findValue row pk).toList
  | .delete _ key => (findValue key pk).toList
  | .truncate _ => []

/-- `add`, the closure of `change_columns`: the columns that have a value. -/
def presentColumns (columns : Columns) : List (String × String) :=
  columns.filterMap fun (column, value) => value.map fun v => (column, v)

/-- `change_columns`. -/
def changeColumns : RowChange → List (String × String)
  | .insert _ row => presentColumns row
  | .update _ key row => presentColumns key ++ presentColumns row
  | .delete _ key => presentColumns key
  | .truncate _ => []

namespace CommittedTransaction

/-- The names of the tables a transaction changes, lower-cased. -/
def touched (txn : CommittedTransaction) : List String :=
  txn.changes.map fun change => toAsciiLowercase (changeTable change)

end CommittedTransaction

/-! ## 2. The index -/

/-- `HashMap<K, u64>`. -/
abbrev Watermarks (κ : Type) := κ → Option Nat

namespace Watermarks

variable {κ : Type} [DecidableEq κ]

/-- `insert`. -/
def insert (w : Watermarks κ) (key : κ) (lsn : Nat) : Watermarks κ := fun k =>
  if k = key then some lsn else w k

/-- `let entry = entry(key).or_insert(0); if lsn > *entry { *entry = lsn; }`. -/
def raise (w : Watermarks κ) (key : κ) (lsn : Nat) : Watermarks κ :=
  let entry := (w key).getD 0
  insert w key (if lsn > entry then lsn else entry)

/-- `get(key).copied().unwrap_or(0)`. -/
def level (w : Watermarks κ) (key : κ) : Nat := (w key).getD 0

@[simp] theorem level_insert (w : Watermarks κ) (key k : κ) (lsn : Nat) :
    (w.insert key lsn).level k = if k = key then lsn else w.level k := by
  unfold level insert
  split <;> rfl

@[simp] theorem level_raise (w : Watermarks κ) (key k : κ) (lsn : Nat) :
    (w.raise key lsn).level k = if k = key then max (w.level key) lsn else w.level k := by
  rw [raise, level_insert]
  split
  · simp only [level]
    split <;> omega
  · rfl

end Watermarks

/-- `State`. -/
structure VersionState where
  tables : Watermarks String
  values : Watermarks (String × String × String)
  structural : Watermarks String

/-- `VersionIndex`. -/
structure VersionIndex where
  state : VersionState
  pk : String → Option String
  full : List String

/-- `State::default()`. -/
def VersionState.default : VersionState := ⟨fun _ => none, fun _ => none, fun _ => none⟩

namespace VersionIndex

/-- `VersionIndex::new`: of two entries for one lower-cased name, the later one counts. -/
def new (pk : List (String × String)) (full : List String) : VersionIndex where
  state := .default
  pk := pk.foldl (fun m (table, column) => fun t =>
    if t = toAsciiLowercase table then some (toAsciiLowercase column) else m t) fun _ => none
  full := full.map toAsciiLowercase

/-- The keys of `values` a change is recorded under: every column of a table with full
replica identity, else the primary key. -/
def valueKeys (self : VersionIndex) (change : RowChange) : List (String × String × String) :=
  let table := toAsciiLowercase (changeTable change)
  match change with
  | .truncate _ => []
  | change =>
    if self.full.contains table then
      (changeColumns change).map fun (column, value) => (table, toAsciiLowercase column, value)
    else match self.pk table with
      | some pk => (pkValues change pk).map fun value => (table, pk, value)
      | none => []

/-- The body of the loop of `advance`. -/
def advanceChange (self : VersionIndex) (lsn : Nat) (state : VersionState) (change : RowChange) :
    VersionState :=
  let table := toAsciiLowercase (changeTable change)
  { tables := state.tables.raise table lsn
    values := (self.valueKeys change).foldl (fun values key => values.insert key lsn) state.values
    structural := match change with
      | .truncate _ => state.structural.raise table lsn
      | _ => state.structural }

/-- `VersionIndex::advance`. -/
def advance (self : VersionIndex) (txn : CommittedTransaction) : VersionIndex :=
  { self with state := txn.changes.foldl (self.advanceChange txn.endLsn) self.state }

/-- `is_anchorable`. -/
def isAnchorable (self : VersionIndex) (table column : String) : Bool :=
  if self.full.contains table then true
  else ((self.pk table).map fun pk => pk == column).getD false

/-- The table and the filter `version_of` anchors at, if it does. -/
def anchor (self : VersionIndex) (tables : List String) (eqFilters : List (String × String)) :
    Option (String × String × String) :=
  match tables with
  | [table] =>
    (eqFilters.find? fun (column, _) => self.isAnchorable (toAsciiLowercase table) column).map
      fun (column, value) => (toAsciiLowercase table, toAsciiLowercase column, value)
  | _ => none

/-- The loop at the end of `version_of`. -/
def tableVersion (self : VersionIndex) (tables : List String) : Nat :=
  tables.foldl (fun m table =>
    max (max m (self.state.tables.level (toAsciiLowercase table)))
      (self.state.structural.level (toAsciiLowercase table))) 0

/-- `VersionIndex::version_of`. -/
def versionOf (self : VersionIndex) (tables : List String) (eqFilters : List (String × String)) :
    Nat :=
  match self.anchor tables eqFilters with
  | some key => max (self.state.values.level key) (self.state.structural.level key.1)
  | none => self.tableVersion tables

end VersionIndex

/-! ## 3. What `advance` does to each watermark -/

namespace Watermarks

variable {κ : Type} [DecidableEq κ]

/-- Raising every key of a list. -/
theorem level_foldl_raise (lsn : Nat) (k : κ) : ∀ (keys : List κ) (w : Watermarks κ),
    (keys.foldl (fun w key => w.raise key lsn) w).level k =
      if k ∈ keys then max (w.level k) lsn else w.level k
  | [], w => by simp
  | key :: keys, w => by
    rw [List.foldl_cons, level_foldl_raise lsn k keys, level_raise]
    by_cases hk : k = key
    · subst hk
      simp only [List.mem_cons, true_or, if_true]
      split <;> omega
    · simp only [hk, List.mem_cons, false_or, if_false]

/-- Inserting every key of a list. -/
theorem level_foldl_insert (lsn : Nat) (k : κ) : ∀ (keys : List κ) (w : Watermarks κ),
    (keys.foldl (fun w key => w.insert key lsn) w).level k =
      if k ∈ keys then lsn else w.level k
  | [], w => by simp
  | key :: keys, w => by
    rw [List.foldl_cons, level_foldl_insert lsn k keys, level_insert]
    by_cases hk : k = key <;> simp [hk]

end Watermarks

namespace CommittedTransaction

/-- The names of the tables a transaction truncates, lower-cased. -/
def truncated (txn : CommittedTransaction) : List String :=
  txn.changes.flatMap fun
    | .truncate table => [toAsciiLowercase table]
    | _ => []

/-- A truncated table is touched. -/
theorem truncated_subset_touched {txn : CommittedTransaction} {t : String}
    (h : t ∈ txn.truncated) : t ∈ txn.touched := by
  simp only [truncated, List.mem_flatMap] at h
  obtain ⟨change, hc, ht⟩ := h
  refine List.mem_map.mpr ⟨change, hc, ?_⟩
  cases change with
  | truncate table => exact (List.mem_singleton.mp ht).symm
  | insert _ _ | update _ _ _ | delete _ _ => simp at ht

end CommittedTransaction

namespace VersionIndex

section Advance

variable (self : VersionIndex) (txn : CommittedTransaction)

@[simp] theorem advance_pk : (self.advance txn).pk = self.pk := rfl

@[simp] theorem advance_full : (self.advance txn).full = self.full := rfl

/-- Where a query is anchored depends on the configuration only. -/
@[simp] theorem advance_anchor (tables : List String) (eqFilters : List (String × String)) :
    (self.advance txn).anchor tables eqFilters = self.anchor tables eqFilters := rfl

/-- The loop of `advance`, map by map. -/
theorem foldl_advanceChange (lsn : Nat) : ∀ (changes : List RowChange) (state : VersionState),
    changes.foldl (self.advanceChange lsn) state =
      { tables := (changes.map fun c => toAsciiLowercase (changeTable c)).foldl
          (fun w key => w.raise key lsn) state.tables
        values := (changes.flatMap self.valueKeys).foldl
          (fun w key => w.insert key lsn) state.values
        structural := (CommittedTransaction.truncated ⟨0, lsn, changes⟩).foldl
          (fun w key => w.raise key lsn) state.structural }
  | [], _ => rfl
  | c :: cs, state => by
    rw [List.foldl_cons, foldl_advanceChange lsn cs]
    cases c <;>
      simp [advanceChange, CommittedTransaction.truncated, List.foldl_append, changeTable]

/-- A table's watermark rises to the transaction's LSN exactly when it is touched. -/
theorem advance_tables (t : String) :
    (self.advance txn).state.tables.level t =
      if t ∈ txn.touched then max (self.state.tables.level t) txn.endLsn
      else self.state.tables.level t := by
  rw [advance, foldl_advanceChange]
  exact Watermarks.level_foldl_raise txn.endLsn t txn.touched self.state.tables

/-- A table's floor rises to the transaction's LSN exactly when it is truncated. -/
theorem advance_structural (t : String) :
    (self.advance txn).state.structural.level t =
      if t ∈ txn.truncated then max (self.state.structural.level t) txn.endLsn
      else self.state.structural.level t := by
  rw [advance, foldl_advanceChange]
  exact Watermarks.level_foldl_raise txn.endLsn t txn.truncated self.state.structural

/-- A column value's watermark is set to the transaction's LSN exactly when a change is
recorded under it. -/
theorem advance_values (key : String × String × String) :
    (self.advance txn).state.values.level key =
      if key ∈ txn.changes.flatMap self.valueKeys then txn.endLsn
      else self.state.values.level key := by
  rw [advance, foldl_advanceChange]
  convert Watermarks.level_foldl_insert txn.endLsn key (txn.changes.flatMap self.valueKeys)
    self.state.values

end Advance

/-! ## 4. Versions at the level of tables -/

section TableVersion

variable {self : VersionIndex} {txn : CommittedTransaction} {tables : List String}

/-- **The version of a list of tables is the largest of their watermarks.** -/
theorem tableVersion_le {n : Nat} :
    self.tableVersion tables ≤ n ↔ ∀ t ∈ tables,
      self.state.tables.level (toAsciiLowercase t) ≤ n ∧
        self.state.structural.level (toAsciiLowercase t) ≤ n := by
  have loop : ∀ (ts : List String) (m : Nat), ts.foldl (fun m table =>
      max (max m (self.state.tables.level (toAsciiLowercase table)))
        (self.state.structural.level (toAsciiLowercase table))) m ≤ n ↔
      m ≤ n ∧ ∀ t ∈ ts, self.state.tables.level (toAsciiLowercase t) ≤ n ∧
        self.state.structural.level (toAsciiLowercase t) ≤ n := by
    intro ts
    induction ts with
    | nil => simp
    | cons t ts ih =>
      intro m
      rw [List.foldl_cons, ih, List.forall_mem_cons]
      simp only [Nat.max_le]
      tauto
  exact (loop tables 0).trans (and_iff_right (Nat.zero_le n))

/-- Advancing never lowers a table-level version. -/
theorem tableVersion_le_advance :
    self.tableVersion tables ≤ (self.advance txn).tableVersion tables := by
  refine tableVersion_le.mpr ?_
  intro t ht
  obtain ⟨h1, h2⟩ := tableVersion_le.mp (Nat.le_refl ((self.advance txn).tableVersion tables)) t ht
  rw [advance_tables] at h1
  rw [advance_structural] at h2
  split at h1 <;> split at h2 <;> omega

/-- **Advancing a transaction that touches a listed table raises the version to its LSN.** -/
theorem endLsn_le_tableVersion {t : String} (ht : t ∈ tables)
    (htouched : toAsciiLowercase t ∈ txn.touched) :
    txn.endLsn ≤ (self.advance txn).tableVersion tables := by
  have h := (tableVersion_le.mp (Nat.le_refl ((self.advance txn).tableVersion tables)) t ht).1
  rw [advance_tables, if_pos htouched] at h
  omega

/-- Advancing a transaction that touches no listed table leaves the version as it is. -/
theorem tableVersion_advance_of_disjoint
    (h : ∀ t ∈ tables, toAsciiLowercase t ∉ txn.touched) :
    (self.advance txn).tableVersion tables = self.tableVersion tables := by
  refine Nat.le_antisymm (tableVersion_le.mpr fun t ht => ?_) tableVersion_le_advance
  have hs : toAsciiLowercase t ∉ txn.truncated := fun hc =>
    h t ht (CommittedTransaction.truncated_subset_touched hc)
  rw [advance_tables, if_neg (h t ht), advance_structural, if_neg hs]
  exact tableVersion_le.mp (Nat.le_refl _) t ht

end TableVersion

/-! ## 5. LSN order -/

/-- Every watermark is at most `lsn`. -/
structure BoundedBy (index : VersionIndex) (lsn : Nat) : Prop where
  tables : ∀ t, index.state.tables.level t ≤ lsn
  values : ∀ key, index.state.values.level key ≤ lsn
  structural : ∀ t, index.state.structural.level t ≤ lsn

namespace BoundedBy

variable {self : VersionIndex} {lsn : Nat}

/-- A fresh index is bounded by zero. -/
theorem new (pk : List (String × String)) (full : List String) :
    (VersionIndex.new pk full).BoundedBy 0 :=
  ⟨fun _ => Nat.le_refl 0, fun _ => Nat.le_refl 0, fun _ => Nat.le_refl 0⟩

/-- Advancing in LSN order moves the bound to the transaction's LSN. -/
theorem advance {txn : CommittedTransaction} (h : self.BoundedBy lsn) (hle : lsn ≤ txn.endLsn) :
    (self.advance txn).BoundedBy txn.endLsn where
  tables t := by
    have := h.tables t
    rw [advance_tables]
    split <;> omega
  values key := by
    have := h.values key
    rw [advance_values]
    split <;> omega
  structural t := by
    have := h.structural t
    rw [advance_structural]
    split <;> omega

/-- No version is beyond the bound. -/
theorem versionOf_le (h : self.BoundedBy lsn) (tables : List String)
    (eqFilters : List (String × String)) : self.versionOf tables eqFilters ≤ lsn := by
  unfold versionOf
  split
  · exact Nat.max_le.mpr ⟨h.values _, h.structural _⟩
  · exact tableVersion_le.mpr fun t _ => ⟨h.tables _, h.structural _⟩

/-- **In LSN order no version ever falls**, anchored or not. -/
theorem versionOf_le_advance {txn : CommittedTransaction} (h : self.BoundedBy lsn)
    (hle : lsn ≤ txn.endLsn) (tables : List String) (eqFilters : List (String × String)) :
    self.versionOf tables eqFilters ≤ (self.advance txn).versionOf tables eqFilters := by
  unfold versionOf
  rw [advance_anchor]
  split
  · rename_i key _
    have hv := h.values key
    have hvalues : self.state.values.level key ≤ (self.advance txn).state.values.level key := by
      rw [advance_values]
      split <;> omega
    have hstructural : self.state.structural.level key.1 ≤
        (self.advance txn).state.structural.level key.1 := by
      rw [advance_structural]
      split <;> omega
    omega
  · exact tableVersion_le_advance

end BoundedBy

/-- The version of a query that is not anchored is that of its tables. -/
theorem versionOf_eq_tableVersion {self : VersionIndex} {tables : List String}
    {eqFilters : List (String × String)} (h : self.anchor tables eqFilters = none) :
    self.versionOf tables eqFilters = self.tableVersion tables := by
  rw [versionOf, h]

/-! ## 6. The transactions a query hears of -/

/-- Whether a transaction moves the version of a query: at its anchor, a change recorded under
the anchored value or a truncation of the table; without one, a change of a listed table. -/
def hears (self : VersionIndex) (txn : CommittedTransaction) (tables : List String)
    (eqFilters : List (String × String)) : Bool :=
  match self.anchor tables eqFilters with
  | some key => (txn.changes.flatMap self.valueKeys).contains key || txn.truncated.contains key.1
  | none => tables.any fun t => txn.touched.contains (toAsciiLowercase t)

/-- What a query hears of depends on the configuration only. -/
theorem hears_congr {self other : VersionIndex} (hpk : other.pk = self.pk)
    (hfull : other.full = self.full) (txn : CommittedTransaction) (tables : List String)
    (eqFilters : List (String × String)) :
    other.hears txn tables eqFilters = self.hears txn tables eqFilters := by
  have hkeys : other.valueKeys = self.valueKeys := by
    funext change
    simp only [valueKeys, hpk, hfull]
  have hanchor : other.anchor tables eqFilters = self.anchor tables eqFilters := by
    simp only [anchor, isAnchorable, hpk, hfull]
  simp only [hears, hkeys, hanchor]

@[simp] theorem advance_hears (self : VersionIndex) (txn txn' : CommittedTransaction)
    (tables : List String) (eqFilters : List (String × String)) :
    (self.advance txn).hears txn' tables eqFilters = self.hears txn' tables eqFilters :=
  hears_congr rfl rfl _ _ _

/-- **In LSN order, the version of a query is the LSN of the last transaction it heard of.** -/
theorem versionOf_advance {self : VersionIndex} {lsn : Nat} {txn : CommittedTransaction}
    (h : self.BoundedBy lsn) (hle : lsn ≤ txn.endLsn) (tables : List String)
    (eqFilters : List (String × String)) :
    (self.advance txn).versionOf tables eqFilters =
      if self.hears txn tables eqFilters then txn.endLsn else self.versionOf tables eqFilters := by
  unfold hears versionOf
  rw [advance_anchor]
  split
  · rename_i key _
    have hv := h.values key
    have hs := h.structural key.1
    simp only [advance_values, advance_structural, List.contains_eq_mem, Bool.or_eq_true,
      decide_eq_true_eq]
    by_cases hkey : key ∈ txn.changes.flatMap self.valueKeys <;>
      by_cases htrunc : key.1 ∈ txn.truncated <;> simp only [hkey, htrunc, if_true, if_false,
        true_or, or_true, or_self] <;> omega
  · split
    · rename_i hany
      obtain ⟨t, ht, htouched⟩ := List.any_eq_true.mp hany
      refine Nat.le_antisymm ?_ (endLsn_le_tableVersion ht (by simpa using htouched))
      exact tableVersion_le.mpr fun t _ => ⟨(h.advance hle).tables _, (h.advance hle).structural _⟩
    · rename_i hnone
      exact tableVersion_advance_of_disjoint (by simpa using hnone)

end VersionIndex

end PgPaw
