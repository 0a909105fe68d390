/-
# The version index as a function of the log

`Version.lean` says what one `advance` does to a watermark.  This file says what the index
holds after a whole log, twice.

In LSN order the index equals its definition (`versionOf_log`): the version of a query is the
end LSN of the last transaction of the log that concerns it, read off the changes as logical
replication delivers them.

Out of order it need not.  `tables` and `structural` keep a maximum, so they see the log as a
set; `values` keeps what was written last.  `redelivery_iff` says which lists leave the same
versions, and which transaction may come late without lowering one.
-/
import PgPaw.Capability.Version

namespace PgPaw

/-! ## 1. What a change records -/

namespace RowChange

/-- The key columns and the row of a change. -/
def sides : RowChange → List Columns
  | .insert _ row => [row]
  | .update _ key row => [key, row]
  | .delete _ key => [key]
  | .truncate _ => []

/-- A change is to a table, in whatever case its name is written. -/
def isTo (change : RowChange) (table : String) : Bool :=
  toAsciiLowercase (changeTable change) == table

/-- A change truncates a table. -/
def truncates (change : RowChange) (table : String) : Bool :=
  match change with
  | .truncate name => toAsciiLowercase name == table
  | _ => false

/-- A change records a value for a column: any entry of that name does in a table with full
replica identity, the first one of a side otherwise. -/
def records (change : RowChange) (full : Bool) (column value : String) : Bool :=
  change.sides.any fun columns =>
    if full then
      columns.any fun (name, entry) => eqIgnoreAsciiCase name column && entry == some value
    else
      ((columns.find? fun (name, _) => eqIgnoreAsciiCase name column).map Prod.snd) ==
        some (some value)

end RowChange

/-- A table has full replica identity. -/
def isFull (full : List String) (table : String) : Bool :=
  full.any (eqIgnoreAsciiCase · table)

/-- The primary key of a table: of several entries the last one, in lower case. -/
def primaryKey (pk : List (String × String)) (table : String) : Option String :=
  (pk.reverse.find? fun (name, _) => eqIgnoreAsciiCase name table).map fun (_, column) =>
    toAsciiLowercase column

/-- A filter on this column may anchor a query over the table: any column with full replica
identity, the primary key otherwise. -/
def anchorable (pk : List (String × String)) (full : List String) (table column : String) :
    Bool :=
  isFull full table || primaryKey pk table == some column

namespace CommittedTransaction

/-- A transaction changes one of the tables. -/
def changesAny (txn : CommittedTransaction) (tables : List String) : Bool :=
  txn.changes.any fun change => tables.any fun table => change.isTo (toAsciiLowercase table)

/-- A transaction concerns a query.  Over one table, with a filter that may anchor, the first
one decides: the transaction truncates the table or records the value for the column.  Any
other query it concerns if it changes a listed table. -/
def concerns (txn : CommittedTransaction) (pk : List (String × String)) (full : List String)
    (tables : List String) (eqFilters : List (String × String)) : Bool :=
  match tables with
  | [table] => match eqFilters.find? fun (column, _) => anchorable pk full table column with
    | some (column, value) => txn.changes.any fun change =>
        change.truncates (toAsciiLowercase table) ||
          (change.isTo (toAsciiLowercase table) &&
            change.records (isFull full table) column value)
    | none => txn.changesAny tables
  | _ => txn.changesAny tables

end CommittedTransaction

/-- The largest end LSN of the transactions of a log that satisfy a condition, or `0`. -/
def largestLsn (log : List CommittedTransaction) (p : CommittedTransaction → Bool) : Nat :=
  ((log.filter p).map CommittedTransaction.endLsn).max?.getD 0

theorem largestLsn_le {log : List CommittedTransaction} {p : CommittedTransaction → Bool}
    {n : Nat} : largestLsn log p ≤ n ↔ ∀ txn ∈ log, p txn = true → txn.endLsn ≤ n := by
  rw [largestLsn]
  cases hmax : ((log.filter p).map CommittedTransaction.endLsn).max? with
  | none =>
    have hnil : log.filter p = [] := by simpa using List.max?_eq_none_iff.mp hmax
    simp only [Option.getD_none, Nat.zero_le, true_iff]
    intro txn htxn hp
    exact absurd (List.filter_eq_nil_iff.mp hnil txn htxn) (not_not.mpr hp)
  | some m =>
    rw [Option.getD_some, List.max?_le_iff hmax]
    simp only [List.mem_map, List.mem_filter]
    constructor
    · intro h txn htxn hp
      exact h _ ⟨txn, ⟨htxn, hp⟩, rfl⟩
    · rintro h _ ⟨txn, ⟨htxn, hp⟩, rfl⟩
      exact h txn htxn hp

namespace VersionIndex

/-- A log leaves the configuration alone. -/
@[simp] theorem foldl_advance_pk (self : VersionIndex) (log : List CommittedTransaction) :
    (log.foldl advance self).pk = self.pk := by
  induction log generalizing self with
  | nil => rfl
  | cons txn log ih => rw [List.foldl_cons, ih, advance_pk]

@[simp] theorem foldl_advance_full (self : VersionIndex) (log : List CommittedTransaction) :
    (log.foldl advance self).full = self.full := by
  induction log generalizing self with
  | nil => rfl
  | cons txn log ih => rw [List.foldl_cons, ih, advance_full]

/-! ## 2. The keys of `values` -/

/-- `new` keeps its key columns in lower case. -/
def LowerPk (self : VersionIndex) : Prop :=
  ∀ table pk, self.pk table = some pk → toAsciiLowercase pk = pk

/-- The key column `new` keeps for a name is that of the last entry of this name. -/
theorem pk_new (pk : List (String × String)) (full : List String) (table : String) :
    (new pk full).pk table =
      (pk.reverse.find? fun (name, _) => toAsciiLowercase name == table).map fun (_, column) =>
        toAsciiLowercase column := by
  rw [new]
  -- the fold takes the last entry last
  induction pk using List.reverseRecOn with
  | nil => rfl
  | append_singleton pk entry ih =>
    rw [List.foldl_concat, List.reverse_concat, List.find?_cons]
    by_cases hname : table = toAsciiLowercase entry.1
    · simp [hname]
    · have hne : (toAsciiLowercase entry.1 == table) = false := by simp [Ne.symm hname]
      simp only [if_neg hname, hne]
      exact ih

theorem lowerPk_new (pk : List (String × String)) (full : List String) :
    (new pk full).LowerPk := by
  intro table column h
  rw [pk_new] at h
  obtain ⟨entry, -, rfl⟩ := Option.map_eq_some_iff.mp h
  exact toAsciiLowercase_idem _

theorem contains_full_new (pk : List (String × String)) (full : List String) (table : String) :
    (new pk full).full.contains (toAsciiLowercase table) = isFull full table := by
  rw [Bool.eq_iff_iff]
  simp [new, isFull, eqIgnoreAsciiCase]

/-- Whether a filter may anchor, by the configuration. -/
theorem isAnchorable_new (pk : List (String × String)) (full : List String)
    (table column : String) :
    (new pk full).isAnchorable (toAsciiLowercase table) column =
      anchorable pk full table column := by
  have hkey : (new pk full).pk (toAsciiLowercase table) = primaryKey pk table := pk_new pk full _
  rw [isAnchorable, anchorable, contains_full_new, hkey]
  cases isFull full table with
  | true => rfl
  | false => cases primaryKey pk table <;> rfl

theorem LowerPk.foldl_advance {self : VersionIndex} (h : self.LowerPk)
    (log : List CommittedTransaction) : (log.foldl advance self).LowerPk := by
  intro table pk hpk
  rw [foldl_advance_pk] at hpk
  exact h table pk hpk

/-- A key `version_of` may anchor at. -/
def Anchorable (self : VersionIndex) (key : String × String × String) : Prop :=
  toAsciiLowercase key.1 = key.1 ∧ toAsciiLowercase key.2.1 = key.2.1 ∧
    (key.1 ∈ self.full ∨ self.pk key.1 = some key.2.1)

/-- The anchor of a query is anchorable. -/
theorem anchorable_of_anchor {self : VersionIndex} {tables : List String}
    {eqFilters : List (String × String)} {key : String × String × String} (hpk : self.LowerPk)
    (h : self.anchor tables eqFilters = some key) : self.Anchorable key := by
  unfold anchor at h
  split at h
  · rename_i table
    obtain ⟨⟨column, value⟩, hfind, rfl⟩ := Option.map_eq_some_iff.mp h
    have hp := List.find?_some hfind
    simp only [isAnchorable] at hp
    refine ⟨toAsciiLowercase_idem _, toAsciiLowercase_idem _, ?_⟩
    split at hp
    · rename_i hfull
      exact Or.inl (by simpa using hfull)
    · right
      obtain ⟨pk, hk, heq⟩ : ∃ pk, self.pk (toAsciiLowercase table) = some pk ∧ pk = column := by
        cases hk : self.pk (toAsciiLowercase table) with
        | none => simp [hk] at hp
        | some pk => exact ⟨pk, rfl, by simpa [hk] using hp⟩
      subst heq
      show self.pk (toAsciiLowercase table) = some (toAsciiLowercase pk)
      rw [hk, hpk _ _ hk]
  · exact absurd h (by simp)

/-- And every anchorable key is the anchor of a query. -/
theorem Anchorable.anchor {self : VersionIndex} {key : String × String × String}
    (h : self.Anchorable key) : self.anchor [key.1] [key.2] = some key := by
  obtain ⟨htable, hcolumn, hconf⟩ := h
  have hp : self.isAnchorable key.1 key.2.1 = true := by
    rw [isAnchorable]
    split
    · rfl
    · rename_i hfull
      rcases hconf with hf | hk
      · exact absurd (by simpa using hf) hfull
      · simp [hk]
  obtain ⟨table, column, value⟩ := key
  simp only at htable hcolumn hp
  simp [VersionIndex.anchor, htable, hcolumn, hp]

/-- A table with full replica identity: every column that has a value, side by side. -/
theorem valueKeys_of_full {self : VersionIndex} {change : RowChange}
    (hfull : toAsciiLowercase (changeTable change) ∈ self.full) :
    self.valueKeys change = (change.sides.flatMap presentColumns).map fun (column, value) =>
      (toAsciiLowercase (changeTable change), toAsciiLowercase column, value) := by
  cases change with
  | insert table row | delete table key => simp [valueKeys, changeColumns, RowChange.sides, hfull]
  | update table key row => simp [valueKeys, changeColumns, RowChange.sides, hfull]
  | truncate table => rfl

/-- Any other table that has a key column: its value, side by side. -/
theorem valueKeys_of_pk {self : VersionIndex} {change : RowChange} {pk : String}
    (hfull : toAsciiLowercase (changeTable change) ∉ self.full)
    (hpk : self.pk (toAsciiLowercase (changeTable change)) = some pk) :
    self.valueKeys change = (change.sides.filterMap (findValue · pk)).map fun value =>
      (toAsciiLowercase (changeTable change), pk, value) := by
  cases change with
  | insert table row => cases hr : findValue row pk <;>
      simp [valueKeys, pkValues, RowChange.sides, hfull, hpk, hr]
  | delete table key => cases hk : findValue key pk <;>
      simp [valueKeys, pkValues, RowChange.sides, hfull, hpk, hk]
  | update table key row => cases hk : findValue key pk <;> cases hr : findValue row pk <;>
      simp [valueKeys, pkValues, RowChange.sides, hfull, hpk, hk, hr]
  | truncate table => rfl

/-- And one without: nothing. -/
theorem valueKeys_of_noPk {self : VersionIndex} {change : RowChange}
    (hfull : toAsciiLowercase (changeTable change) ∉ self.full)
    (hpk : self.pk (toAsciiLowercase (changeTable change)) = none) :
    self.valueKeys change = [] := by
  cases change with
  | truncate table => rfl
  | insert _ _ | delete _ _ | update _ _ _ => simp [valueKeys, hfull, hpk]

/-- What is recorded is anchorable, and under the name of the change's table. -/
theorem anchorable_of_mem_valueKeys {self : VersionIndex} {change : RowChange}
    {key : String × String × String} (hlower : self.LowerPk) (h : key ∈ self.valueKeys change) :
    self.Anchorable key ∧ change.isTo key.1 = true := by
  rw [RowChange.isTo, beq_iff_eq]
  by_cases hfull : toAsciiLowercase (changeTable change) ∈ self.full
  · rw [valueKeys_of_full hfull] at h
    obtain ⟨⟨column, value⟩, -, rfl⟩ := List.mem_map.mp h
    exact ⟨⟨toAsciiLowercase_idem _, toAsciiLowercase_idem _, Or.inl hfull⟩, rfl⟩
  · cases hpk : self.pk (toAsciiLowercase (changeTable change)) with
    | none => simp [valueKeys_of_noPk hfull hpk] at h
    | some pk =>
      rw [valueKeys_of_pk hfull hpk] at h
      obtain ⟨value, -, rfl⟩ := List.mem_map.mp h
      exact ⟨⟨toAsciiLowercase_idem _, hlower _ _ hpk, Or.inr hpk⟩, rfl⟩

/-- **A change is recorded under an anchorable key exactly when it records the value for the
column.** -/
theorem mem_valueKeys {self : VersionIndex} {change : RowChange}
    {key : String × String × String} (hlower : self.LowerPk) (h : self.Anchorable key) :
    key ∈ self.valueKeys change ↔ change.isTo key.1 = true ∧
      change.records (self.full.contains key.1) key.2.1 key.2.2 = true := by
  by_cases ht : change.isTo key.1 = true
  · rw [and_iff_right ht]
    obtain ⟨table, column, value⟩ := key
    obtain ⟨-, hcolumn, hconf⟩ := h
    obtain rfl : toAsciiLowercase (changeTable change) = table := by
      simpa [RowChange.isTo] using ht
    simp only at hcolumn hconf ⊢
    by_cases hfull : toAsciiLowercase (changeTable change) ∈ self.full
    · have hname : ∀ name,
          eqIgnoreAsciiCase name column = true ↔ toAsciiLowercase name = column := by
        intro name
        rw [eqIgnoreAsciiCase, hcolumn, beq_iff_eq]
      rw [valueKeys_of_full hfull, List.contains_eq_mem, decide_eq_true hfull]
      simp only [RowChange.records, presentColumns, if_true, List.any_eq_true, Bool.and_eq_true,
        hname, beq_iff_eq, List.mem_map, List.mem_flatMap, List.mem_filterMap,
        Option.map_eq_some_iff, Prod.exists, Prod.mk.injEq, true_and]
      constructor
      · rintro ⟨_, _, ⟨columns, hs, name, entry, hmem, v, rfl, rfl, rfl⟩, rfl, rfl⟩
        exact ⟨columns, hs, name, some v, hmem, rfl, rfl⟩
      · rintro ⟨columns, hs, name, entry, hmem, hcol, rfl⟩
        exact ⟨name, value, ⟨columns, hs, name, some value, hmem, value, rfl, rfl, rfl⟩, hcol, rfl⟩
    · have hk := hconf.resolve_left hfull
      rw [valueKeys_of_pk hfull hk, List.contains_eq_mem, decide_eq_false hfull]
      simp only [RowChange.records, findValue, List.any_eq_true, beq_iff_eq, List.mem_map,
        List.mem_filterMap, Option.bind_eq_some_iff, Option.map_eq_some_iff, Prod.exists,
        Prod.mk.injEq, true_and, Bool.false_eq_true, if_false]
      constructor
      · rintro ⟨_, ⟨columns, hs, name, entry, hfind, rfl⟩, rfl⟩
        exact ⟨columns, hs, name, _, hfind, rfl⟩
      · rintro ⟨columns, hs, name, entry, hfind, rfl⟩
        exact ⟨value, ⟨columns, hs, name, some value, hfind, rfl⟩, rfl⟩
  · exact iff_of_false (fun hmem => ht (anchorable_of_mem_valueKeys hlower hmem).2)
      fun hmem => ht hmem.1

/-- At its anchor a query hears of the transactions that truncate the table or record the
value. -/
theorem hears_of_anchor {self : VersionIndex} (hlower : self.LowerPk) (txn : CommittedTransaction)
    {tables : List String} {eqFilters : List (String × String)} {key : String × String × String}
    (hanchor : self.anchor tables eqFilters = some key) :
    self.hears txn tables eqFilters = txn.changes.any fun change =>
      change.truncates key.1 || (change.isTo key.1 &&
        change.records (self.full.contains key.1) key.2.1 key.2.2) := by
  rw [Bool.eq_iff_iff, hears, hanchor]
  have ha := anchorable_of_anchor hlower hanchor
  have htrunc : key.1 ∈ txn.truncated ↔
      ∃ change ∈ txn.changes, change.truncates key.1 = true := by
    simp only [CommittedTransaction.truncated, List.mem_flatMap]
    refine exists_congr fun change => and_congr_right fun _ => ?_
    cases change with
    | truncate name =>
      simp only [RowChange.truncates, List.mem_singleton, beq_iff_eq]
      exact eq_comm
    | insert _ _ | delete _ _ | update _ _ _ => simp [RowChange.truncates]
  simp only [List.contains_eq_mem, Bool.or_eq_true, decide_eq_true_eq, List.mem_flatMap,
    List.any_eq_true, Bool.and_eq_true, mem_valueKeys hlower ha, htrunc]
  constructor
  · rintro (⟨change, hc, h⟩ | ⟨change, hc, h⟩)
    · exact ⟨change, hc, Or.inr h⟩
    · exact ⟨change, hc, Or.inl h⟩
  · rintro ⟨change, hc, h | h⟩
    · exact Or.inr ⟨change, hc, h⟩
    · exact Or.inl ⟨change, hc, h⟩

/-- Without one it hears of those that change a listed table. -/
theorem hears_of_unanchored {self : VersionIndex} (txn : CommittedTransaction)
    {tables : List String} {eqFilters : List (String × String)}
    (hanchor : self.anchor tables eqFilters = none) :
    self.hears txn tables eqFilters = txn.changesAny tables := by
  rw [Bool.eq_iff_iff, hears, hanchor, CommittedTransaction.changesAny]
  simp only [List.any_eq_true, List.contains_eq_mem, decide_eq_true_eq,
    CommittedTransaction.touched, List.mem_map, RowChange.isTo, beq_iff_eq]
  constructor
  · rintro ⟨t, ht, change, hc, he⟩
    exact ⟨change, hc, t, ht, he⟩
  · rintro ⟨change, hc, t, ht, he⟩
    exact ⟨t, ht, change, hc, he⟩

/-- A value is recorded for a column in whatever case its name is written. -/
theorem records_toAsciiLowercase (change : RowChange) (full : Bool) (column value : String) :
    change.records full (toAsciiLowercase column) value = change.records full column value := by
  simp only [RowChange.records, eqIgnoreAsciiCase, toAsciiLowercase_idem]

/-- **A query hears of exactly the transactions that concern it.** -/
theorem hears_eq_concerns (pk : List (String × String)) (full : List String)
    (txn : CommittedTransaction) (tables : List String) (eqFilters : List (String × String)) :
    (new pk full).hears txn tables eqFilters = txn.concerns pk full tables eqFilters := by
  rcases tables with _ | ⟨table, _ | ⟨table', tables⟩⟩
  case cons.nil =>
    have hfind : (new pk full).anchor [table] eqFilters =
        (eqFilters.find? fun (column, _) => anchorable pk full table column).map
          fun (column, value) => (toAsciiLowercase table, toAsciiLowercase column, value) := by
      simp only [anchor, isAnchorable_new]
    rw [CommittedTransaction.concerns]
    cases hfilter : eqFilters.find? fun (column, _) => anchorable pk full table column with
    | none =>
      rw [hfilter] at hfind
      exact hears_of_unanchored txn hfind
    | some filter =>
      rw [hfilter] at hfind
      rw [hears_of_anchor (lowerPk_new pk full) txn hfind]
      simp only [contains_full_new, records_toAsciiLowercase]
  all_goals exact hears_of_unanchored txn rfl

/-! ## 3. In LSN order -/

/-- A log from a bounded index on: its versions are bounded by what they were and by the
transactions the query hears of. -/
theorem versionOf_foldl_le {self : VersionIndex} {lsn n : Nat} {log : List CommittedTransaction}
    (h : self.BoundedBy lsn) (hlater : ∀ txn ∈ log, lsn ≤ txn.endLsn)
    (ordered : log.Pairwise fun a b => a.endLsn < b.endLsn) (tables : List String)
    (eqFilters : List (String × String)) :
    (log.foldl advance self).versionOf tables eqFilters ≤ n ↔
      self.versionOf tables eqFilters ≤ n ∧
        ∀ txn ∈ log, self.hears txn tables eqFilters = true → txn.endLsn ≤ n := by
  induction log generalizing self lsn with
  | nil => simp
  | cons txn log ih =>
    obtain ⟨hfirst, hrest⟩ := List.pairwise_cons.mp ordered
    have hle := hlater txn List.mem_cons_self
    have hbound := h.versionOf_le tables eqFilters
    rw [List.foldl_cons, ih (h.advance hle) (fun t ht => Nat.le_of_lt (hfirst t ht)) hrest,
      versionOf_advance h hle, List.forall_mem_cons]
    simp only [advance_hears]
    by_cases hheard : self.hears txn tables eqFilters = true
    · rw [if_pos hheard]
      constructor
      · rintro ⟨hn, hlog⟩
        exact ⟨by omega, fun _ => hn, hlog⟩
      · rintro ⟨-, hn, hlog⟩
        exact ⟨hn hheard, hlog⟩
    · rw [if_neg hheard]
      constructor
      · rintro ⟨hn, hlog⟩
        exact ⟨hn, fun hc => absurd hc hheard, hlog⟩
      · rintro ⟨hn, -, hlog⟩
        exact ⟨hn, hlog⟩

/-- **In LSN order, a version is the end LSN of the last transaction that concerns the query.** -/
theorem versionOf_eq_largestLsn (pk : List (String × String)) (full : List String)
    {log : List CommittedTransaction} (ordered : log.Pairwise fun a b => a.endLsn < b.endLsn)
    (tables : List String) (eqFilters : List (String × String)) :
    (log.foldl advance (new pk full)).versionOf tables eqFilters =
      largestLsn log fun txn => txn.concerns pk full tables eqFilters := by
  have hfresh := BoundedBy.new pk full
  refine eq_of_forall_ge_iff ?_
  intro n
  rw [versionOf_foldl_le hfresh (fun _ _ => Nat.zero_le _) ordered, largestLsn_le,
    and_iff_right ((hfresh.versionOf_le tables eqFilters).trans (Nat.zero_le n))]
  simp only [hears_eq_concerns]

/-- A transaction that concerns a query at its anchor changes a listed table. -/
theorem concerns_unanchored {pk : List (String × String)} {full : List String}
    {txn : CommittedTransaction} {tables : List String} {eqFilters : List (String × String)}
    (h : txn.concerns pk full tables eqFilters = true) :
    txn.concerns pk full tables [] = true := by
  have hany : txn.changesAny tables = true := by
    unfold CommittedTransaction.concerns at h
    split at h
    · rename_i table
      split at h
      · obtain ⟨change, hc, hconcern⟩ := List.any_eq_true.mp h
        have hto : change.isTo (toAsciiLowercase table) = true := by
          rcases Bool.or_eq_true _ _ ▸ hconcern with htrunc | hrecord
          · cases change with
            | truncate name => exact htrunc
            | insert _ _ | delete _ _ | update _ _ _ => cases htrunc
          · exact (Bool.and_eq_true _ _ ▸ hrecord).1
        exact List.any_eq_true.mpr ⟨change, hc, by simpa using hto⟩
      · exact h
    · exact h
  rcases tables with _ | ⟨table, _ | ⟨table', tables⟩⟩ <;> exact hany

/-- **The index equals its definition on the log**: along a log in LSN order the version of
every query is the largest end LSN of a transaction that concerns it, no version falls, and an
anchored version is at most that of its table. -/
theorem versionOf_log (pk : List (String × String)) (full : List String)
    (log : List CommittedTransaction) (ordered : log.Pairwise fun a b => a.endLsn < b.endLsn)
    (tables : List String) (eqFilters : List (String × String)) :
    (log.foldl advance (new pk full)).versionOf tables eqFilters =
        largestLsn log (fun txn => txn.concerns pk full tables eqFilters) ∧
      (∀ earlier, earlier <+: log →
        (earlier.foldl advance (new pk full)).versionOf tables eqFilters ≤
          (log.foldl advance (new pk full)).versionOf tables eqFilters) ∧
      (log.foldl advance (new pk full)).versionOf tables eqFilters ≤
        (log.foldl advance (new pk full)).versionOf tables [] := by
  refine ⟨versionOf_eq_largestLsn pk full ordered tables eqFilters, ?_, ?_⟩
  · intro earlier hearlier
    rw [versionOf_eq_largestLsn pk full ordered,
      versionOf_eq_largestLsn pk full (ordered.sublist hearlier.sublist), largestLsn_le]
    intro txn htxn hconcern
    exact largestLsn_le.mp (Nat.le_refl _) txn (hearlier.subset htxn) hconcern
  · rw [versionOf_eq_largestLsn pk full ordered, versionOf_eq_largestLsn pk full ordered,
      largestLsn_le]
    intro txn htxn hconcern
    exact largestLsn_le.mp (Nat.le_refl _) txn htxn (concerns_unanchored hconcern)

end VersionIndex

/-- `UPDATE users SET .. WHERE id = 1`, committed at an LSN. -/
def updateUser (endLsn : Nat) : CommittedTransaction :=
  ⟨endLsn, endLsn, [.update "Users" [] [("ID", some "1"), ("name", some "ann")]]⟩

/-- The same of another row. -/
def updateOther (endLsn : Nat) : CommittedTransaction :=
  ⟨endLsn, endLsn, [.update "Users" [] [("ID", some "2"), ("name", some "ann")]]⟩

/-- The filter on the name does not anchor, the one on the key does: the version is that of the
first transaction, and the one of the table that of the second. -/
theorem versionOf_log_updateUser :
    [updateUser 5, updateOther 10].Pairwise (fun a b => a.endLsn < b.endLsn) ∧
      ([updateUser 5, updateOther 10].foldl VersionIndex.advance
        (.new [("users", "id")] [])).versionOf ["USERS"] [("name", "ann"), ("id", "1")] = 5 ∧
      ([updateUser 5, updateOther 10].foldl VersionIndex.advance
        (.new [("users", "id")] [])).versionOf ["USERS"] [("name", "ann")] = 10 := by
  have ordered : [updateUser 5, updateOther 10].Pairwise fun a b => a.endLsn < b.endLsn := by
    simp [updateUser, updateOther]
  have hversion (eqFilters : List (String × String)) :=
    (VersionIndex.versionOf_log [("users", "id")] [] _ ordered ["USERS"] eqFilters).1
  refine ⟨ordered, ?_, ?_⟩
  · rw [hversion]
    decide
  · rw [hversion]
    decide

namespace VersionIndex

/-! ## 4. Out of order -/

/-- A mark that every transaction of one kind raises is, after a log, bounded by what it was and
by these transactions. -/
theorem foldl_advance_le {f : VersionIndex → Nat} {p : CommittedTransaction → Prop}
    [DecidablePred p] (hstep : ∀ (self : VersionIndex) (txn : CommittedTransaction),
      f (self.advance txn) = if p txn then max (f self) txn.endLsn else f self)
    {self : VersionIndex} {log : List CommittedTransaction} {n : Nat} :
    f (log.foldl advance self) ≤ n ↔
      f self ≤ n ∧ ∀ txn ∈ log, p txn → txn.endLsn ≤ n := by
  induction log generalizing self with
  | nil => simp
  | cons txn log ih =>
    rw [List.foldl_cons, ih, hstep, List.forall_mem_cons]
    split
    · rename_i hp
      simp only [Nat.max_le, hp, true_imp_iff, and_assoc]
    · rename_i hp
      simp only [hp, false_imp_iff, true_and]

/-- Such a mark sees a log as a set. -/
theorem foldl_advance_congr {f : VersionIndex → Nat} {p : CommittedTransaction → Prop}
    [DecidablePred p] (hstep : ∀ (self : VersionIndex) (txn : CommittedTransaction),
      f (self.advance txn) = if p txn then max (f self) txn.endLsn else f self)
    {self : VersionIndex} {log log' : List CommittedTransaction}
    (same : ∀ txn, txn ∈ log ↔ txn ∈ log') :
    f (log.foldl advance self) = f (log'.foldl advance self) := by
  refine eq_of_forall_ge_iff ?_
  intro n
  rw [foldl_advance_le hstep, foldl_advance_le hstep]
  simp only [same]

end VersionIndex

/-- `advance` records a transaction under a key of `values`. -/
def CommittedTransaction.recorded (txn : CommittedTransaction) (index : VersionIndex)
    (key : String × String × String) : Bool :=
  (txn.changes.flatMap index.valueKeys).contains key

namespace VersionIndex

/-- The end LSN of the last transaction of a list that is recorded under a key. -/
def lastRecorded (self : VersionIndex) (key : String × String × String)
    (log : List CommittedTransaction) : Option Nat :=
  (log.reverse.find? (·.recorded self key)).map CommittedTransaction.endLsn

/-- The end LSN of the last truncation of a table, in LSN order: those the index has seen and
those of a list. -/
def floorOf (self : VersionIndex) (table : String) (log : List CommittedTransaction) : Nat :=
  max (self.state.structural.level table) (largestLsn log (·.truncated.contains table))

/-- The order and the repetitions of two lists make no difference: under every key, the last
transaction recorded has the same end LSN in both, or a later truncation hides it in both. -/
def SameMarks (self : VersionIndex) (log log' : List CommittedTransaction) : Prop :=
  ∀ key, self.lastRecorded key log = self.lastRecorded key log' ∨
    ∀ lsn, lsn ∈ self.lastRecorded key log ∨ lsn ∈ self.lastRecorded key log' →
      lsn ≤ self.floorOf key.1 log

section Marks

variable {self : VersionIndex}

/-- The floor of a table after a list. -/
theorem structural_foldl (table : String) (log : List CommittedTransaction) :
    (log.foldl advance self).state.structural.level table = self.floorOf table log := by
  refine eq_of_forall_ge_iff ?_
  intro n
  rw [foldl_advance_le (f := fun index => index.state.structural.level table)
    (p := fun txn => table ∈ txn.truncated) fun self txn => self.advance_structural txn table,
    floorOf, Nat.max_le, largestLsn_le]
  simp

/-- The mark of a column value after a list: what was written last. -/
theorem values_foldl (key : String × String × String) (log : List CommittedTransaction) :
    (log.foldl advance self).state.values.level key =
      (self.lastRecorded key log).getD (self.state.values.level key) := by
  induction log using List.reverseRecOn with
  | nil => rfl
  | append_singleton log txn ih =>
    have hkeys : (log.foldl advance self).valueKeys = self.valueKeys := by
      funext change
      simp only [valueKeys, foldl_advance_pk, foldl_advance_full]
    rw [List.foldl_append, List.foldl_cons, List.foldl_nil, advance_values, hkeys, ih]
    simp only [lastRecorded, List.reverse_append, List.reverse_singleton, List.singleton_append,
      List.find?_cons, CommittedTransaction.recorded, List.contains_eq_mem]
    split
    · rename_i h
      simp [h]
    · rename_i h
      simp [h]

/-- The version of a query at its anchor, after a list. -/
theorem versionOf_foldl_of_anchor {tables : List String} {eqFilters : List (String × String)}
    {key : String × String × String} (h : self.anchor tables eqFilters = some key)
    (log : List CommittedTransaction) :
    (log.foldl advance self).versionOf tables eqFilters =
      max ((self.lastRecorded key log).getD (self.state.values.level key))
        (self.floorOf key.1 log) := by
  have hanchor : (log.foldl advance self).anchor tables eqFilters = some key := by
    rw [← h]
    simp only [anchor, isAnchorable, foldl_advance_pk, foldl_advance_full]
  simp only [versionOf, hanchor, values_foldl, structural_foldl]

/-- Without an anchor, a version sees a list as a set. -/
theorem versionOf_foldl_of_unanchored {tables : List String} {eqFilters : List (String × String)}
    (h : self.anchor tables eqFilters = none) {log log' : List CommittedTransaction}
    (same : ∀ txn, txn ∈ log ↔ txn ∈ log') :
    (log.foldl advance self).versionOf tables eqFilters =
      (log'.foldl advance self).versionOf tables eqFilters := by
  have hanchor : ∀ l : List CommittedTransaction,
      (l.foldl advance self).anchor tables eqFilters = none := by
    intro l
    rw [← h]
    simp only [anchor, isAnchorable, foldl_advance_pk, foldl_advance_full]
  have htables : ∀ t, (log.foldl advance self).state.tables.level t =
      (log'.foldl advance self).state.tables.level t := fun t =>
    foldl_advance_congr (f := fun index => index.state.tables.level t)
      (p := fun txn => t ∈ txn.touched) (fun self txn => self.advance_tables txn t) same
  have hfloor : ∀ t, (log.foldl advance self).state.structural.level t =
      (log'.foldl advance self).state.structural.level t := fun t =>
    foldl_advance_congr (f := fun index => index.state.structural.level t)
      (p := fun txn => t ∈ txn.truncated) (fun self txn => self.advance_structural txn t) same
  rw [versionOf_eq_tableVersion (hanchor log), versionOf_eq_tableVersion (hanchor log')]
  simp only [tableVersion, htables, hfloor]

/-- The floor sees a list as a set. -/
theorem floorOf_congr {log log' : List CommittedTransaction}
    (same : ∀ txn, txn ∈ log ↔ txn ∈ log') (table : String) :
    self.floorOf table log = self.floorOf table log' := by
  rw [← structural_foldl, ← structural_foldl]
  exact foldl_advance_congr (f := fun index => index.state.structural.level table)
    (p := fun txn => table ∈ txn.truncated) (fun self txn => self.advance_structural txn table) same

/-- A key under which a list is recorded. -/
theorem exists_recorded {key : String × String × String} {log : List CommittedTransaction}
    {lsn : Nat} (h : self.lastRecorded key log = some lsn) :
    ∃ txn ∈ log, txn.recorded self key = true := by
  obtain ⟨txn, hfind, -⟩ := Option.map_eq_some_iff.mp h
  have hrecorded := List.find?_some hfind
  exact ⟨txn, List.mem_reverse.mp (List.mem_of_find?_eq_some hfind), hrecorded⟩

/-- Two lists of the same transactions are recorded under the same keys. -/
theorem lastRecorded_isSome_congr {key : String × String × String}
    {log log' : List CommittedTransaction} (same : ∀ txn, txn ∈ log ↔ txn ∈ log') :
    (self.lastRecorded key log).isSome = (self.lastRecorded key log').isSome := by
  simp only [lastRecorded, Option.isSome_map]
  rw [Bool.eq_iff_iff]
  simp only [List.find?_isSome, List.mem_reverse, same]

/-- A recorded key is the anchor of a query. -/
theorem anchorable_of_recorded (hlower : self.LowerPk) {key : String × String × String}
    {txn : CommittedTransaction} (h : txn.recorded self key = true) : self.Anchorable key := by
  simp only [CommittedTransaction.recorded, List.contains_eq_mem, decide_eq_true_eq,
    List.mem_flatMap] at h
  obtain ⟨change, -, hkey⟩ := h
  exact (anchorable_of_mem_valueKeys hlower hkey).1

/-- Two lists of the same transactions leave the same versions exactly when they leave the
same marks. -/
theorem versions_eq_iff (hlower : self.LowerPk) {log log' : List CommittedTransaction}
    (same : ∀ txn, txn ∈ log ↔ txn ∈ log') :
    (∀ tables eqFilters, (log.foldl advance self).versionOf tables eqFilters =
        (log'.foldl advance self).versionOf tables eqFilters) ↔ self.SameMarks log log' := by
  constructor
  · intro heq key
    have hsome : (self.lastRecorded key log).isSome = (self.lastRecorded key log').isSome :=
      lastRecorded_isSome_congr same
    cases hl : self.lastRecorded key log with
    | none =>
      rw [hl] at hsome
      exact Or.inl (Option.not_isSome_iff_eq_none.mp (by simp [← hsome])).symm
    | some lsn =>
      rw [hl] at hsome
      obtain ⟨lsn', hl'⟩ := Option.isSome_iff_exists.mp hsome.symm
      obtain ⟨txn, -, hrecorded⟩ := exists_recorded hl
      have hanchor := (anchorable_of_recorded hlower hrecorded).anchor
      have hversion := heq [key.1] [key.2]
      rw [versionOf_foldl_of_anchor hanchor, versionOf_foldl_of_anchor hanchor, hl, hl',
        ← floorOf_congr same, Option.getD_some, Option.getD_some] at hversion
      rw [hl']
      by_cases he : lsn = lsn'
      · exact Or.inl (congrArg some he)
      · refine Or.inr ?_
        simp only [Option.mem_some_iff]
        rintro m (rfl | rfl) <;> omega
  · intro hmarks tables eqFilters
    cases hanchor : self.anchor tables eqFilters with
    | none => exact versionOf_foldl_of_unanchored hanchor same
    | some key =>
      rw [versionOf_foldl_of_anchor hanchor, versionOf_foldl_of_anchor hanchor,
        ← floorOf_congr same]
      rcases hmarks key with heq | hhidden
      · rw [heq]
      · have hsome : (self.lastRecorded key log).isSome = (self.lastRecorded key log').isSome :=
          lastRecorded_isSome_congr same
        cases hl : self.lastRecorded key log with
        | none =>
          rw [hl] at hsome
          rw [Option.not_isSome_iff_eq_none.mp (by simp [← hsome] :
            ¬ (self.lastRecorded key log').isSome = true)]
        | some lsn =>
          rw [hl] at hsome
          obtain ⟨lsn', hl'⟩ := Option.isSome_iff_exists.mp hsome.symm
          have h1 := hhidden lsn (Or.inl hl)
          have h2 := hhidden lsn' (Or.inr hl')
          rw [hl', Option.getD_some, Option.getD_some, Nat.max_eq_right h1, Nat.max_eq_right h2]

/-- Advancing a transaction lowers no version exactly when it overwrites no mark that is above
both its own end LSN and the floor. -/
theorem versionOf_le_advance_iff (hlower : self.LowerPk) (txn : CommittedTransaction) :
    (∀ tables eqFilters, self.versionOf tables eqFilters ≤
        (self.advance txn).versionOf tables eqFilters) ↔
      ∀ key, txn.recorded self key = true →
        self.state.values.level key ≤ max txn.endLsn (self.floorOf key.1 [txn]) := by
  have hlast : ∀ key, self.lastRecorded key [txn] =
      if txn.recorded self key then some txn.endLsn else none := by
    intro key
    cases h : txn.recorded self key <;> simp [lastRecorded, h]
  have hfloor : ∀ table, self.state.structural.level table ≤ self.floorOf table [txn] := by
    intro table
    exact Nat.le_max_left _ _
  -- both versions, at one anchor
  have hanchored : ∀ {tables eqFilters key}, self.anchor tables eqFilters = some key →
      (self.versionOf tables eqFilters ≤ (self.advance txn).versionOf tables eqFilters ↔
        (txn.recorded self key = true →
          self.state.values.level key ≤ max txn.endLsn (self.floorOf key.1 [txn]))) := by
    intro tables eqFilters key hanchor
    have hnow : self.versionOf tables eqFilters =
        max (self.state.values.level key) (self.state.structural.level key.1) := by
      simp only [versionOf, hanchor]
    have hthen := versionOf_foldl_of_anchor hanchor [txn]
    rw [List.foldl_cons, List.foldl_nil, hlast] at hthen
    have := hfloor key.1
    rw [hnow, hthen]
    by_cases hrecorded : txn.recorded self key = true
    · rw [if_pos hrecorded, Option.getD_some]
      simp only [hrecorded, true_imp_iff]
      omega
    · rw [if_neg hrecorded, Option.getD_none]
      exact iff_of_true (by omega) fun h => absurd h hrecorded
  constructor
  · intro h key hrecorded
    exact (hanchored (anchorable_of_recorded hlower hrecorded).anchor).mp (h _ _) hrecorded
  · intro h tables eqFilters
    cases hanchor : self.anchor tables eqFilters with
    | some key => exact (hanchored hanchor).mpr (h key)
    | none =>
      rw [versionOf_eq_tableVersion hanchor, versionOf_eq_tableVersion (by simpa using hanchor)]
      exact tableVersion_le_advance

end Marks

/-- **Redelivery and order make no difference exactly when they leave the same marks.**  Two
lists of the same transactions, advanced from the same index, give every query the same version
if and only if `SameMarks` holds of them; and a transaction lowers no version if and only if
every mark it overwrites is at most its end LSN or hidden by a truncation. -/
theorem redelivery_iff (pk : List (String × String)) (full : List String)
    (past log log' : List CommittedTransaction) (same : ∀ txn, txn ∈ log ↔ txn ∈ log')
    (txn : CommittedTransaction) :
    let self := past.foldl advance (new pk full)
    ((∀ tables eqFilters, (log.foldl advance self).versionOf tables eqFilters =
        (log'.foldl advance self).versionOf tables eqFilters) ↔ self.SameMarks log log') ∧
      ((∀ tables eqFilters, self.versionOf tables eqFilters ≤
        (self.advance txn).versionOf tables eqFilters) ↔
        ∀ key, txn.recorded self key = true →
          self.state.values.level key ≤ max txn.endLsn (self.floorOf key.1 [txn])) := by
  intro self
  have hlower : self.LowerPk := (lowerPk_new pk full).foldl_advance past
  exact ⟨versions_eq_iff hlower same, versionOf_le_advance_iff hlower txn⟩

end VersionIndex

/-- The index of a server on `users`, before any transaction. -/
def usersVersions : VersionIndex := .new [("users", "id")] []

theorem redelivery_iff_updateUser :
    (∀ txn, txn ∈ [updateUser 5, updateUser 10] ↔
        txn ∈ [updateUser 5, updateUser 5, updateUser 10]) ∧
      ∀ tables eqFilters,
        ([updateUser 5, updateUser 10].foldl VersionIndex.advance usersVersions).versionOf
            tables eqFilters =
          ([updateUser 5, updateUser 5, updateUser 10].foldl VersionIndex.advance
            usersVersions).versionOf tables eqFilters := by
  have same : ∀ txn, txn ∈ [updateUser 5, updateUser 10] ↔
      txn ∈ [updateUser 5, updateUser 5, updateUser 10] := by
    intro txn
    simp
  refine ⟨same, (VersionIndex.redelivery_iff [("users", "id")] [] [] _ _ same
    (updateUser 5)).1.mpr ?_⟩
  intro key
  left
  simp only [VersionIndex.lastRecorded, List.reverse_cons, List.reverse_nil, List.nil_append,
    List.cons_append, List.find?_cons, List.find?_nil]
  split
  · rfl
  · split <;> rfl

/-- **A redelivered transaction lowers a version.**  After two updates of one row, the first
is delivered again: the version falls from `10` to `5`. -/
theorem redelivery_lowers :
    (∀ txn, txn ∈ [updateUser 5, updateUser 10] ↔
        txn ∈ [updateUser 5, updateUser 10, updateUser 5]) ∧
      ([updateUser 5, updateUser 10].foldl VersionIndex.advance usersVersions).versionOf
        ["users"] [("id", "1")] = 10 ∧
      ([updateUser 5, updateUser 10, updateUser 5].foldl VersionIndex.advance
        usersVersions).versionOf ["users"] [("id", "1")] = 5 := by
  refine ⟨fun txn => ?_, by decide, by decide⟩
  simp only [List.mem_cons, List.not_mem_nil, or_false]
  tauto

end PgPaw
