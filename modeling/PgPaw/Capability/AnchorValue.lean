/-
# The value a query is anchored at

`collect_eq_filters` records an equality `column = operand` of the outermost `WHERE` with the
operand's text: the literal as it is spelled, or the bound parameter.  `advance` records a
change under the text PostgreSQL prints for the columns it carries.  The two texts are compared
as strings, so a change is missed when PostgreSQL holds the values equal and prints another
text.

A column type is what the values of the type print as and which of them an operand equals.
`anchor_sound_iff` says, for any type and any operand, when no change can be missed; section 5
reads the condition off for four types.
-/
import Mathlib.Data.List.DropRight
import PgPaw.Capability.TableExtraction
import PgPaw.Capability.Version

namespace PgPaw

open Sql

/-! ## 1. The equalities of a `WHERE` -/

/-- The equalities `collect_eq_filters` looks at, last first. -/
def equalities : Expr → List (Expr × Expr)
  | .binaryOp left .and right => equalities right ++ equalities left
  | .binaryOp left .eq right => [(left, right)]
  | .nested inner => equalities inner
  | _ => []

/-- Each contributes its filter. -/
theorem eqFilters_eq_flatMap (params : List Json) : ∀ e : Expr,
    eqFilters params e = (equalities e).flatMap fun (left, right) => eqFilter params left right
  | .binaryOp left .and right => by
    rw [eqFilters, equalities, List.flatMap_append, eqFilters_eq_flatMap params right,
      eqFilters_eq_flatMap params left]
  | .binaryOp left .eq right => by simp [eqFilters, equalities]
  | .nested inner => by rw [eqFilters, equalities, eqFilters_eq_flatMap params inner]
  | .binaryOp _ (.other _) _ | .identifier _ | .compoundIdentifier _ | .value _ | .function _ _
  | .subquery _ | .exists _ _ | .inSubquery _ _ _ | .form _ _ => by simp [eqFilters, equalities]

/-- The filters of a query are those of its `WHERE`. -/
theorem queryFilters_select {r d : Bool} {cs : List Cte} {obs ls don g h : List Expr}
    {lk : List LockClause} {ps : List SelectItem} {into : Option ObjectName}
    {f : List TableWithJoins} {w : Expr} (params : List Json) :
    queryFilters (.mk r cs (.select (.mk d don ps into f (some w) g h)) obs ls lk) params =
      eqFilters params w := by
  simp only [queryFilters, Query.body, Select.selection, collectEqFilters_eq, List.nil_append,
    List.flatMap_cons, List.flatMap_nil, List.append_nil]

/-- The column and the operand of an equality, whichever side they are on. -/
def eqSides (params : List Json) (left right : Expr) : Option (Expr × Expr) :=
  match identName left, filterValue right params with
  | some _, some _ => some (left, right)
  | _, _ => match identName right, filterValue left params with
    | some _, some _ => some (right, left)
    | _, _ => none

/-- The name of the column an identifier refers to. -/
def columnOf : Expr → Option String
  | .identifier ident => some ident.folded
  | .compoundIdentifier parts => parts.getLast?.map Ident.folded
  | _ => none

/-- The code has the name in lower case. -/
theorem identName_eq (e : Expr) : identName e = (columnOf e).map toAsciiLowercase := by
  cases e with
  | identifier ident => simp [identName, columnOf]
  | compoundIdentifier parts => cases h : parts.getLast? <;> simp [identName, columnOf, h]
  | _ => rfl

/-! ## 2. Column types and tables -/

/-- A type of column: what a value prints as, and which values an operand equals. -/
structure ColumnType (Val : Type) where
  out : Val → String
  equals : Expr → List Json → Val → Prop

/-- What `scan_schema` and the changes see of a table. -/
structure TableSchema where
  relname : String
  columns : List String
  /-- The columns of the primary key. -/
  key : List String
  /-- `REPLICA IDENTITY FULL`. -/
  full : Bool
  deriving DecidableEq, Repr

/-- The name the index knows it by. -/
def TableSchema.lowerName (schema : TableSchema) : String := toAsciiLowercase schema.relname

/-- The index was built from `scan_schema`: a key of one column is kept, and no other. -/
structure Describes (index : VersionIndex) (schema : TableSchema) : Prop where
  full : index.full.contains schema.lowerName = schema.full
  pk : index.pk schema.lowerName = match schema.key with
    | [column] => some (toAsciiLowercase column)
    | _ => none

/-- A row: its columns in order, each with its value or `NULL`. -/
abbrev Row (Val : Type) := List (String × Option Val)

/-- What a statement does to one row. -/
inductive RowWrite (Val : Type)
  | insert (new : Row Val)
  | update (old new : Row Val)
  | delete (old : Row Val)

variable {Val : Type}

/-- The row before and the row after. -/
def RowWrite.rows : RowWrite Val → List (Row Val)
  | insert row | delete row => [row]
  | update old new => [old, new]

/-- The columns of a row as they are printed. -/
def printed (out : Val → String) (row : Row Val) : Columns :=
  row.map fun (column, value) => (column, value.map out)

/-- The old columns a change carries: all of them, or those of the key. -/
def oldKey (schema : TableSchema) (row : Row Val) : Row Val :=
  if schema.full then row else row.filter fun (column, _) => schema.key.contains column

/-- The change that reaches the server. -/
def RowWrite.change (out : Val → String) (schema : TableSchema) : RowWrite Val → RowChange
  | insert new => .insert schema.relname (printed out new)
  | update old new => .update schema.relname (printed out (oldKey schema old)) (printed out new)
  | delete old => .delete schema.relname (printed out (oldKey schema old))

/-- A write of rows of the table. -/
def RowWrite.Fits (schema : TableSchema) (w : RowWrite Val) : Prop :=
  ∀ row ∈ w.rows, row.map Prod.fst = schema.columns

/-- A write that touches a row whose column has one of the values. -/
def RowWrite.Touches (column : String) (values : Val → Prop) (w : RowWrite Val) : Prop :=
  ∃ row ∈ w.rows, ∃ x, row.lookup column = some (some x) ∧ values x

/-! ## 3. What the index records of a write -/

/-- `find_value` on a printed row. -/
theorem findValue_printed (out : Val → String) (row : Row Val) (pk : String) :
    findValue (printed out row) pk =
      (row.find? fun (column, _) => eqIgnoreAsciiCase column pk).bind fun (_, value) =>
        value.map out := by
  rw [findValue, printed, List.find?_map, Option.bind_map]
  rfl

/-- The entry of the first column of a row that satisfies a condition. -/
theorem find?_of_lookup {p : String → Bool} {column : String} {value : Option Val} :
    ∀ {row : Row Val}, (row.map Prod.fst).find? p = some column →
      row.lookup column = some value → row.find? (fun (c, _) => p c) = some (column, value)
  | [], h, _ => absurd h nofun
  | (c, v) :: row, hfind, hlookup => by
    rw [List.map_cons, List.find?_cons] at hfind
    rw [List.find?_cons]
    by_cases hp : p c = true
    · simp only [hp] at hfind ⊢
      obtain rfl := Option.some.inj hfind
      simpa using hlookup
    · have hpf : p c = false := by simpa using hp
      simp only [hpf] at hfind ⊢
      have hne : column ≠ c := by
        rintro rfl
        exact hp (List.find?_some hfind)
      have hb : (column == c) = false := by simpa using hne
      rw [List.lookup_cons, hb] at hlookup
      exact find?_of_lookup hfind hlookup

/-- The entry of a column is in the row. -/
theorem mem_of_lookup {column : String} {value : Option Val} : ∀ {row : Row Val},
    row.lookup column = some value → (column, value) ∈ row
  | [], h => absurd h nofun
  | (c, v) :: row, h => by
    rw [List.lookup_cons] at h
    by_cases hc : column = c
    · subst hc
      simp only [beq_self_eq_true] at h
      exact Option.some.inj h ▸ List.mem_cons_self
    · have hb : (column == c) = false := by simpa using hc
      rw [hb] at h
      exact List.mem_cons_of_mem _ (mem_of_lookup h)

/-- A value of a row is among the columns it prints. -/
theorem mem_presentColumns (out : Val → String) {row : Row Val} {column : String} {x : Val}
    (h : row.lookup column = some (some x)) :
    (column, out x) ∈ presentColumns (printed out row) := by
  rw [presentColumns, List.mem_filterMap]
  exact ⟨(column, some (out x)), List.mem_map.mpr ⟨_, mem_of_lookup h, rfl⟩, rfl⟩

/-- Whether `find_value` on the rows of the table finds this column, for updates and deletes
too: the column alone is the key, and no column before it has its name in another case. -/
def FindsKey (schema : TableSchema) (column : String) : Prop :=
  schema.key = [column] ∧ schema.columns.find? (eqIgnoreAsciiCase · column) = some column

/-- `find_value` does not see the case of the name it looks for. -/
theorem eqIgnoreAsciiCase_lower (c column : String) :
    eqIgnoreAsciiCase c (toAsciiLowercase column) = eqIgnoreAsciiCase c column := by
  simp [eqIgnoreAsciiCase]

/-- In a row of the table, `find_value` finds the value of the key. -/
theorem findValue_row (out : Val → String) {schema : TableSchema} {column : String}
    {row : Row Val} {x : Val} (hfinds : FindsKey schema column)
    (hfits : row.map Prod.fst = schema.columns) (h : row.lookup column = some (some x)) :
    findValue (printed out row) (toAsciiLowercase column) = some (out x) := by
  have hfind := find?_of_lookup (hfits ▸ hfinds.2) h
  simp only [findValue_printed, eqIgnoreAsciiCase_lower, hfind, Option.bind_some, Option.map_some]

/-- The first entry with the name of a column. -/
theorem find?_name_of_lookup {column : String} {value : Option Val} {row : Row Val}
    (h : row.lookup column = some value) :
    row.find? (fun (c, _) => c == column) = some (column, value) := by
  refine find?_of_lookup (p := (· == column)) ?_ h
  have hmem : column ∈ row.map Prod.fst := List.mem_map_of_mem (mem_of_lookup h)
  cases hfind : (row.map Prod.fst).find? (· == column) with
  | none => exact absurd (List.find?_eq_none.mp hfind column hmem) (by simp)
  | some c => exact congrArg some (by simpa using List.find?_some hfind)

/-- And among the key columns of an old row. -/
theorem findValue_oldKey (out : Val → String) {schema : TableSchema} {column : String}
    {row : Row Val} {x : Val} (hfull : schema.full = false) (hfinds : FindsKey schema column)
    (h : row.lookup column = some (some x)) :
    findValue (printed out (oldKey schema row)) (toAsciiLowercase column) = some (out x) := by
  have hfind : (oldKey schema row).find?
      (fun (c, _) => eqIgnoreAsciiCase c (toAsciiLowercase column)) = some (column, some x) := by
    rw [oldKey, if_neg (by simp [hfull]), List.find?_filter, ← find?_name_of_lookup h]
    congr 1
    funext (c, v)
    simp only [hfinds.1, eqIgnoreAsciiCase_lower]
    by_cases hc : c = column <;> simp [hc, eqIgnoreAsciiCase]
  rw [findValue_printed, hfind]
  rfl

section Anchor

variable {types : ColumnType Val} {self : VersionIndex} {schema : TableSchema}
  {column : String} {x : Val} {w : RowWrite Val}

/-- **A write of a row with the value is recorded under what the value prints as**, when the
whole row is recorded, or the column is the key. -/
theorem mem_valueKeys (hself : Describes self schema)
    (hfound : schema.full = true ∨ FindsKey schema column) (hfits : w.Fits schema)
    {row : Row Val} (hrow : row ∈ w.rows) (hx : row.lookup column = some (some x)) :
    (schema.lowerName, toAsciiLowercase column, types.out x) ∈
      self.valueKeys (w.change types.out schema) := by
  by_cases hfull : schema.full = true
  · -- all columns are recorded, of the old row as of the new
    have hcontains : self.full.contains (toAsciiLowercase schema.relname) = true :=
      hself.full.trans hfull
    have hkey : ∀ old : Row Val, oldKey schema old = old := fun old => if_pos hfull
    have hcolumn : (column, types.out x) ∈ changeColumns (w.change types.out schema) := by
      have hmem := mem_presentColumns types.out hx
      cases w with
      | insert new =>
        obtain rfl := List.mem_singleton.mp hrow
        exact hmem
      | update old new =>
        simp only [RowWrite.change, hkey, changeColumns]
        rcases List.mem_cons.mp hrow with rfl | hrow
        · exact List.mem_append_left _ hmem
        · obtain rfl := List.mem_singleton.mp hrow
          exact List.mem_append_right _ hmem
      | delete old =>
        obtain rfl := List.mem_singleton.mp hrow
        simpa only [RowWrite.change, hkey, changeColumns] using hmem
    cases w <;>
      simp only [RowWrite.change, VersionIndex.valueKeys, changeTable, hcontains, if_true] <;>
      exact List.mem_map.mpr ⟨_, hcolumn, rfl⟩
  · -- the value of the key is recorded, of the old row as of the new
    have hfinds := hfound.resolve_left hfull
    have hfull : schema.full = false := by simpa using hfull
    have hcontains : self.full.contains (toAsciiLowercase schema.relname) = false :=
      hself.full.trans hfull
    have hpk : self.pk (toAsciiLowercase schema.relname) = some (toAsciiLowercase column) := by
      have hconfig := hself.pk
      rwa [hfinds.1] at hconfig
    have hvalue : types.out x ∈
        pkValues (w.change types.out schema) (toAsciiLowercase column) := by
      have hnew := findValue_row types.out hfinds (hfits row hrow) hx
      have hold := findValue_oldKey types.out hfull hfinds hx
      cases w with
      | insert new =>
        obtain rfl := List.mem_singleton.mp hrow
        simp only [RowWrite.change, pkValues, hnew, Option.mem_toList]
      | update old new =>
        simp only [RowWrite.change, pkValues, List.mem_append]
        rcases List.mem_cons.mp hrow with rfl | hrow
        · exact Or.inl (by simp only [hold, Option.mem_toList])
        · obtain rfl := List.mem_singleton.mp hrow
          exact Or.inr (by simp only [hnew, Option.mem_toList])
      | delete old =>
        obtain rfl := List.mem_singleton.mp hrow
        simp only [RowWrite.change, pkValues, hold, Option.mem_toList]
    cases w <;>
      simp only [RowWrite.change, VersionIndex.valueKeys, changeTable, hcontains, hpk,
        Bool.false_eq_true, if_false] <;>
      exact List.mem_map.mpr ⟨_, hvalue, rfl⟩

/-- A row with the value in one column, and `NULL` in all others. -/
def oneValueRow (schema : TableSchema) (column : String) (x : Val) : Row Val :=
  schema.columns.map fun c => (c, if c = column then some x else none)

theorem fits_oneValueRow : (oneValueRow schema column x).map Prod.fst = schema.columns := by
  simp [oneValueRow, Function.comp_def]

theorem lookup_oneValueRow (h : column ∈ schema.columns) :
    (oneValueRow schema column x).lookup column = some (some x) := by
  unfold oneValueRow
  revert h
  generalize schema.columns = columns
  intro h
  induction columns with
  | nil => exact absurd h List.not_mem_nil
  | cons c columns ih =>
    rw [List.map_cons, List.lookup_cons]
    by_cases hc : column = c
    · simp [hc]
    · have hb : (column == c) = false := by simpa using hc
      rw [hb]
      exact ih ((List.mem_cons.mp h).resolve_left hc)

/-- What such a row prints. -/
theorem eq_of_mem_presentColumns {c value : String}
    (h : (c, value) ∈ presentColumns (printed types.out (oneValueRow schema column x))) :
    value = types.out x := by
  simp only [presentColumns, printed, oneValueRow, List.mem_filterMap, List.mem_map,
    exists_exists_and_eq_and] at h
  obtain ⟨c', -, hvalue⟩ := h
  split at hvalue
  · exact (Prod.mk.inj (Option.some.inj hvalue)).2.symm
  · exact absurd hvalue nofun

/-- Of such a row `find_value` finds at most what the value prints as. -/
theorem findValue_oneValueRow {pk value : String}
    (h : findValue (printed types.out (oneValueRow schema column x)) pk = some value) :
    value = types.out x ∧ schema.columns.find? (eqIgnoreAsciiCase · pk) = some column := by
  rw [findValue_printed, oneValueRow, List.find?_map, Option.bind_map] at h
  obtain ⟨c, hfind, hvalue⟩ := Option.bind_eq_some_iff.mp h
  simp only [Function.comp_apply] at hvalue
  split at hvalue
  · rename_i hc
    subst hc
    exact ⟨(Option.some.inj hvalue).symm, hfind⟩
  · exact absurd hvalue nofun

/-! ## 4. The anchor -/

/-- **Every write of a row with one of the values moves the version** to its transaction. -/
def AnchorSound (types : ColumnType Val) (self : VersionIndex) (schema : TableSchema)
    (q : CacheableQuery) (column : String) (values : Val → Prop) : Prop :=
  ∀ w : RowWrite Val, w.Fits schema → w.Touches column values →
    ∀ txn : CommittedTransaction, w.change types.out schema ∈ txn.changes →
      txn.endLsn ≤ (self.advance txn).versionOf q.tables q.eqFilters

/-- An equality of an accepted query that is recorded, and that `version_of` anchors at. -/
structure AnchoredEquality (crates : Crates) (classifier : ReadClassifier) (index : VersionIndex)
    (schema : TableSchema) (q : CacheableQuery) where
  query : Query
  parsed : crates.parseSql q.sql = some [.query query]
  accepted : classifier.classify crates q.sql q.params = .ok q
  select : Select
  body : query.body = .select select
  selection : Expr
  where' : select.selection = some selection
  left : Expr
  right : Expr
  mem : (left, right) ∈ equalities selection
  /-- The side that names the column, and the literal or placeholder. -/
  side : Expr
  operand : Expr
  sides : eqSides q.params left right = some (side, operand)
  column : String
  isColumn : columnOf side = some column
  inTable : column ∈ schema.columns
  text : String
  recorded : filterValue operand q.params = some text
  anchor : index.anchor q.tables q.eqFilters =
    some (schema.lowerName, toAsciiLowercase column, text)

/-- A truncation touches no row by name. -/
theorem truncated_of_change {lsn : Nat} :
    (⟨0, lsn, [w.change types.out schema]⟩ : CommittedTransaction).truncated = [] := by
  cases w <;> rfl

/-- A write that is not recorded under the anchor can be given an LSN beyond its version. -/
theorem not_anchorSound {q : CacheableQuery} {values : Val → Prop}
    {key : String × String × String} (hanchor : self.anchor q.tables q.eqFilters = some key)
    (hfits : w.Fits schema) (htouches : w.Touches column values)
    (hmissed : key ∉ self.valueKeys (w.change types.out schema)) :
    ¬ AnchorSound types self schema q column values := by
  intro h
  let txn : CommittedTransaction :=
    ⟨0, self.versionOf q.tables q.eqFilters + 1, [w.change types.out schema]⟩
  have hle := h w hfits htouches txn (List.mem_singleton.mpr rfl)
  have hsame : (self.advance txn).versionOf q.tables q.eqFilters =
      self.versionOf q.tables q.eqFilters := by
    have htruncated : txn.truncated = [] := truncated_of_change
    have hvalues : key ∉ txn.changes.flatMap self.valueKeys := by simpa [txn] using hmissed
    simp only [VersionIndex.versionOf, VersionIndex.advance_anchor, hanchor,
      VersionIndex.advance_values, VersionIndex.advance_structural, htruncated, if_neg hvalues,
      List.not_mem_nil, if_false]
  rw [hsame] at hle
  exact absurd hle (Nat.not_succ_le_self _)

/-- Where not every column is recorded, an anchor is at the key, up to case. -/
theorem key_of_anchor {q : CacheableQuery} {text : String} (hself : Describes self schema)
    (hfull : schema.full = false) (hanchor : self.anchor q.tables q.eqFilters =
      some (schema.lowerName, toAsciiLowercase column, text)) :
    self.pk schema.lowerName = some (toAsciiLowercase column) ∧
      ∃ k, schema.key = [k] ∧ toAsciiLowercase k = toAsciiLowercase column := by
  unfold VersionIndex.anchor at hanchor
  split at hanchor
  · obtain ⟨⟨c, value⟩, hfind, heq⟩ := Option.map_eq_some_iff.mp hanchor
    simp only [Prod.mk.injEq] at heq
    obtain ⟨htable, hcolumn, -⟩ := heq
    have hanchorable := List.find?_some hfind
    simp only [VersionIndex.isAnchorable, htable, hself.full, hfull, Bool.false_eq_true, if_false,
      hself.pk] at hanchorable
    have hpk := hself.pk
    cases hkey : schema.key with
    | nil => simp [hkey] at hanchorable
    | cons k ks =>
      cases ks with
      | nil =>
        simp only [hkey, Option.map_some, Option.getD_some, beq_iff_eq] at hanchorable hpk
        have hk : toAsciiLowercase k = toAsciiLowercase column := by
          rw [← hcolumn, ← hanchorable, toAsciiLowercase_idem]
        exact ⟨hk ▸ hpk, k, rfl, hk⟩
      | cons _ _ => simp [hkey] at hanchorable
  · exact absurd hanchor nofun

/-- Inserting a row with one value records it under what that prints as, or not at all. -/
theorem recorded_insert {text : String} (hself : Describes self schema)
    (hpk : schema.full = false → self.pk schema.lowerName = some (toAsciiLowercase column))
    (h : (schema.lowerName, toAsciiLowercase column, text) ∈
      self.valueKeys (RowWrite.change types.out schema (.insert (oneValueRow schema column x)))) :
    types.out x = text ∧ (schema.full = true ∨
      schema.columns.find? (eqIgnoreAsciiCase · column) = some column) := by
  have hcontains : self.full.contains (toAsciiLowercase schema.relname) = schema.full := hself.full
  simp only [RowWrite.change, VersionIndex.valueKeys, changeTable, hcontains] at h
  by_cases hfull : schema.full = true
  · simp only [hfull, if_true, List.mem_map, Prod.mk.injEq] at h
    obtain ⟨⟨c, value⟩, hmem, -, -, rfl⟩ := h
    exact ⟨(eq_of_mem_presentColumns hmem).symm, Or.inl hfull⟩
  · have hfull : schema.full = false := by simpa using hfull
    have hpk : self.pk (toAsciiLowercase schema.relname) = some (toAsciiLowercase column) :=
      hpk hfull
    simp only [hfull, Bool.false_eq_true, if_false, hpk, List.mem_map, Prod.mk.injEq] at h
    obtain ⟨value, hmem, -, -, rfl⟩ := h
    obtain ⟨rfl, hfind⟩ := findValue_oneValueRow (Option.mem_toList.mp hmem)
    simp only [eqIgnoreAsciiCase_lower] at hfind
    exact ⟨rfl, Or.inr hfind⟩

/-- Deleting a row with one value does not record it when the key is another column. -/
theorem not_recorded_delete {key : String × String × String} {k : String}
    (hself : Describes self schema) (hfull : schema.full = false) (hkey : schema.key = [k])
    (hne : k ≠ column) : key ∉ self.valueKeys
      (RowWrite.change types.out schema (.delete (oneValueRow schema column x))) := by
  have hnone : ∀ pk, findValue (printed types.out (oldKey schema (oneValueRow schema column x)))
      pk = none := by
    intro pk
    rw [findValue_printed, Option.bind_eq_none_iff]
    rintro ⟨c, value⟩ hfind
    have hmem := List.mem_of_find?_eq_some hfind
    simp only [oldKey, hfull, Bool.false_eq_true, if_false, List.mem_filter, hkey,
      List.contains_eq_mem, List.mem_singleton, decide_eq_true_eq, oneValueRow, List.mem_map,
      Prod.mk.injEq] at hmem
    obtain ⟨⟨c', -, rfl, rfl⟩, rfl⟩ := hmem
    simp [hne]
  have hcontains : self.full.contains (toAsciiLowercase schema.relname) = false :=
    hself.full.trans hfull
  simp only [RowWrite.change, VersionIndex.valueKeys, changeTable, hcontains, Bool.false_eq_true,
    if_false, pkValues, hnone]
  split <;> simp

/-- **The anchored version notices every write of a row that satisfies the equality, exactly
when each value equal to the operand prints as the recorded text, and the column is looked for
where it is**: every column under full replica identity, else the key. -/
theorem anchor_sound_iff {crates : Crates} {classifier : ReadClassifier} {q : CacheableQuery}
    (hself : Describes self schema)
    (equality : AnchoredEquality crates classifier self schema q) :
    AnchorSound types self schema q equality.column (types.equals equality.operand q.params) ↔
      ∀ x, types.equals equality.operand q.params x → types.out x = equality.text ∧
        (schema.full = true ∨ FindsKey schema equality.column) := by
  constructor
  · intro h x hx
    have hlookup := lookup_oneValueRow (x := x) equality.inTable
    -- the insert of a row with this value
    have hinsert : types.out x = equality.text ∧ (schema.full = true ∨
        schema.columns.find? (eqIgnoreAsciiCase · equality.column) = some equality.column) := by
      refine recorded_insert hself
        (fun hfull => (key_of_anchor hself hfull equality.anchor).1) ?_
      by_contra hmissed
      refine not_anchorSound equality.anchor ?_ ?_ hmissed h
      · exact fun row hrow => List.mem_singleton.mp hrow ▸ fits_oneValueRow
      · exact ⟨_, List.mem_singleton.mpr rfl, x, hlookup, hx⟩
    refine ⟨hinsert.1, ?_⟩
    by_cases hfull : schema.full = true
    · exact Or.inl hfull
    · have hfull' : schema.full = false := by simpa using hfull
      obtain ⟨-, k, hkey, -⟩ := key_of_anchor hself hfull' equality.anchor
      refine Or.inr ⟨?_, hinsert.2.resolve_left hfull⟩
      -- the delete of that row
      by_contra hne
      have hk : k ≠ equality.column := fun hk => hne (hk ▸ hkey)
      refine not_anchorSound equality.anchor ?_ ?_
        (not_recorded_delete (x := x) hself hfull' hkey hk) h
      · exact fun row hrow => List.mem_singleton.mp hrow ▸ fits_oneValueRow
      · exact ⟨_, List.mem_singleton.mpr rfl, x, hlookup, hx⟩
  · rintro h w hfits ⟨row, hrow, x, hlookup, hx⟩ txn hchange
    obtain ⟨htext, hfound⟩ := h x hx
    have hkey : (schema.lowerName, toAsciiLowercase equality.column, types.out x) ∈
        self.valueKeys (w.change types.out schema) :=
      mem_valueKeys hself hfound hfits hrow hlookup
    rw [htext] at hkey
    have hmem := List.mem_flatMap.mpr ⟨_, hchange, hkey⟩
    rw [VersionIndex.versionOf, VersionIndex.advance_anchor, equality.anchor]
    simp only [VersionIndex.advance_values, if_pos hmem]
    exact Nat.le_max_left _ _

end Anchor

/-! ## 5. Four column types

The comparison `column = operand` of the four types most keys and filters have.  A quoted
literal is read by the type's input function; a parameter is bound as `JsonParam` binds it. -/

namespace ColumnType

/-- `boolin`: the unambiguous prefixes of the words for the two values. -/
def boolin (text : String) : Option Bool :=
  let word := toAsciiLowercase (text.trimAscii.toString)
  if ["t", "tr", "tru", "true", "y", "ye", "yes", "on", "1"].contains word then some true
  else if ["f", "fa", "fal", "fals", "false", "n", "no", "of", "off", "0"].contains word then
    some false
  else none

/-- `boolean`. -/
def boolean : ColumnType Bool where
  out b := if b then "t" else "f"
  equals operand params x := match operand with
    | .value (.boolean flag) => x = flag
    | .value (.singleQuotedString text) => boolin text = some x
    | operand => boundParam operand params = some (.bool x)

/-- `text`: a parameter that is no string is bound as its JSON. -/
def text (displayJson : Json → String) : ColumnType String where
  out value := value
  equals operand params x := match operand with
    | .value (.singleQuotedString text) => x = text
    | operand => match boundParam operand params with
      | some (.string text) => x = text
      | some value => x = displayJson value
      | none => False

/-- `bpchareq` ignores the blanks at the end. -/
def withoutPadding (cs : List Char) : List Char := cs.rdropWhile (· == ' ')

/-- `char(n)`: every value has `n` characters, blanks at the end included. -/
def character (n : Nat) : ColumnType { cs : List Char // cs.length = n } where
  out value := String.ofList value.val
  equals operand params x := match operand with
    | .value (.singleQuotedString text) => withoutPadding x.val = withoutPadding text.toList
    | operand => match boundParam operand params with
      | some (.string text) => withoutPadding x.val = withoutPadding text.toList
      | _ => False

/-- `integer`: a literal is digits; a parameter is an integer. -/
def integer : ColumnType Int where
  out n := toString n
  equals operand params x := match operand with
    | .value (.number text) => text.toList.all Char.isDigit = true ∧
        x = Nat.ofDigitChars 10 text.toList 0
    | operand => boundParam operand params = some (.number (.integer x))

/-- **The keywords `true` and `false` are never what a boolean prints as.** -/
theorem boolean_keyword (flag : Bool) (params : List Json) {text : String}
    (h : filterValue (.value (.boolean flag)) params = some text) :
    ¬ ∀ x, boolean.equals (.value (.boolean flag)) params x → boolean.out x = text := by
  intro hall
  obtain rfl : (if flag then "true" else "false") = text := by
    simpa [filterValue, literalValue] using h
  have hout := hall flag rfl
  cases flag <;> exact absurd hout (by decide)

/-- What an operand other than a literal contributes is its parameter. -/
theorem filterValue_of_boundParam {operand : Expr} {params : List Json} {value : Json}
    (h : boundParam operand params = some value) :
    filterValue operand params = placeholderValue operand params := by
  unfold boundParam at h
  split at h
  · rfl
  · exact absurd h nofun

/-- **Text prints as it was written**, in the query or in the parameter. -/
theorem text_of_filterValue {displayJson : Json → String}
    (hdisplay : ∀ n : Int, displayJson (.number (.integer n)) = toString n) {operand : Expr}
    {params : List Json} {recorded : String} (h : filterValue operand params = some recorded)
    (x : String) (hx : (text displayJson).equals operand params x) :
    (text displayJson).out x = recorded := by
  change x = recorded
  simp only [text] at hx
  split at hx
  · obtain rfl : _ = recorded := Option.some.inj h
    exact hx
  · cases hparam : boundParam operand params with
    | none =>
      rw [hparam] at hx
      exact hx.elim
    | some value =>
      rw [filterValue_of_boundParam hparam, placeholderValue, hparam] at h
      rw [hparam] at hx
      cases value with
      | string text => exact hx.trans (Option.some.inj h)
      | number number =>
        cases number with
        | integer n => exact hx.trans ((hdisplay n).trans (Option.some.inj h))
        | float _ => exact absurd h nofun
      | null | bool _ | array _ | object _ => exact absurd h nofun

/-- **An integer parameter prints as it is recorded.** -/
theorem integer_of_param {operand : Expr} {params : List Json} {m : Int}
    (hparam : boundParam operand params = some (.number (.integer m))) {recorded : String}
    (h : filterValue operand params = some recorded) (x : Int)
    (hx : integer.equals operand params x) : integer.out x = recorded := by
  rw [filterValue_of_boundParam hparam, placeholderValue, hparam] at h
  simp only [integer] at hx
  split at hx
  · exact absurd hparam nofun
  · rw [hparam] at hx
    obtain rfl : m = x := by simpa using hx
    exact Option.some.inj h

theorem withoutPadding_append_replicate (cs : List Char) : ∀ k : Nat,
    withoutPadding (cs ++ List.replicate k ' ') = withoutPadding cs
  | 0 => by rw [List.replicate_zero, List.append_nil]
  | k + 1 => by
    rw [List.replicate_succ', ← List.append_assoc, withoutPadding, List.rdropWhile_concat_pos]
    · exact withoutPadding_append_replicate cs k
    · rfl

/-- Only blanks are taken off. -/
theorem eq_withoutPadding_append (cs : List Char) :
    cs = withoutPadding cs ++ List.replicate (cs.length - (withoutPadding cs).length) ' ' := by
  have hsplit : withoutPadding cs ++ cs.rtakeWhile (· == ' ') = cs :=
    List.rdropWhile_append_rtakeWhile
  have hblanks : cs.rtakeWhile (· == ' ') =
      List.replicate (cs.rtakeWhile (· == ' ')).length ' ' :=
    List.eq_replicate_of_mem fun c hc => by simpa using List.mem_rtakeWhile_imp hc
  have hlength := congrArg List.length hsplit
  rw [List.length_append] at hlength
  have hcount : cs.length - (withoutPadding cs).length = (cs.rtakeWhile (· == ' ')).length := by
    omega
  rw [hcount, ← hblanks, hsplit]

/-- **A `char(n)` prints as written exactly when `n` characters were written**, or so many that
no value equals them. -/
theorem character_iff {n : Nat} {written : String} {params : List Json} :
    (∀ x, (character n).equals (.value (.singleQuotedString written)) params x →
      (character n).out x = written) ↔
      written.toList.length = n ∨ n < (withoutPadding written.toList).length := by
  constructor
  · intro h
    by_contra hnot
    obtain ⟨hlength, hle⟩ := not_or.mp hnot
    -- the written characters, padded to `n`
    have hpadded : (withoutPadding written.toList ++
        List.replicate (n - (withoutPadding written.toList).length) ' ').length = n := by
      simp
      omega
    have hx : withoutPadding (withoutPadding written.toList ++
        List.replicate (n - (withoutPadding written.toList).length) ' ') =
          withoutPadding written.toList := by
      rw [withoutPadding_append_replicate]
      exact List.rdropWhile_idempotent _ _
    have hout : String.ofList _ = written := h ⟨_, hpadded⟩ hx
    rw [← hout, String.toList_ofList] at hlength
    exact hlength hpadded
  · rintro hlength ⟨cs, hcs⟩ hx
    have hx : withoutPadding cs = withoutPadding written.toList := hx
    have hsplit := eq_withoutPadding_append cs
    rcases hlength with hlength | hlong
    · have hwritten := eq_withoutPadding_append written.toList
      rw [hx, hcs, ← hlength, ← hwritten] at hsplit
      change String.ofList cs = written
      rw [hsplit, String.ofList_toList]
    · have hle := congrArg List.length hsplit
      rw [List.length_append, hx, hcs] at hle
      omega

end ColumnType

/-! ## 6. Two equalities -/

/-- `column = operand`. -/
def equalTo (column : String) (operand : Expr) : Expr :=
  .binaryOp (.identifier (bareIdent column)) .eq operand

/-- `SELECT * FROM users WHERE id = 7`, and the crates on it. -/
def userSevenSql : String := "SELECT * FROM users WHERE id = 7"

def userSevenQuery : Query :=
  selectAll [bareIdent "users"] (some (equalTo "id" (.value (.number "7"))))

def userSevenCrates : Crates := oneText userSevenSql userSevenQuery 1860100306496838796

def userSevenRead : CacheableQuery :=
  ⟨1860100306496838796, ["users"], [("id", "7")], userSevenSql, []⟩

/-- `users`, with the key `id`. -/
def usersSchema : TableSchema := ⟨"users", ["id", "name"], ["id"], false⟩

/-- `id = 7` is the one filter of the query. -/
theorem userSeven_accepted :
    (ReadClassifier.new ["users"]).classify userSevenCrates userSevenSql [] =
      .ok userSevenRead := by
  have hfilters : queryFilters userSevenQuery [] = [("id", "7")] :=
    (queryFilters_select []).trans (by rfl)
  have hq : (ReadClassifier.new ["users"]).classify userSevenCrates userSevenSql [] =
      .ok { userSevenRead with eqFilters := queryFilters userSevenQuery [] } := by rfl
  rw [hq, hfilters]
  rfl

def userSevenEquality : AnchoredEquality userSevenCrates (.new ["users"])
    (.new [("users", "id")] []) usersSchema userSevenRead where
  query := userSevenQuery
  parsed := by rfl
  accepted := userSeven_accepted
  select := .mk false [] [.wildcard] none [.mk (.table [bareIdent "users"] none false []) []]
    (some (equalTo "id" (.value (.number "7")))) [] []
  body := rfl
  selection := equalTo "id" (.value (.number "7"))
  where' := rfl
  left := .identifier (bareIdent "id")
  right := .value (.number "7")
  mem := List.mem_singleton.mpr rfl
  side := .identifier (bareIdent "id")
  operand := .value (.number "7")
  sides := by rfl
  column := "id"
  isColumn := by rfl
  inTable := by decide
  text := "7"
  recorded := by rfl
  anchor := by rfl

theorem userSeven_anchor_sound :
    AnchorSound ColumnType.integer (.new [("users", "id")] []) usersSchema userSevenRead "id"
      (ColumnType.integer.equals (.value (.number "7")) []) := by
  have hself : Describes (.new [("users", "id")] []) usersSchema := ⟨by rfl, by rfl⟩
  refine (anchor_sound_iff hself userSevenEquality).mpr ?_
  intro x hx
  obtain rfl : x = 7 := hx.2
  exact ⟨by rfl, Or.inr ⟨by rfl, by decide⟩⟩

/-- `SELECT * FROM flags WHERE active = true`, and the crates on it. -/
def activeFlagsSql : String := "SELECT * FROM flags WHERE active = true"

def activeFlagsQuery : Query :=
  selectAll [bareIdent "flags"] (some (equalTo "active" (.value (.boolean true))))

def activeFlagsCrates : Crates := oneText activeFlagsSql activeFlagsQuery 7295219145954576430

def activeFlagsRead : CacheableQuery :=
  ⟨7295219145954576430, ["flags"], [("active", "true")], activeFlagsSql, []⟩

/-- `active = true` is the one filter of the query. -/
theorem activeFlags_accepted :
    (ReadClassifier.new ["flags"]).classify activeFlagsCrates activeFlagsSql [] =
      .ok activeFlagsRead := by
  have hfilters : queryFilters activeFlagsQuery [] = [("active", "true")] :=
    (queryFilters_select []).trans (by rfl)
  have hq : (ReadClassifier.new ["flags"]).classify activeFlagsCrates activeFlagsSql [] =
      .ok { activeFlagsRead with eqFilters := queryFilters activeFlagsQuery [] } := by rfl
  rw [hq, hfilters]
  rfl

/-- The first row of `flags`, as it reaches the server. -/
def flagSet : CommittedTransaction := ⟨7, 1, [.insert "flags" [("active", some "t")]]⟩

/-- `flags`, with full replica identity and a boolean column `active`. -/
def flagsSchema : TableSchema := ⟨"flags", ["active"], [], true⟩

/-- **A row with `active` inserted is not noticed** by `WHERE active = true`: the change carries
`t`, and the query is anchored at `true`. -/
theorem boolean_keyword_missed :
    (ReadClassifier.new ["flags"]).classify activeFlagsCrates activeFlagsSql [] =
        .ok activeFlagsRead ∧
      (VersionIndex.new [] ["flags"]).anchor activeFlagsRead.tables activeFlagsRead.eqFilters =
        some ("flags", "active", "true") ∧
      ((VersionIndex.new [] ["flags"]).advance flagSet).versionOf activeFlagsRead.tables
        activeFlagsRead.eqFilters = 0 ∧
      ¬ AnchorSound ColumnType.boolean (.new [] ["flags"]) flagsSchema activeFlagsRead "active"
        (ColumnType.boolean.equals (.value (.boolean true)) []) := by
  refine ⟨activeFlags_accepted, by rfl, by rfl, fun h => ?_⟩
  have hfits : (RowWrite.insert [("active", some true)]).Fits flagsSchema := by
    intro row hrow
    obtain rfl := List.mem_singleton.mp hrow
    rfl
  have htouches : (RowWrite.insert [("active", some true)]).Touches "active"
      (ColumnType.boolean.equals (.value (.boolean true)) []) :=
    ⟨_, List.mem_singleton.mpr rfl, true, rfl, rfl⟩
  have hle := h _ hfits htouches flagSet (List.mem_singleton.mpr rfl)
  exact absurd hle (by decide)

end PgPaw
