/-
# The output columns of a `RETURNING`

`run_sql_as` wraps the rows of a write with `to_jsonb`, which keeps one value per name, so
`check_returning_duplicates` turns away a `RETURNING` that has a name twice.  It knows the
names of aliased items and of bare columns, lower-cased, and skips every other item: a call, a
cast, an expression in parentheses, any other expression, and a wildcard that stands alone.

PostgreSQL names these too.  `returning_columns_iff` says when the skipped ones do no harm.
-/
import PgPaw.Capability.Rows
import PgPaw.Capability.SqlValidate
import PgPaw.Sql.Scope
import Mathlib.Data.List.Nodup

namespace PgPaw

open Sql

/-! ## 1. The names PostgreSQL gives -/

/-- The name of an unaliased output column. -/
def Sql.Expr.outputName : Expr → String
  | .identifier ident => ident.folded
  | .compoundIdentifier parts => (parts.getLast?.map Ident.folded).getD ""
  | .function name _ => (name.getLast?.map Ident.folded).getD ""
  | .form "CAST" [operand] => operand.outputName
  | .nested inner => inner.outputName
  | _ => "?column?"

/-- The tables a wildcard expands to, each with its columns: the target, then those of a
`FROM` or `USING`. -/
abbrev RangeTables := List (String × List String)

/-- The output columns of an item. -/
def Sql.SelectItem.outputNames (tables : RangeTables) : SelectItem → List String
  | .exprWithAlias _ as => [as.folded]
  | .unnamedExpr expr => [expr.outputName]
  | .wildcard => tables.flatMap Prod.snd
  | .qualifiedWildcard name => (tables.filter fun table =>
      name.getLast?.any fun ident => ident.folded == table.1).flatMap Prod.snd

/-- The output columns of a list. -/
def outputNames (tables : RangeTables) (items : List SelectItem) : List String :=
  items.flatMap (SelectItem.outputNames tables)

/-- No value of a returned row is dropped: the names are distinct, and `to_jsonb` keeps every
row of these columns as it is. -/
def KeepsReturned (tables : RangeTables) (items : List SelectItem) : Prop :=
  (outputNames tables items).Nodup ∧
    ∀ row : List (String × Json), row.map Prod.fst = outputNames tables items → toJsonb row = row

/-! ## 2. The names the check knows -/

/-- An item whose name the check compares. -/
def isChecked (item : SelectItem) : Bool := (returningName item).isSome

/-- The items the check skips have distinct names, and none of a compared item. -/
def SkippedDistinct (tables : RangeTables) (items : List SelectItem) : Prop :=
  (outputNames tables (items.filter fun item => !isChecked item)).Nodup ∧
    ∀ name ∈ outputNames tables (items.filter isChecked),
      name ∉ outputNames tables (items.filter fun item => !isChecked item)

instance (tables : RangeTables) (items : List SelectItem) :
    Decidable (SkippedDistinct tables items) :=
  inferInstanceAs (Decidable (_ ∧ ∀ name ∈ _, _))

/-- The name the check compares is the one PostgreSQL gives, lower-cased. -/
theorem lower_outputNames (tables : RangeTables) {item : SelectItem} {name : String}
    (h : returningName item = some name) :
    ∃ output, item.outputNames tables = [output] ∧ toAsciiLowercase output = name := by
  cases item with
  | qualifiedWildcard table => cases h
  | wildcard => cases h
  | exprWithAlias expr as =>
    cases h
    exact ⟨as.folded, rfl, toAsciiLowercase_folded as⟩
  | unnamedExpr expr =>
    cases expr with
    | identifier ident =>
      cases h
      refine ⟨ident.folded, by rw [SelectItem.outputNames, Expr.outputName], ?_⟩
      exact toAsciiLowercase_folded ident
    | compoundIdentifier parts =>
      cases h
      refine ⟨(parts.getLast?.map Ident.folded).getD "",
        by rw [SelectItem.outputNames, Expr.outputName], ?_⟩
      cases parts.getLast? with
      | none => decide
      | some ident => exact toAsciiLowercase_folded ident
    | _ => cases h

/-- The loop finds nothing exactly when the names it compares are distinct. -/
theorem duplicateName_eq_none {items : List SelectItem} {seen : List String} :
    duplicateName items seen = none ↔
      (items.filterMap returningName).Nodup ∧ ∀ n ∈ items.filterMap returningName, n ∉ seen := by
  induction items generalizing seen with
  | nil => simp [duplicateName]
  | cons item items ih =>
    rw [duplicateName]
    cases hname : returningName item with
    | none =>
      rw [List.filterMap_cons_none hname]
      exact ih
    | some name =>
      rw [List.filterMap_cons_some hname]
      by_cases hseen : name ∈ seen
      · simp only [if_pos hseen]
        exact iff_of_false (by simp) fun h => h.2 name List.mem_cons_self hseen
      · simp only [if_neg hseen]
        rw [ih, List.nodup_cons, List.forall_mem_cons]
        simp only [List.mem_cons, not_or]
        constructor
        · rintro ⟨hnodup, hrest⟩
          exact ⟨⟨fun hmem => (hrest name hmem).1 rfl, hnodup⟩, hseen,
            fun n hn => (hrest n hn).2⟩
        · rintro ⟨⟨hfresh, hnodup⟩, -, hrest⟩
          refine ⟨hnodup, fun n hn => ⟨?_, hrest n hn⟩⟩
          rintro rfl
          exact hfresh hn

/-- The compared names are the names of the compared items, lower-cased. -/
theorem map_lower_outputNames (tables : RangeTables) (items : List SelectItem) :
    (outputNames tables (items.filter isChecked)).map toAsciiLowercase =
      items.filterMap returningName := by
  induction items with
  | nil => rfl
  | cons item items ih =>
    cases hname : returningName item with
    | none =>
      have hskipped : ¬ isChecked item = true := by simp [isChecked, hname]
      rw [List.filter_cons_of_neg hskipped, List.filterMap_cons_none hname]
      exact ih
    | some name =>
      have hchecked : isChecked item = true := by simp [isChecked, hname]
      obtain ⟨output, houtput, hlower⟩ := lower_outputNames tables hname
      rw [List.filter_cons_of_pos hchecked, List.filterMap_cons_some hname, outputNames,
        List.flatMap_cons, houtput, List.map_append, ← ih, ← hlower]
      rfl

/-- An accepted list gives the items it compares distinct names. -/
theorem checked_nodup {tables : RangeTables} {items : List SelectItem}
    (h : duplicateName items [] = none) :
    (outputNames tables (items.filter isChecked)).Nodup := by
  have hnames := (duplicateName_eq_none.mp h).1
  rw [← map_lower_outputNames tables] at hnames
  exact hnames.of_map

/-- The check of an accepted `RETURNING` found no name twice. -/
theorem duplicateName_of_accepted {statement : SqlStatement} {items : List SelectItem}
    (hreturning : SqlStatement.returning statement = some items)
    (h : checkReturningDuplicates statement = .ok ()) : duplicateName items [] = none := by
  unfold checkReturningDuplicates at h
  rw [hreturning] at h
  dsimp only at h
  split at h
  · cases h
  · cases hdup : duplicateName items [] with
    | none => rfl
    | some name =>
      rw [hdup] at h
      cases h

/-- The names are those of the compared items and those of the skipped ones. -/
theorem outputNames_perm (tables : RangeTables) (items : List SelectItem) :
    (outputNames tables (items.filter isChecked) ++
      outputNames tables (items.filter fun item => !isChecked item)).Perm
        (outputNames tables items) := by
  unfold outputNames
  rw [← List.flatMap_append]
  exact (List.filter_append_perm isChecked items).flatMap_right _

/-- Rows keep their columns when the names are distinct, and only then. -/
theorem keepsReturned_iff {tables : RangeTables} {items : List SelectItem} :
    KeepsReturned tables items ↔ (outputNames tables items).Nodup := by
  refine ⟨And.left, fun h => ⟨h, fun row hrow => ?_⟩⟩
  rw [toJsonb_eq_self_iff, hrow]
  exact h

/-- **An accepted `RETURNING` loses no column exactly when** the items the check skips have
distinct names, none of which a compared item has. -/
theorem returning_columns_iff {crates : SqlCrates} {sql : String} {maxSqlBytes : Nat}
    {validated : ValidatedSql} (h : validateOneStatement crates sql maxSqlBytes = .ok validated)
    {statement : SqlStatement} (hparse : crates.parse sql = .ok [statement])
    {items : List SelectItem} (hreturning : SqlStatement.returning statement = some items)
    (tables : RangeTables) :
    KeepsReturned tables items ↔ SkippedDistinct tables items := by
  obtain ⟨-, statement', hparse', -, hdup, -⟩ := validateOneStatement_ok_iff.mp h
  rw [hparse] at hparse'
  cases hparse'
  have hchecked : (outputNames tables (items.filter isChecked)).Nodup :=
    checked_nodup (duplicateName_of_accepted hreturning hdup)
  rw [keepsReturned_iff, ← (outputNames_perm tables items).nodup_iff, List.nodup_append',
    and_iff_right hchecked]
  rfl

/-! ## 3. A column that is lost -/

/-- A text that parses as one `INSERT` or `UPDATE`. -/
def returningCrates (statement : SqlStatement) : SqlCrates where
  parse := fun _ => .ok [statement]
  toUppercase := id
  fromStr := fun _ => none

/-- A call of a function on a column. -/
def callOn (function column : String) : SelectItem :=
  .unnamedExpr (.function [⟨function, none⟩] [.identifier ⟨column, none⟩])

/-- `INSERT INTO t (a, b) VALUES ('x', 'y') RETURNING lower(a), upper(b)`. -/
theorem returning_columns_iff_insert :
    KeepsReturned [("t", ["a", "b"])] [callOn "lower" "a", callOn "upper" "b"] ↔
      SkippedDistinct [("t", ["a", "b"])] [callOn "lower" "a", callOn "upper" "b"] :=
  have h : validateOneStatement
      (returningCrates (.insert (some [callOn "lower" "a", callOn "upper" "b"])))
      "INSERT INTO t (a, b) VALUES ('x', 'y') RETURNING lower(a), upper(b)" 1000 =
        .ok ⟨"INSERT", true, false⟩ := by rfl
  returning_columns_iff h rfl rfl _

/-- Two calls of one function are accepted, and PostgreSQL names both columns after it:
`INSERT INTO t (a, b) VALUES ('x', 'y') RETURNING lower(a), lower(b)`. -/
theorem returning_loses_column :
    ∃ (crates : SqlCrates) (sql : String) (validated : ValidatedSql) (statement : SqlStatement)
      (items : List SelectItem) (tables : RangeTables),
      validateOneStatement crates sql 1000 = .ok validated ∧
        crates.parse sql = .ok [statement] ∧ SqlStatement.returning statement = some items ∧
        ¬ KeepsReturned tables items ∧
        toJsonb ((outputNames tables items).map fun name => (name, .null)) = [("lower", .null)] :=
  ⟨returningCrates (.insert (some [callOn "lower" "a", callOn "lower" "b"])),
    "INSERT INTO t (a, b) VALUES ('x', 'y') RETURNING lower(a), lower(b)",
    ⟨"INSERT", true, false⟩, .insert (some [callOn "lower" "a", callOn "lower" "b"]),
    [callOn "lower" "a", callOn "lower" "b"], [("t", ["a", "b"])],
    by rfl, rfl, rfl, fun h => absurd h.1 (by decide), by decide⟩

-- the wildcard of an `UPDATE .. FROM` whose two tables both have an `id`
example :
    ¬ SkippedDistinct [("users", ["id", "name"]), ("orders", ["id", "total"])] [.wildcard] := by
  decide

end PgPaw
