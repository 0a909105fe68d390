/-
# The security verdicts of `capability/read.rs`

`classify_security` asks the catalog about the tables of a query, `merge_verdicts` turns the
answers into one: private unless every table is known to be public.  `is_private` puts a
cache in front of them in replica mode; an embedded primary has none and asks every time.

A `HashMap` that is only looked up, written and emptied is a partial function here.
-/
import Mathlib.Data.List.Basic
import PgPaw.Text

namespace PgPaw

/-- What `classify_security` reads of a row of `pg_class`, joined with its schema's name. -/
structure CatalogTable where
  schema : String
  relname : String
  relkind : Char
  relrowsecurity : Bool
  publicSelect : Bool
  deriving DecidableEq, Repr

abbrev Catalog := List CatalogTable

/-- `HashMap<String, bool>`: the verdict of each table that has one, `true` for private. -/
abbrev Verdicts := String → Option Bool

/-- The `where` clause of the query but for the names. -/
def CatalogTable.served (t : CatalogTable) : Bool :=
  t.relkind == 'r' && !(["pg_catalog", "information_schema"].contains t.schema)

/-- The name a row is looked up by. -/
def CatalogTable.lowerName (t : CatalogTable) : String := toAsciiLowercase t.relname

/-- The second output column. -/
def CatalogTable.isPrivate (t : CatalogTable) : Bool := t.relrowsecurity || !t.publicSelect

/-- `verdicts.entry(name).and_modify(|e| *e = true).or_insert(private)`. -/
def noteVerdict (verdicts : Verdicts) (row : CatalogTable) : Verdicts := fun name =>
  if name = row.lowerName then
    match verdicts name with
    | some _ => some true
    | none => some row.isPrivate
  else verdicts name

/-- `classify_security`. -/
def classifySecurity (catalog : Catalog) (tables : List String) : Verdicts :=
  (catalog.filter fun row => row.served && tables.contains row.lowerName).foldl noteVerdict
    fun _ => none

/-- `merge_verdicts`. -/
def mergeVerdicts (tables : List String) (verdicts : Verdicts) : Bool :=
  tables.any fun table => (verdicts table).getD true

theorem mergeVerdicts_eq_false {tables : List String} {verdicts : Verdicts} :
    mergeVerdicts tables verdicts = false ↔ ∀ t ∈ tables, verdicts t = some false := by
  simp only [mergeVerdicts, List.any_eq_false, Bool.not_eq_true]
  refine forall₂_congr ?_
  intro t _
  cases verdicts t <;> simp

/-! ## The verdict of one name -/

/-- The served tables of a name. -/
def Catalog.named (catalog : Catalog) (name : String) : List CatalogTable :=
  catalog.filter fun row => row.served && row.lowerName == name

/-- **The catalog's verdict for a name**: none when no table has it, the table's own when
exactly one has, private when several do. -/
def Catalog.verdict (catalog : Catalog) (name : String) : Option Bool :=
  match catalog.named name with
  | [] => none
  | [row] => some row.isPrivate
  | _ => some true

/-- A name is public when its verdict says so. -/
def Catalog.isPublic (catalog : Catalog) (name : String) : Prop :=
  catalog.verdict name = some false

instance (catalog : Catalog) (name : String) : Decidable (catalog.isPublic name) :=
  inferInstanceAs (Decidable (_ = _))

/-- A public name belongs to exactly one table, without row security and readable by all. -/
theorem Catalog.isPublic_iff {catalog : Catalog} {name : String} :
    catalog.isPublic name ↔ ∃ row, catalog.named name = [row] ∧
      row.relrowsecurity = false ∧ row.publicSelect = true := by
  unfold Catalog.isPublic Catalog.verdict
  split <;> simp_all [CatalogTable.isPrivate]

/-- What the loop over the rows does to one name: only its own rows count. -/
theorem foldl_noteVerdict (name : String) : ∀ (rows : List CatalogTable) (v : Verdicts),
    rows.foldl noteVerdict v name =
      (rows.filter fun row => row.lowerName == name).foldl noteVerdict v name
  | [], _ => rfl
  | row :: rows, v => by
    by_cases h : row.lowerName = name
    · simp only [List.foldl_cons, List.filter_cons, h, beq_self_eq_true, if_true]
      exact foldl_noteVerdict name rows _
    · have hsame : noteVerdict v row name = v name := if_neg (Ne.symm h)
      have hb : (row.lowerName == name) = false := by simpa using h
      simp only [List.foldl_cons, List.filter_cons, hb, Bool.false_eq_true, if_false]
      rw [foldl_noteVerdict name rows (noteVerdict v row)]
      exact foldl_congr_at name _ (fun r hr => by simpa using (List.mem_filter.mp hr).2) hsame
where
  /-- Over rows of one name, the loop reads the verdicts at that name only. -/
  foldl_congr_at (name : String) : ∀ (rows : List CatalogTable) {v w : Verdicts},
      (∀ r ∈ rows, r.lowerName = name) → v name = w name →
        rows.foldl noteVerdict v name = rows.foldl noteVerdict w name
    | [], _, _, _, h => h
    | row :: rows, v, w, hall, h => by
      refine foldl_congr_at name rows (fun r hr => hall r (List.mem_cons_of_mem _ hr)) ?_
      simp only [noteVerdict, h]

/-- Once a name has a verdict, further rows make it private. -/
theorem foldl_noteVerdict_some (name : String) : ∀ (rows : List CatalogTable) (v : Verdicts),
    rows ≠ [] → (∀ r ∈ rows, r.lowerName = name) → (∃ b, v name = some b) →
      rows.foldl noteVerdict v name = some true
  | [], _, h, _, _ => absurd rfl h
  | [row], v, _, hall, ⟨b, hb⟩ => by
    simp [noteVerdict, hall row (by simp), hb]
  | row :: row' :: rows, v, _, hall, ⟨b, hb⟩ => by
    refine foldl_noteVerdict_some name (row' :: rows) (noteVerdict v row) (by simp)
      (fun r hr => hall r (List.mem_cons_of_mem _ hr)) ⟨true, ?_⟩
    simp [noteVerdict, hall row (by simp), hb]

/-- **`classify_security` returns the catalog's verdicts for the names asked.** -/
theorem classifySecurity_eq (catalog : Catalog) (tables : List String) {name : String}
    (hname : name ∈ tables) : classifySecurity catalog tables name = catalog.verdict name := by
  have hrows : (catalog.filter fun row => row.served && tables.contains row.lowerName).filter
      (fun row => row.lowerName == name) = catalog.named name := by
    rw [List.filter_filter, Catalog.named]
    refine List.filter_congr ?_
    intro row _
    by_cases h : row.lowerName = name
    · simp [h, hname]
    · have hb : (row.lowerName == name) = false := by simpa using h
      simp [hb]
  rw [classifySecurity, foldl_noteVerdict, hrows, Catalog.verdict]
  have hall : ∀ r ∈ catalog.named name, r.lowerName = name := fun r hr => by
    have := (List.mem_filter.mp hr).2
    simp only [Bool.and_eq_true, beq_iff_eq] at this
    exact this.2
  match hn : catalog.named name with
  | [] => rfl
  | [row] =>
    rw [hn] at hall
    simp [noteVerdict, hall row (by simp)]
  | row :: row' :: rows =>
    rw [hn] at hall
    rw [List.foldl_cons]
    refine foldl_noteVerdict_some name (row' :: rows) _ (by simp)
      (fun r hr => hall r (List.mem_cons_of_mem _ hr)) ⟨row.isPrivate, ?_⟩
    simp [noteVerdict, hall row (by simp)]

/-- It returns nothing for other names. -/
theorem classifySecurity_of_notMem (catalog : Catalog) (tables : List String) {name : String}
    (hname : name ∉ tables) : classifySecurity catalog tables name = none := by
  have hrows : (catalog.filter fun row => row.served && tables.contains row.lowerName).filter
      (fun row => row.lowerName == name) = [] := by
    rw [List.filter_filter, List.filter_eq_nil_iff]
    intro row _ h
    simp only [Bool.and_eq_true, beq_iff_eq, List.contains_iff_mem] at h
    exact hname (h.1 ▸ h.2.2)
  rw [classifySecurity, foldl_noteVerdict, hrows]
  rfl

/-- **A query found public reads public names only**, when the verdicts are the catalog's. -/
theorem mergeVerdicts_classifySecurity {catalog : Catalog} {tables : List String} :
    mergeVerdicts tables (classifySecurity catalog tables) = false ↔
      ∀ t ∈ tables, catalog.isPublic t := by
  rw [mergeVerdicts_eq_false]
  exact forall₂_congr fun t ht => by rw [classifySecurity_eq catalog tables ht, Catalog.isPublic]

end PgPaw
