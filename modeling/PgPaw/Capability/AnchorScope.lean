/-
# The rows an anchored query depends on

A query is anchored at (table, column, value) when the list `classify` makes of its tables has
one entry and one of its recorded equalities is at a column the index keeps.  From then on only
changes of rows of that table with that value move its version, so its result must depend on no
other rows (`DependsOnlyOn`).

The list says which names occur, not how often, and the recorded column has lost its qualifier.
So the table may be read a second time without the equality (`anchored_self_join`), and the
equality may be of a column of something else (`anchored_derived_column`).
`anchor_scope_sound` excludes both: the table is read at one place (`ReadsOnce`), and the
equality is of its own column there (`NamesOwnColumn`).
-/
import PgPaw.Capability.AnchorValue
import PgPaw.Sql.Selection

namespace PgPaw

open Sql

/-! ## 1. Rows and databases -/

/-- A row of the table with the value, under the lower-case name the index knows columns by. -/
def hasText (I : Interpretation) (c v : String) (table : StoredTable) (tuple : Tuple) : Bool :=
  (I.schema table).zipIdx.any fun (name, i) =>
    toAsciiLowercase name == c && tuple[i]?.join == some v

/-- Two databases that agree on the rows of `t` with `c = v`. -/
def AgreeAt (I : Interpretation) (t c v : String) (db db' : Sql.Database) : Prop :=
  ∀ table : StoredTable, table.lowerName = t →
    (db table).filter (hasText I c v table) = (db' table).filter (hasText I c v table)

/-- **The result depends on the rows of `t` with `c = v` only.** -/
def DependsOnlyOn (I : Interpretation) (query : Query) (t c v : String) : Prop :=
  ∀ db db', AgreeAt I t c v db db' → query.run I db = query.run I db'

/-- PostgreSQL is given the parameters: a placeholder has the value of the text it is recorded
with. -/
def Binds (I : Interpretation) (params : List Json) : Prop :=
  ∀ placeholder v, placeholderValue (.value (.placeholder placeholder)) params = some v →
    I.param placeholder = some v

/-- Without parameters nothing is asked of it. -/
theorem binds_nil {I : Interpretation} : Binds I [] := by
  have hnone : ∀ expr, boundParam expr [] = none := by
    intro expr
    unfold boundParam
    split
    · split
      · refine Option.bind_eq_none_iff.mpr ?_
        intro index _
        split <;> rfl
      · rfl
    · rfl
  intro placeholder v h
  rw [placeholderValue, hnone] at h
  cases h

/-- A query `classify` accepts and `version_of` anchors. -/
structure AnchoredAt (crates : Crates) (classifier : ReadClassifier) (index : VersionIndex)
    (sql : String) (params : List Json) (query : Query) (t c v : String) : Prop where
  parsed : crates.parseSql sql = some [.query query]
  anchored : ∃ q, classifier.classify crates sql params = .ok q ∧
    index.anchor q.tables q.eqFilters = some (t, c, v)

/-! ## 2. The condition -/

/-- The name an equality's side has in PostgreSQL. -/
def sideName : Expr → Option Name
  | .identifier ident => columnName [ident]
  | .compoundIdentifier parts => columnName parts
  | _ => none

/-- The column of a stored table that a side refers to in the `WHERE` of the body. -/
def ownColumn (I : Interpretation) (query : Query) (select : Select) (side : Expr) :
    Option String :=
  ((sideName side).bind fun name => findField name (query.fromColumns I select)).bind
    fun (col, _) => col.own

/-- The statement refers to stored tables at one place, by a table factor that the table list
does not leave out. -/
def ReadsOnce (query : Query) : Prop :=
  ∃ n, query.reads [] = [.factor n] ∧ lastLower n ∉ outerCteNames query

/-- One of the equalities recorded is `c = v` of a column of the stored table itself. -/
structure NamesOwnColumn (I : Interpretation) (query : Query) (params : List Json)
    (c v : String) where
  select : Select
  body : query.body = .select select
  selection : Expr
  where' : select.selection = some selection
  left : Expr
  right : Expr
  mem : (left, right) ∈ equalities selection
  /-- The side that names the column, and the literal or placeholder. -/
  side : Expr
  operand : Expr
  sides : eqSides params left right = some (side, operand)
  recorded : filterValue operand params = some v
  column : String
  own : ownColumn I query select side = some column
  lower : toAsciiLowercase column = c

/-! ## 3. What the `WHERE` keeps -/

section Where

variable {I : Interpretation} {db : Sql.Database} {ctes : CteEnv}

/-- A conjunction holds only where each of its equalities does. -/
theorem isTrue_of_mem_equalities {env : Env} {left right : Expr} : ∀ {e : Expr},
    (left, right) ∈ equalities e → isTrue (e.eval I db ctes env) = true →
      isTrue (equal (left.eval I db ctes env) (right.eval I db ctes env)) = true
  | .binaryOp l .and r, hmem, h => by
    obtain ⟨hl, hr⟩ := isTrue_conj h
    rcases List.mem_append.mp hmem with hmem | hmem
    · exact isTrue_of_mem_equalities hmem hr
    · exact isTrue_of_mem_equalities hmem hl
  | .binaryOp l .eq r, hmem, h => by
    obtain ⟨rfl, rfl⟩ := Prod.mk.inj (List.mem_singleton.mp hmem)
    exact h
  | .nested e, hmem, h => isTrue_of_mem_equalities (e := e) hmem h
  | .binaryOp _ (.other _) _, hmem, _ | .identifier _, hmem, _ | .compoundIdentifier _, hmem, _
  | .value _, hmem, _ | .function _ _, hmem, _ | .subquery _, hmem, _ | .exists _ _, hmem, _
  | .inSubquery _ _ _, hmem, _ | .form _ _, hmem, _ => absurd hmem List.not_mem_nil

/-- An equality that holds gives the column the operand's value, whichever side it is on. -/
theorem side_eq_operand {params : List Json} {env : Env} {left right side operand : Expr}
    (hsides : eqSides params left right = some (side, operand))
    (h : isTrue (equal (left.eval I db ctes env) (right.eval I db ctes env)) = true) :
    side.eval I db ctes env = operand.eval I db ctes env := by
  obtain ⟨x, hleft, hright⟩ := isTrue_equal h
  unfold eqSides at hsides
  split at hsides
  · obtain ⟨rfl, rfl⟩ := Prod.mk.inj (Option.some.inj hsides)
    exact hleft.trans hright.symm
  · split at hsides
    · obtain ⟨rfl, rfl⟩ := Prod.mk.inj (Option.some.inj hsides)
      exact hright.trans hleft.symm
    · exact absurd hsides nofun

/-- The operand has the recorded value. -/
theorem operand_eval {params : List Json} {env : Env} {operand : Expr} {v : String}
    (hbinds : Binds I params) (h : filterValue operand params = some v) :
    operand.eval I db ctes env = some v := by
  cases operand with
  | value value =>
    cases value with
    | placeholder text => exact hbinds text v h
    | number text | singleQuotedString text | boolean flag => exact h
    | null | other text => exact absurd h nofun
  | _ => exact absurd h nofun

/-- A side that refers to a column of the row has its value. -/
theorem side_eval {side : Expr} {name : Name} {row : Fields} {env : Env} {col : Col} {x : Datum}
    (hname : sideName side = some name) (hfind : findField name row = some (col, x)) :
    side.eval I db ctes (⟨row, []⟩ :: env) = x := by
  have hvalue : ∀ parts, columnName parts = some name →
      I.nameValue parts (⟨row, []⟩ :: env) = x := by
    intro parts hparts
    simp only [Interpretation.nameValue, hparts, Option.bind_some, lookupName,
      List.findSome?_cons, hfind, Option.map_some]
  cases side with
  | identifier ident => exact hvalue [ident] hname
  | compoundIdentifier parts => exact hvalue parts hname
  | _ => exact absurd hname nofun

/-- **The `WHERE` keeps only rows with the value** in the column of the table. -/
theorem NamesOwnColumn.pinned {query : Query} {params : List Json} {c v : String}
    (h : NamesOwnColumn I query params c v) (hbinds : Binds I params) {row : Fields} {env : Env}
    (hshape : HasShape (query.fromColumns I h.select) row)
    (hkept : evalSelection I db h.select.selection ctes (⟨row, []⟩ :: env) = true) :
    pinned h.column v row = true := by
  -- the column the name refers to is a column of the row
  obtain ⟨⟨col, x⟩, hfind, hown⟩ := Option.bind_eq_some_iff.mp h.own
  obtain ⟨name, hname, hfind⟩ := Option.bind_eq_some_iff.mp hfind
  rw [← hshape, findField_blank] at hfind
  obtain ⟨⟨col, y⟩, hfield, heq⟩ := Option.map_eq_some_iff.mp hfind
  obtain ⟨rfl, rfl⟩ := Prod.mk.inj heq
  -- and has the value there
  rw [h.where', evalSelection] at hkept
  have hy : y = some v := by
    rw [← side_eval hname hfield, side_eq_operand h.sides (isTrue_of_mem_equalities h.mem hkept),
      operand_eval hbinds h.recorded]
  exact pinned_iff.mpr ⟨(col, y), List.mem_of_find?_eq_some hfield, hown, hy⟩

/-- The column the name refers to is one of the columns of the `FROM`. -/
theorem NamesOwnColumn.not_ownFree {query : Query} {params : List Json} {c v : String}
    (h : NamesOwnColumn I query params c v) : ¬ OwnFree (query.fromColumns I h.select) := by
  intro hfree
  obtain ⟨⟨col, x⟩, hfind, hown⟩ := Option.bind_eq_some_iff.mp h.own
  obtain ⟨name, -, hfind⟩ := Option.bind_eq_some_iff.mp hfind
  exact absurd ((hfree _ (List.mem_of_find?_eq_some hfind)).symm.trans hown) nofun

end Where

/-! ## 4. The anchored query -/

variable {I : Interpretation} {crates : Crates} {classifier : ReadClassifier}
  {index : VersionIndex} {sql : String} {params : List Json} {query : Query} {t c v : String}

theorem toAsciiLowercase_lastLower (n : ObjectName) :
    toAsciiLowercase (lastLower n) = lastLower n := by
  unfold lastLower
  cases n.getLast? with
  | none => rfl
  | some ident => exact toAsciiLowercase_idem _

/-- Rows with the value in one column of that name. -/
theorem sameRows_of_agreeAt {column : String} {db db' : Sql.Database}
    (hagree : AgreeAt I t c v db db') (hcolumn : toAsciiLowercase column = c)
    {r : Reference} (hr : lastLower r.name = t) : SameRows I column v db db' r := by
  intro table htable
  have htable : table.lowerName = t := (lastLower_of_storedTable _ htable).symm.trans hr
  have himp : ∀ tuple, I.hasValue column v table tuple = true →
      hasText I c v table tuple = true := by
    intro tuple h
    obtain ⟨⟨name, i⟩, hmem, hvalue⟩ := List.any_eq_true.mp h
    obtain ⟨hname, hvalue⟩ := Bool.and_eq_true_iff.mp hvalue
    refine List.any_eq_true.mpr ⟨(name, i), hmem, Bool.and_eq_true_iff.mpr ⟨?_, hvalue⟩⟩
    simpa [beq_iff_eq.mp hname] using hcolumn
  simpa using filter_map_congr (f := id) (hagree table htable) himp

/-- The table that is read is the one `version_of` anchors at. -/
theorem AnchoredAt.eq_of_reads
    (hanchored : AnchoredAt crates classifier index sql params query t c v) {n : ObjectName}
    (hreads : .factor n ∈ query.reads []) (hn : lastLower n ∉ outerCteNames query) :
    lastLower n = t := by
  obtain ⟨q, hq, hanchor⟩ := hanchored.anchored
  obtain ⟨query', hparse, -, -, -, -, rfl⟩ := ReadClassifier.classify_ok hq
  obtain rfl : query = query' := by simpa [hparse] using hanchored.parsed.symm
  have hmem : lastLower n ∈ queryTables query := mem_queryTables.mpr
    ⟨List.mem_map_of_mem (mem_visitRelations.mpr (Query.visit_of_reads query hreads)), hn⟩
  unfold VersionIndex.anchor at hanchor
  split at hanchor
  · rename_i table htables
    obtain ⟨filter, -, heq⟩ := Option.map_eq_some_iff.mp hanchor
    have htables : queryTables query = [table] := htables
    rw [htables, List.mem_singleton] at hmem
    rw [← (Prod.mk.inj heq).1, ← hmem, toAsciiLowercase_lastLower]
  · exact absurd hanchor nofun

/-- **An anchored query depends only on the rows at its anchor**, when the table is read at one
place and the anchored equality is of its own column there. -/
theorem anchor_scope_sound
    (hanchored : AnchoredAt crates classifier index sql params query t c v)
    (hbinds : Binds I params) (honce : ReadsOnce query)
    (hown : Nonempty (NamesOwnColumn I query params c v)) : DependsOnlyOn I query t c v := by
  obtain ⟨n, hreads, hn⟩ := honce
  obtain ⟨hown⟩ := hown
  have ht : lastLower n = t := hanchored.eq_of_reads (hreads ▸ List.mem_singleton_self _) hn
  intro db db' hagree
  refine Query.run_congr_of_pinned hown.body (by rw [hreads]; exact le_rfl) (fun r hr => ?_)
    hown.not_ownFree fun ctes row env => hown.pinned hbinds
  rw [hreads] at hr
  obtain rfl := List.mem_singleton.mp hr
  exact sameRows_of_agreeAt hagree hown.lower ht

/-! ## 5. Three statements -/

/-- The name of a result column. -/
def itemName : SelectItem → String
  | .unnamedExpr (.identifier ident) => ident.folded
  | .exprWithAlias _ ident => ident.folded
  | _ => "?column?"

/-- A select list on one row. -/
def projectRow (items : List (SelectItem × Meaning)) (env : Env) (row : Fields) : Tuple :=
  items.flatMap fun
    | (.wildcard, _) => (row.filter fun (col, _) => !col.hidden).map Prod.snd
    | (.qualifiedWildcard name, _) =>
      (row.filter fun (col, _) => col.qualifier == name.getLast?.map Ident.folded).map Prod.snd
    | (_, e) => [e (⟨row, []⟩ :: env)]

/-- PostgreSQL on a database of one table, `users`, and on statements that only select: without
grouping, ordering, set operations or calls. -/
def onlySelects : Interpretation where
  schema table := if table.name = "users" then ["id", "name"] else []
  columns _ query := match query.body with
    | .select (.mk _ _ items _ _ _ _ _) => items.map itemName
    | _ => []
  recursiveColumns _ _ := []
  callColumns _ _ := []
  keyword _ _ := none
  literal text := some text
  param _ := none
  operator _ _ _ := none
  function _ _ _ := none
  form _ _ _ := none
  scalar rows := (rows.head?.bind List.head?).join
  inRows _ _ _ := none
  call _ _ := []
  values _ := []
  setOperation _ _ _ := []
  project select _ items _ _ env rows := match select with
    | .mk _ _ projection _ _ _ _ _ =>
      rows.map fun row => (projectRow (projection.zip items) env row, ⟨row, []⟩ :: env)
  finish _ _ _ _ rows := rows.map Prod.fst
  insert _ _ _ _ _ := []
  update _ _ _ _ _ _ := []
  solve _ := []

/-- A database with these users. -/
def usersDb (rows : List Tuple) : Sql.Database := fun table =>
  if table.name = "users" then rows else []

/-- The table and the column are those of `userSevenQuery`. -/
theorem userSeven_own : Nonempty (NamesOwnColumn onlySelects userSevenQuery [] "id" "7") := ⟨{
  select := .mk false [] [.wildcard] none [.mk (.table [bareIdent "users"] none false []) []]
    (some (equalTo "id" (.value (.number "7")))) [] []
  body := rfl
  selection := equalTo "id" (.value (.number "7"))
  where' := rfl
  left := .identifier (bareIdent "id")
  right := .value (.number "7")
  mem := List.mem_singleton.mpr rfl
  side := .identifier (bareIdent "id")
  operand := .value (.number "7")
  sides := by rfl
  recorded := by rfl
  column := "id"
  own := by rfl
  lower := by rfl }⟩

theorem userSeven_scope_sound :
    DependsOnlyOn onlySelects userSevenQuery "users" "id" "7" := by
  have hanchored : AnchoredAt userSevenCrates (.new ["users"]) (.new [("users", "id")] [])
      userSevenSql [] userSevenQuery "users" "id" "7" :=
    ⟨by rfl, userSevenRead, userSeven_accepted, by rfl⟩
  exact anchor_scope_sound hanchored binds_nil ⟨[bareIdent "users"], by rfl, by decide⟩
    userSeven_own

/-- `SELECT items FROM users [AS ..] JOIN joined ON true WHERE column = 1`. -/
def usersJoin (as : Option TableAlias) (items : List SelectItem) (joined : TableFactor)
    (column : List Ident) : Query :=
  .mk false [] (.select (.mk false [] items none
    [.mk (.table [bareIdent "users"] as false [])
      [.mk joined .inner false [.value (.boolean true)] []]]
    (some (.binaryOp (.compoundIdentifier column) .eq (.value (.number "1")))) [] [])) [] [] []

/-- The text of a self-join. -/
def selfJoinSql : String := "SELECT b.* FROM users AS a JOIN users AS b ON true WHERE a.id = 1"

/-- Its second range variable is not filtered. -/
def selfJoinQuery : Query :=
  usersJoin (some ⟨bareIdent "a", []⟩) [.qualifiedWildcard [bareIdent "b"]]
    (.table [bareIdent "users"] (some ⟨bareIdent "b", []⟩) false [])
    [bareIdent "a", bareIdent "id"]

/-- The crates on it. -/
def selfJoinCrates : Crates := oneText selfJoinSql selfJoinQuery 11548676786484584389

/-- The text of a join whose filter is of a computed column. -/
def derivedColumnSql : String :=
  "SELECT users.* FROM users JOIN (SELECT 1 AS id) AS one ON true WHERE one.id = 1"

def derivedColumnQuery : Query :=
  usersJoin none [.qualifiedWildcard [bareIdent "users"]]
    (.derived false (.mk false [] (.select (.mk false []
      [.exprWithAlias (.value (.number "1")) (bareIdent "id")] none [] none [] [])) [] [] [])
      (some ⟨bareIdent "one", []⟩))
    [bareIdent "one", bareIdent "id"]

/-- The crates on it. -/
def derivedColumnCrates : Crates := oneText derivedColumnSql derivedColumnQuery 5232757435655665197

/-- Databases whose users with `id = 1` are the same. -/
theorem agreeAt_usersDb (rows rows' : List Tuple)
    (h : rows.filter (hasText onlySelects "id" "1" ⟨none, "users"⟩) =
      rows'.filter (hasText onlySelects "id" "1" ⟨none, "users"⟩)) :
    AgreeAt onlySelects "users" "id" "1" (usersDb rows) (usersDb rows') := by
  intro table _
  by_cases htable : table.name = "users"
  · have htext : hasText onlySelects "id" "1" table =
        hasText onlySelects "id" "1" ⟨none, "users"⟩ := by
      funext tuple
      simp [hasText, onlySelects, htable]
    simpa [usersDb, htable, htext] using h
  · simp [usersDb, htable]

/-- **The self-join is anchored at `id = 1` and returns every user.** -/
theorem anchored_self_join :
    AnchoredAt selfJoinCrates (.new ["users"]) (.new [("users", "id")] []) selfJoinSql []
        selfJoinQuery "users" "id" "1" ∧
      ¬ DependsOnlyOn onlySelects selfJoinQuery "users" "id" "1" := by
  have hfilters : queryFilters selfJoinQuery [] = [("id", "1")] :=
    (queryFilters_select []).trans (by rfl)
  have hq : (ReadClassifier.new ["users"]).classify selfJoinCrates selfJoinSql [] =
      .ok ⟨11548676786484584389, ["users"], queryFilters selfJoinQuery [], selfJoinSql, []⟩ := by
    rfl
  refine ⟨⟨by rfl, _, hq, ?_⟩, fun h => ?_⟩
  · rw [hfilters]
    rfl
  · have hsame := h _ _ (agreeAt_usersDb [[some "1", some "ann"]]
      [[some "1", some "ann"], [some "2", some "bob"]] (by rfl))
    exact absurd hsame (by decide)

/-- **So does the join on a computed column.** -/
theorem anchored_derived_column :
    AnchoredAt derivedColumnCrates (.new ["users"]) (.new [("users", "id")] []) derivedColumnSql []
        derivedColumnQuery "users" "id" "1" ∧
      ¬ DependsOnlyOn onlySelects derivedColumnQuery "users" "id" "1" := by
  have hfilters : queryFilters derivedColumnQuery [] = [("id", "1")] :=
    (queryFilters_select []).trans (by rfl)
  have hq : (ReadClassifier.new ["users"]).classify derivedColumnCrates derivedColumnSql [] =
      .ok ⟨5232757435655665197, ["users"], queryFilters derivedColumnQuery [], derivedColumnSql,
        []⟩ := by
    rfl
  refine ⟨⟨by rfl, _, hq, ?_⟩, fun h => ?_⟩
  · rw [hfilters]
    rfl
  · have hsame := h _ _ (agreeAt_usersDb [[some "1", some "ann"]]
      [[some "1", some "ann"], [some "2", some "bob"]] (by rfl))
    exact absurd hsame (by decide)

end PgPaw
