/-
# What a query returns

PostgreSQL's evaluation of the statements of `Sql.Ast`, as far as it decides which rows of
which tables a result depends on: the scope of common table expressions, the range variables
of a `FROM`, the four joins with `ON`, `USING` and `NATURAL`, `LATERAL`, what a column name
refers to, and three-valued `AND` and `=`.

What a function, an operator, an aggregate, a grouping or an `ORDER BY` makes of the values it
is given is an `Interpretation`.  One assumption is built into its type: a function computes
from its arguments and the rows of its group, and does not read tables of its own.

A value is its text, and `NULL` is the absence of one.  A name that is ambiguous is an error
for PostgreSQL; here it is the first candidate.
-/
import PgPaw.Lib.Join
import PgPaw.Sql.Scope

namespace PgPaw.Sql

/-! ## 1. Values, columns and names -/

/-- A value, as text. -/
abbrev Datum := Option String

/-- A row of a table or of a result. -/
abbrev Tuple := List Datum

/-- What is in the tables. -/
abbrev Database := StoredTable → List Tuple

/-- What a row satisfies. -/
def isTrue (d : Datum) : Bool := d == some "true"

/-- `AND`. -/
def conj : Datum → Datum → Datum
  | some "false", _ => some "false"
  | _, some "false" => some "false"
  | some "true", some "true" => some "true"
  | _, _ => none

/-- `=`. -/
def equal : Datum → Datum → Datum
  | some x, some y => some (if x = y then "true" else "false")
  | _, _ => none

theorem isTrue_conj {a b : Datum} (h : isTrue (conj a b) = true) :
    isTrue a = true ∧ isTrue b = true := by
  unfold conj at h
  split at h
  · exact absurd h (by decide)
  · exact absurd h (by decide)
  · exact ⟨rfl, rfl⟩
  · exact absurd h (by decide)

theorem isTrue_equal {a b : Datum} (h : isTrue (equal a b) = true) :
    ∃ x, a = some x ∧ b = some x := by
  cases a with
  | none => exact absurd h (by simp [equal, isTrue])
  | some x => cases b with
    | none => exact absurd h (by simp [equal, isTrue])
    | some y =>
      by_cases hxy : x = y
      · exact ⟨x, rfl, congrArg some hxy.symm⟩
      · exact absurd h (by simp [equal, isTrue, hxy])

/-- A column of the rows of a `FROM`. -/
structure Col where
  /-- The range variable it belongs to; none for a column merged by `USING`. -/
  qualifier : Option String
  name : String
  /-- Merged into another: only its qualified name refers to it. -/
  hidden : Bool
  /-- The column of the stored table it is, if it is one. -/
  own : Option String
  deriving DecidableEq, Repr

/-- A row of a `FROM`. -/
abbrev Fields := List (Col × Datum)

/-- A column name as an expression writes it. -/
structure Name where
  qualifier : Option String
  column : String
  deriving DecidableEq, Repr

/-- Whether the column goes by the name. -/
def Col.answers (name : Name) (col : Col) : Bool :=
  match name.qualifier with
  | none => !col.hidden && col.name == name.column
  | some _ => col.qualifier == name.qualifier && col.name == name.column

/-- The name of a possibly qualified identifier.  A schema before the table does not matter:
one that does not fit the table is an error. -/
def columnName (parts : List Ident) : Option Name :=
  match parts.reverse with
  | [] => none
  | [column] => some ⟨none, column.folded⟩
  | column :: table :: _ => some ⟨some table.folded, column.folded⟩

/-- The column a name refers to, and its value. -/
def findField (name : Name) (fields : Fields) : Option (Col × Datum) :=
  fields.find? fun (col, _) => col.answers name

/-- What an expression is evaluated against: the row of each query around it, innermost
first, and after grouping the rows of its group. -/
structure Frame where
  fields : Fields
  group : List Fields

abbrev Env := List Frame

/-- An expression's value, wherever it is evaluated. -/
abbrev Meaning := Env → Datum

/-- The innermost value a name refers to. -/
def lookupName (name : Name) (env : Env) : Option Datum :=
  env.findSome? fun frame => (findField name frame.fields).map Prod.snd

/-! ## 2. Range variables and joins -/

/-- The same columns without a value. -/
def blank (fields : Fields) : Fields := fields.map fun (col, _) => (col, none)

/-- A row of a table under the names of its columns. -/
def bindRow (cols : List Col) (tuple : Tuple) : Fields :=
  cols.zipIdx.map fun (col, i) => (col, tuple[i]?.join)

/-- Names after an alias list: it renames as many as it has. -/
def renamed (aliases : List Ident) (i : Nat) (name : String) : String :=
  (aliases[i]?.map Ident.folded).getD name

/-- The columns of a range variable. -/
def factorCols (qualifier : Option String) (aliases : List Ident) (stored : Bool)
    (names : List String) : List Col :=
  names.zipIdx.map fun (name, i) =>
    ⟨qualifier, renamed aliases i name, false, if stored then some name else none⟩

/-- A join under an alias: one range variable, of the columns that are not hidden. -/
def aliasFields (as : Option TableAlias) (fields : Fields) : Fields :=
  match as with
  | none => fields
  | some a => (fields.filter fun (col, _) => !col.hidden).zipIdx.map fun ((col, x), i) =>
    ({ col with qualifier := some a.name.folded, name := renamed a.columns i col.name }, x)

/-- The value of the column that goes by an unqualified name. -/
def visibleValue (fields : Fields) (column : String) : Datum :=
  ((findField ⟨none, column⟩ fields).map Prod.snd).join

/-- The column of one side as the merged one. -/
def copyField (fields : Fields) (column : String) : Col × Datum :=
  match findField ⟨none, column⟩ fields with
  | some (col, x) => (⟨none, column, false, col.own⟩, x)
  | none => (⟨none, column, false, none⟩, none)

/-- A column of `USING` after the join. -/
def mergedField (op : JoinOperator) (l r : Fields) (column : String) : Col × Datum :=
  match op with
  | .inner | .leftOuter => copyField l column
  | .rightOuter => copyField r column
  | .fullOuter =>
    (⟨none, column, false, none⟩, (visibleValue l column).or (visibleValue r column))

/-- The columns that were merged, hidden. -/
def hide (columns : List String) (fields : Fields) : Fields :=
  fields.map fun (col, x) =>
    (if columns.contains col.name then { col with hidden := true } else col, x)

/-- A pair of partners as one row. -/
def merge (op : JoinOperator) (columns : List String) (l r : Fields) : Fields :=
  columns.map (mergedField op l r) ++ hide columns l ++ hide columns r

/-- The columns a join merges. -/
def joinColumns (natural : Bool) (using' : List Ident) (l r : Fields) : List String :=
  if natural then
    (l.filter fun (col, _) => !col.hidden && (findField ⟨none, col.name⟩ r).isSome).map (·.1.name)
  else using'.map Ident.folded

/-- Whether two rows are partners. -/
def partners (columns : List String) (on : List Meaning) (env : Env) (l r : Fields) : Bool :=
  columns.all (fun column => isTrue (equal (visibleValue l column) (visibleValue r column))) &&
    on.all fun e => isTrue (e (⟨l ++ r, []⟩ :: env))

/-- The rows of a join.  Only in an inner and in a left join may the right side depend on the
row of the left one; `all` are its rows in the other two. -/
def joinRows (op : JoinOperator) (columns : List String) (on : Fields → Fields → Bool)
    (nullsL nullsR : Fields) (ls : List Fields) (rs : Fields → List Fields)
    (all : List Fields) : List Fields :=
  match op with
  | .inner => Join.inner ls rs on (merge op columns)
  | .leftOuter => Join.left ls rs on (merge op columns) fun l => merge op columns l nullsR
  | .rightOuter =>
    Join.inner ls (fun _ => all) on (merge op columns) ++
      Join.unmatched ls all on (merge op columns nullsL)
  | .fullOuter =>
    Join.left ls (fun _ => all) on (merge op columns) (fun l => merge op columns l nullsR) ++
      Join.unmatched ls all on (merge op columns nullsL)

/-! ## 3. Evaluation -/

/-- A common table expression, evaluated. -/
structure Relation where
  columns : List String
  rows : List Tuple

/-- The common table expressions in scope, innermost first. -/
abbrev CteEnv := List (String × Relation)

/-- Their columns. -/
abbrev Shapes := List (String × List String)

def shapes (ctes : CteEnv) : Shapes := ctes.map fun (name, relation) => (name, relation.columns)

/-- The common table expression a name denotes. -/
def cteOf {α : Type} (ctes : List (String × α)) : ObjectName → Option α
  | [i] => ctes.lookup i.folded
  | _ => none

/-- **What PostgreSQL makes of values**: the tables' columns and the columns of a result, and
the meaning of all that only computes. -/
structure Interpretation where
  schema : StoredTable → List String
  columns : Shapes → Query → List String
  recursiveColumns : Shapes → List Cte → List (List String)
  callColumns : String → Option TableAlias → List String
  /-- An identifier that is no column: a whole row, a keyword such as `current_user`. -/
  keyword : List Ident → Meaning
  literal : String → Datum
  param : String → Datum
  operator : String → Datum → Datum → Datum
  function : ObjectName → List Meaning → Meaning
  form : String → List Meaning → Meaning
  scalar : List Tuple → Datum
  inRows : Bool → Datum → List Tuple → Datum
  call : String → List Datum → List Tuple
  values : List Datum → List Tuple
  setOperation : String → List Tuple → List Tuple → List Tuple
  /-- Grouping, `HAVING`, the select list and `DISTINCT`, on the rows the `WHERE` kept; each
  row of the result with what an `ORDER BY` may refer to. -/
  project : Select → (distinctOn items groupBy having : List Meaning) → Env → List Fields →
    List (Tuple × Env)
  /-- `ORDER BY`, `LIMIT` and `OFFSET`. -/
  finish : Query → (orderBy limits : List Meaning) → Env → List (Tuple × Env) → List Tuple
  /-- The rows of a `RETURNING`; without a source every column takes its default. -/
  insert : ObjectName → (source : Option (List Tuple)) → (onConflict returning : List Meaning) →
    Env → List Tuple
  update : TableWithJoins → (target from' : List Fields) → (exprs returning : List Meaning) →
    Env → List Tuple
  /-- The members of a `WITH RECURSIVE`, from their rows as functions of their rows. -/
  solve : (List (List Tuple) → List (List Tuple)) → List (List Tuple)

/-- The value of a literal. -/
def Interpretation.value (I : Interpretation) : Value → Datum
  | .number text | .singleQuotedString text => some text
  | .boolean flag => some (if flag then "true" else "false")
  | .null => none
  | .placeholder text => I.param text
  | .other text => I.literal text

/-- The value of a name. -/
def Interpretation.nameValue (I : Interpretation) (parts : List Ident) : Meaning := fun env =>
  match (columnName parts).bind fun name => lookupName name env with
  | some x => x
  | none => I.keyword parts env

/-- The columns of a name in a `FROM`. -/
def Interpretation.tableCols (I : Interpretation) (ctes : Shapes) (name : ObjectName)
    (as : Option TableAlias) (call : Bool) : List Col :=
  let qualifier := match as with
    | some a => some a.name.folded
    | none => name.getLast?.map Ident.folded
  let aliases := (as.map TableAlias.columns).getD []
  if call then factorCols qualifier aliases false (I.callColumns name.display as)
  else match cteOf ctes name with
    | some columns => factorCols qualifier aliases false columns
    | none => factorCols qualifier aliases true ((storedTable name).elim [] I.schema)

/-- The columns of a derived table or a function call. -/
def aliasCols (as : Option TableAlias) (names : List String) : List Col :=
  factorCols (as.map fun a => a.name.folded) ((as.map TableAlias.columns).getD []) false names

/-- The columns of a common table expression. -/
def Interpretation.cteColumns (I : Interpretation) (ctes : Shapes) (as : TableAlias)
    (q : Query) : List String :=
  (I.columns ctes q).zipIdx.map fun (name, i) => renamed as.columns i name

/-- The members of a `WITH RECURSIVE`, given their rows. -/
def Interpretation.recursiveCtes (I : Interpretation) (cs : List Cte) (outer : CteEnv)
    (rows : List (List Tuple)) : CteEnv :=
  cs.zipIdx.map fun (cte, i) => (cte.tableAlias.name.folded,
    ⟨((I.recursiveColumns (shapes outer) cs)[i]?).getD [], (rows[i]?).getD []⟩)

/-- The columns of the members of a `WITH` and of what was in scope before. -/
def Interpretation.cteShapes (I : Interpretation) : List Cte → Shapes → Shapes
  | [], outer => outer
  | .mk a q :: cs, outer => I.cteShapes cs ((a.name.folded, I.cteColumns outer a q) :: outer)

/-- The same for `WITH RECURSIVE`. -/
def Interpretation.recursiveShapes (I : Interpretation) (cs : List Cte) (outer : Shapes) :
    Shapes :=
  (cs.zipIdx.map fun (cte, i) =>
    (cte.tableAlias.name.folded, ((I.recursiveColumns outer cs)[i]?).getD [])) ++ outer

/-- The columns of what is in scope in the body of a query. -/
def Interpretation.bodyShapes (I : Interpretation) (query : Query) (outer : Shapes) : Shapes :=
  match query with
  | .mk r cs _ _ _ _ => if r then I.recursiveShapes cs outer else I.cteShapes cs outer

mutual

/-- The columns of a `FROM` item, as a row of `NULL`s. -/
def TableFactor.nulls (I : Interpretation) (ctes : Shapes) : TableFactor → Fields
  | .table n as call _ => bindRow (I.tableCols ctes n as call) []
  | .derived _ q as => bindRow (aliasCols as (I.columns ctes q)) []
  | .function name _ as => bindRow (aliasCols as (I.callColumns name.display as)) []
  | .nestedJoin t as => aliasFields as (t.nulls I ctes)

def TableWithJoins.nulls (I : Interpretation) (ctes : Shapes) : TableWithJoins → Fields
  | .mk t js => nullsJoins I ctes js (t.nulls I ctes)

def nullsJoins (I : Interpretation) (ctes : Shapes) : List Join → Fields → Fields
  | [], l => l
  | .mk t op natural _ using' :: js, l =>
    nullsJoins I ctes js
      (merge op (joinColumns natural using' l (t.nulls I ctes)) l (t.nulls I ctes))

end

/-- `select.from`. -/
def Select.from' : Select → List TableWithJoins
  | .mk _ _ _ _ f _ _ _ => f

/-- The columns of a `FROM`. -/
def nullsTables (I : Interpretation) (ctes : Shapes) (ts : List TableWithJoins) : Fields :=
  ts.flatMap fun t => t.nulls I ctes

mutual

/-- The value of an expression. -/
def Expr.eval (I : Interpretation) (db : Database) : Expr → CteEnv → Meaning
  | .identifier i, _ => I.nameValue [i]
  | .compoundIdentifier ps, _ => I.nameValue ps
  | .value v, _ => fun _ => I.value v
  | .binaryOp l .and r, ctes => fun env => conj (l.eval I db ctes env) (r.eval I db ctes env)
  | .binaryOp l .eq r, ctes => fun env => equal (l.eval I db ctes env) (r.eval I db ctes env)
  | .binaryOp l (.other symbol) r, ctes => fun env =>
    I.operator symbol (l.eval I db ctes env) (r.eval I db ctes env)
  | .nested e, ctes => e.eval I db ctes
  | .function n args, ctes => I.function n (evalExprs I db args ctes)
  | .subquery q, ctes => fun env => I.scalar (q.eval I db ctes env)
  | .exists q negated, ctes => fun env =>
    some (if (q.eval I db ctes env).isEmpty == negated then "true" else "false")
  | .inSubquery e q negated, ctes => fun env =>
    I.inRows negated (e.eval I db ctes env) (q.eval I db ctes env)
  | .form k es, ctes => I.form k (evalExprs I db es ctes)

def evalExprs (I : Interpretation) (db : Database) : List Expr → CteEnv → List Meaning
  | [], _ => []
  | e :: es, ctes => e.eval I db ctes :: evalExprs I db es ctes

/-- Whether a `WHERE` keeps a row. -/
def evalSelection (I : Interpretation) (db : Database) : Option Expr → CteEnv → Env → Bool
  | none, _, _ => true
  | some e, ctes, env => isTrue (e.eval I db ctes env)

/-- The rows a query returns. -/
def Query.eval (I : Interpretation) (db : Database) : Query → CteEnv → Env → List Tuple
  | .mk r cs b obs ls lk, ctes, env =>
    let scope := if r then
      I.recursiveCtes cs ctes (I.solve fun rows =>
        evalMembers I db cs (I.recursiveCtes cs ctes rows ++ ctes) env) ++ ctes
    else evalCtes I db cs ctes env
    I.finish (.mk r cs b obs ls lk) (evalExprs I db obs scope) (evalExprs I db ls scope) env
      (b.eval I db scope env)

/-- The rows an `INSERT` is given. -/
def evalSource (I : Interpretation) (db : Database) : Option Query → CteEnv → Env →
    Option (List Tuple)
  | none, _, _ => none
  | some q, ctes, env => some (q.eval I db ctes env)

/-- The members of a `WITH`: each sees those before it. -/
def evalCtes (I : Interpretation) (db : Database) : List Cte → CteEnv → Env → CteEnv
  | [], ctes, _ => ctes
  | .mk a q :: cs, ctes, env =>
    evalCtes I db cs ((a.name.folded,
      ⟨I.cteColumns (shapes ctes) a q, q.eval I db ctes env⟩) :: ctes) env

/-- The members of a `WITH RECURSIVE`, each in the scope of all. -/
def evalMembers (I : Interpretation) (db : Database) : List Cte → CteEnv → Env →
    List (List Tuple)
  | [], _, _ => []
  | .mk _ q :: cs, ctes, env => q.eval I db ctes env :: evalMembers I db cs ctes env

def SetExpr.eval (I : Interpretation) (db : Database) : SetExpr → CteEnv → Env →
    List (Tuple × Env)
  | .select s, ctes, env => s.eval I db ctes env
  | .query q, ctes, env => (q.eval I db ctes env).map fun row => (row, env)
  | .setOperation op l r, ctes, env =>
    (I.setOperation op ((l.eval I db ctes env).map Prod.fst)
      ((r.eval I db ctes env).map Prod.fst)).map fun row => (row, env)
  | .values es, ctes, env =>
    (I.values ((evalExprs I db es ctes).map fun e => e env)).map fun row => (row, env)
  | .insert t q on ret, ctes, env =>
    (I.insert t (evalSource I db q ctes env) (evalExprs I db on ctes) (evalItems I db ret ctes)
      env).map fun row => (row, env)
  | .update t f es ret, ctes, env =>
    (I.update t (t.eval I db ctes env []) (evalTables I db f ctes env [])
      (evalExprs I db es ctes) (evalItems I db ret ctes) env).map fun row => (row, env)
  | .table s n, ctes, env =>
    let name := s.toList ++ [n]
    (match cteOf ctes name with
      | some relation => relation.rows
      | none => (storedTable name).elim [] db).map fun row => (row, env)

def Select.eval (I : Interpretation) (db : Database) : Select → CteEnv → Env →
    List (Tuple × Env)
  | .mk d don ps into f w g h, ctes, env =>
    I.project (.mk d don ps into f w g h) (evalExprs I db don ctes) (evalItems I db ps ctes)
      (evalExprs I db g ctes) (evalExprs I db h ctes) env
      ((evalTables I db f ctes env []).filter fun row =>
        evalSelection I db w ctes (⟨row, []⟩ :: env))

def evalItems (I : Interpretation) (db : Database) : List SelectItem → CteEnv → List Meaning
  | [], _ => []
  | .unnamedExpr e :: is, ctes => e.eval I db ctes :: evalItems I db is ctes
  | .exprWithAlias e _ :: is, ctes => e.eval I db ctes :: evalItems I db is ctes
  | .qualifiedWildcard _ :: is, ctes => (fun _ => none) :: evalItems I db is ctes
  | .wildcard :: is, ctes => (fun _ => none) :: evalItems I db is ctes

/-- The rows of a `FROM` item, which may refer to the items to its left. -/
def TableWithJoins.eval (I : Interpretation) (db : Database) : TableWithJoins → CteEnv → Env →
    Fields → List Fields
  | .mk t js, ctes, env, before =>
    evalJoins I db js ctes env before (t.eval I db ctes env before) (t.nulls I (shapes ctes))

def evalTables (I : Interpretation) (db : Database) : List TableWithJoins → CteEnv → Env →
    Fields → List Fields
  | [], _, _, _ => [[]]
  | t :: ts, ctes, env, before =>
    Join.inner (t.eval I db ctes env before) (fun l => evalTables I db ts ctes env (before ++ l))
      (fun _ _ => true) (· ++ ·)

def evalJoins (I : Interpretation) (db : Database) : List Join → CteEnv → Env → Fields →
    List Fields → Fields → List Fields
  | [], _, _, _, ls, _ => ls
  | .mk t op natural on using' :: js, ctes, env, before, ls, nulls =>
    let columns := joinColumns natural using' nulls (t.nulls I (shapes ctes))
    evalJoins I db js ctes env before
      (joinRows op columns (partners columns (evalExprs I db on ctes) env) nulls
        (t.nulls I (shapes ctes)) ls (fun l => t.eval I db ctes env (before ++ l))
        (t.eval I db ctes env before))
      (merge op columns nulls (t.nulls I (shapes ctes)))

def TableFactor.eval (I : Interpretation) (db : Database) : TableFactor → CteEnv → Env →
    Fields → List Fields
  | .table n as call args, ctes, env, before =>
    (if call then I.call n.display ((evalExprs I db args ctes).map fun e => e (⟨before, []⟩ :: env))
      else match cteOf ctes n with
        | some relation => relation.rows
        | none => (storedTable n).elim [] db).map (bindRow (I.tableCols (shapes ctes) n as call))
  | .derived lateral q as, ctes, env, before =>
    (q.eval I db ctes (if lateral then ⟨before, []⟩ :: env else env)).map
      (bindRow (aliasCols as (I.columns (shapes ctes) q)))
  | .function name args as, ctes, env, before =>
    (I.call name.display ((evalExprs I db args ctes).map fun e => e (⟨before, []⟩ :: env))).map
      (bindRow (aliasCols as (I.callColumns name.display as)))
  | .nestedJoin t as, ctes, env, before => (t.eval I db ctes env before).map (aliasFields as)

end

/-- **What the server is answered**: the rows of an outermost query. -/
def Query.run (I : Interpretation) (query : Query) (db : Database) : List Tuple :=
  query.eval I db [] []

end PgPaw.Sql
