/-
# What `sqlparser`'s visitor meets

`visit_relations` and `visit_expressions` walk a statement depth first and call back on the
name of every table factor and on every expression.  Both are read off one walk here,
`Query.visit`, which also records the queries it enters.

Two node kinds carry table names the walk does NOT report, because the crate stores no
`ObjectName` of a table factor there: the body `TABLE name` (`SetExpr::Table`) and the target
of an `INSERT`.
-/
import PgPaw.Sql.Ast

namespace PgPaw.Sql

/-- A callback of the visitor. -/
inductive Visited
  | query (query : Query)
  | relation (name : ObjectName)
  | expr (expr : Expr)

mutual

/-- The walk below an expression, the expression included. -/
def Expr.visit : Expr → List Visited
  | .identifier i => [.expr (.identifier i)]
  | .compoundIdentifier ps => [.expr (.compoundIdentifier ps)]
  | .value v => [.expr (.value v)]
  | .binaryOp l op r => .expr (.binaryOp l op r) :: (l.visit ++ r.visit)
  | .nested e => .expr (.nested e) :: e.visit
  | .function n args => .expr (.function n args) :: visitExprs args
  | .subquery q => .expr (.subquery q) :: q.visit
  | .exists q n => .expr (.exists q n) :: q.visit
  | .inSubquery e q n => .expr (.inSubquery e q n) :: (e.visit ++ q.visit)
  | .form k es => .expr (.form k es) :: visitExprs es

def visitExprs : List Expr → List Visited
  | [] => []
  | e :: es => e.visit ++ visitExprs es

def visitSelection : Option Expr → List Visited
  | none => []
  | some e => e.visit

/-- The walk of a query. -/
def Query.visit : Query → List Visited
  | .mk r cs b obs ls lk =>
    .query (.mk r cs b obs ls lk) :: (visitCtes cs ++ b.visit ++ visitExprs obs ++ visitExprs ls)

/-- The source of an `INSERT`. -/
def visitSource : Option Query → List Visited
  | none => []
  | some q => q.visit

def visitCtes : List Cte → List Visited
  | [] => []
  | .mk _ q :: cs => q.visit ++ visitCtes cs

def SetExpr.visit : SetExpr → List Visited
  | .select s => s.visit
  | .query q => q.visit
  | .setOperation _ l r => l.visit ++ r.visit
  | .values rows => visitExprs rows
  | .insert _ q on ret => visitSource q ++ visitExprs on ++ visitItems ret
  | .update t f es ret => t.visit ++ visitTables f ++ visitExprs es ++ visitItems ret
  | .table _ _ => []

def Select.visit : Select → List Visited
  | .mk _ d ps _ f w g h =>
    visitExprs d ++ visitItems ps ++ visitTables f ++ visitSelection w ++ visitExprs g ++
      visitExprs h

def visitItems : List SelectItem → List Visited
  | [] => []
  | .unnamedExpr e :: is => e.visit ++ visitItems is
  | .exprWithAlias e _ :: is => e.visit ++ visitItems is
  | .qualifiedWildcard _ :: is => visitItems is
  | .wildcard :: is => visitItems is

def TableWithJoins.visit : TableWithJoins → List Visited
  | .mk t js => t.visit ++ visitJoins js

def visitTables : List TableWithJoins → List Visited
  | [] => []
  | t :: ts => t.visit ++ visitTables ts

def visitJoins : List Join → List Visited
  | [] => []
  | .mk t _ _ on _ :: js => t.visit ++ visitExprs on ++ visitJoins js

def TableFactor.visit : TableFactor → List Visited
  | .table n _ _ args => .relation n :: visitExprs args
  | .derived _ q _ => q.visit
  | .function _ args _ => visitExprs args
  | .nestedJoin t _ => t.visit

end

/-- `visit_relations`: the names passed to its callback, in order. -/
def Query.visitRelations (q : Query) : List ObjectName :=
  q.visit.filterMap fun
    | .relation n => some n
    | _ => none

/-- `visit_expressions`: the expressions passed to its callback, in order. -/
def Query.visitExpressions (q : Query) : List Expr :=
  q.visit.filterMap fun
    | .expr e => some e
    | _ => none

theorem mem_visitRelations {q : Query} {n : ObjectName} :
    n ∈ q.visitRelations ↔ Visited.relation n ∈ q.visit := by
  simp only [Query.visitRelations, List.mem_filterMap]
  constructor
  · rintro ⟨v, hv, hn⟩
    cases v with
    | relation m =>
      simp only [Option.some.injEq] at hn
      exact hn ▸ hv
    | query _ => exact absurd hn nofun
    | expr _ => exact absurd hn nofun
  · exact fun h => ⟨_, h, rfl⟩

/-! ## How names print -/

/-- `value::escape_quoted_string`: a quote is doubled, unless the text already escapes it. -/
def escapeQuoted (quote : Char) : Char → List Char → List Char
  | _, [] => []
  | previous, c :: cs =>
    if c != quote then c :: escapeQuoted quote c cs
    else if previous == '\\' then c :: escapeQuoted quote previous cs
    else match cs with
      | [] => [c, c]
      | d :: ds =>
        if d == quote then c :: c :: escapeQuoted quote c ds
        else c :: c :: escapeQuoted quote c (d :: ds)

/-- `Ident: Display`. -/
def Ident.display (i : Ident) : String :=
  match i.quoteStyle with
  | none => i.value
  | some '[' => "[" ++ i.value ++ "]"
  | some q =>
    String.ofList (q :: escapeQuoted q '\x00' i.value.toList ++ [q])

/-- `ObjectName: Display`: the parts, joined by dots. -/
def ObjectName.display (name : ObjectName) : String := ".".intercalate (name.map Ident.display)

end PgPaw.Sql
