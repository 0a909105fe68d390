/-
# Every node of a statement

The visitor of `Sql.Visit` reports the names of tables and the expressions.  `Query.nodes` lists
everything a statement is made of, at every depth: the queries, their bodies with the operands
of set operations, the `SELECT`s, the expressions and the factors of each `FROM`.

What the visitor meets is a part of it, in the same order (`Query.visit_eq`).  A property of a
whole statement is one of its nodes; a check made on the visitor's reports, or on the outermost
query alone, is one of a part of them.
-/
import PgPaw.Sql.Visit

namespace PgPaw.Sql

/-- A node of a statement. -/
inductive Node
  | query (query : Query)
  | setExpr (body : SetExpr)
  | select (select : Select)
  | expr (expr : Expr)
  | factor (factor : TableFactor)

/-- What the visitor reports of a node. -/
def Node.visited : Node → Option Visited
  | query q => some (.query q)
  | expr e => some (.expr e)
  | factor (.table n _ _ _) => some (.relation n)
  | factor _ | setExpr _ | select _ => none

section Visited

@[simp] theorem visited_query (q : Query) : (Node.query q).visited = some (.query q) := rfl

@[simp] theorem visited_expr (e : Expr) : (Node.expr e).visited = some (.expr e) := rfl

@[simp] theorem visited_setExpr (b : SetExpr) : (Node.setExpr b).visited = none := rfl

@[simp] theorem visited_select (s : Select) : (Node.select s).visited = none := rfl

@[simp] theorem visited_table (n : ObjectName) (as : Option TableAlias) (call : Bool)
    (args : List Expr) : (Node.factor (.table n as call args)).visited = some (.relation n) := rfl

@[simp] theorem visited_derived (l : Bool) (q : Query) (as : Option TableAlias) :
    (Node.factor (.derived l q as)).visited = none := rfl

@[simp] theorem visited_function (n : ObjectName) (args : List Expr) (as : Option TableAlias) :
    (Node.factor (.function n args as)).visited = none := rfl

@[simp] theorem visited_nestedJoin (t : TableWithJoins) (as : Option TableAlias) :
    (Node.factor (.nestedJoin t as)).visited = none := rfl

end Visited

mutual

def Expr.nodes : Expr → List Node
  | .identifier i => [.expr (.identifier i)]
  | .compoundIdentifier ps => [.expr (.compoundIdentifier ps)]
  | .value v => [.expr (.value v)]
  | .binaryOp l op r => .expr (.binaryOp l op r) :: (l.nodes ++ r.nodes)
  | .nested e => .expr (.nested e) :: e.nodes
  | .function n args => .expr (.function n args) :: nodesExprs args
  | .subquery q => .expr (.subquery q) :: q.nodes
  | .exists q n => .expr (.exists q n) :: q.nodes
  | .inSubquery e q n => .expr (.inSubquery e q n) :: (e.nodes ++ q.nodes)
  | .form k es => .expr (.form k es) :: nodesExprs es

def nodesExprs : List Expr → List Node
  | [] => []
  | e :: es => e.nodes ++ nodesExprs es

def nodesSelection : Option Expr → List Node
  | none => []
  | some e => e.nodes

def Query.nodes : Query → List Node
  | .mk r cs b obs ls lk =>
    .query (.mk r cs b obs ls lk) :: (nodesCtes cs ++ b.nodes ++ nodesExprs obs ++ nodesExprs ls)

def nodesSource : Option Query → List Node
  | none => []
  | some q => q.nodes

def nodesCtes : List Cte → List Node
  | [] => []
  | .mk _ q :: cs => q.nodes ++ nodesCtes cs

def SetExpr.nodes : SetExpr → List Node
  | .select s => .setExpr (.select s) :: s.nodes
  | .query q => .setExpr (.query q) :: q.nodes
  | .setOperation op l r => .setExpr (.setOperation op l r) :: (l.nodes ++ r.nodes)
  | .values rows => .setExpr (.values rows) :: nodesExprs rows
  | .insert t q on ret =>
    .setExpr (.insert t q on ret) :: (nodesSource q ++ nodesExprs on ++ nodesItems ret)
  | .update t f es ret =>
    .setExpr (.update t f es ret) :: (t.nodes ++ nodesTables f ++ nodesExprs es ++ nodesItems ret)
  | .table s n => [.setExpr (.table s n)]

def Select.nodes : Select → List Node
  | .mk x d ps i f w g h =>
    .select (.mk x d ps i f w g h) :: (nodesExprs d ++ nodesItems ps ++ nodesTables f ++
      nodesSelection w ++ nodesExprs g ++ nodesExprs h)

def nodesItems : List SelectItem → List Node
  | [] => []
  | .unnamedExpr e :: is => e.nodes ++ nodesItems is
  | .exprWithAlias e _ :: is => e.nodes ++ nodesItems is
  | .qualifiedWildcard _ :: is => nodesItems is
  | .wildcard :: is => nodesItems is

def TableWithJoins.nodes : TableWithJoins → List Node
  | .mk t js => t.nodes ++ nodesJoins js

def nodesTables : List TableWithJoins → List Node
  | [] => []
  | t :: ts => t.nodes ++ nodesTables ts

def nodesJoins : List Join → List Node
  | [] => []
  | .mk t _ _ on _ :: js => t.nodes ++ nodesExprs on ++ nodesJoins js

def TableFactor.nodes : TableFactor → List Node
  | .table n a c args => .factor (.table n a c args) :: nodesExprs args
  | .derived l q a => .factor (.derived l q a) :: q.nodes
  | .function n args a => .factor (.function n args a) :: nodesExprs args
  | .nestedJoin t a => .factor (.nestedJoin t a) :: t.nodes

end

/-! ## The visitor's part -/

mutual

theorem Expr.visit_eq : ∀ e : Expr, e.visit = e.nodes.filterMap Node.visited
  | .identifier _ | .compoundIdentifier _ | .value _ => rfl
  | .binaryOp l _ r => by simp [Expr.visit, Expr.nodes, l.visit_eq, r.visit_eq]
  | .nested e => by simp [Expr.visit, Expr.nodes, e.visit_eq]
  | .function _ args => by simp [Expr.visit, Expr.nodes, visitExprs_eq args]
  | .subquery q => by simp [Expr.visit, Expr.nodes, q.visit_eq]
  | .exists q _ => by simp [Expr.visit, Expr.nodes, q.visit_eq]
  | .inSubquery e q _ => by simp [Expr.visit, Expr.nodes, e.visit_eq, q.visit_eq]
  | .form _ es => by simp [Expr.visit, Expr.nodes, visitExprs_eq es]

theorem visitExprs_eq : ∀ es : List Expr, visitExprs es = (nodesExprs es).filterMap Node.visited
  | [] => rfl
  | e :: es => by simp [visitExprs, nodesExprs, e.visit_eq, visitExprs_eq es]

theorem visitSelection_eq :
    ∀ w : Option Expr, visitSelection w = (nodesSelection w).filterMap Node.visited
  | none => rfl
  | some e => e.visit_eq

/-- **The visitor meets the nodes of a query it knows of, in order.** -/
theorem Query.visit_eq : ∀ q : Query, q.visit = q.nodes.filterMap Node.visited
  | .mk r cs b obs ls lk => by
    simp [Query.visit, Query.nodes, visitCtes_eq cs, b.visit_eq, visitExprs_eq obs,
      visitExprs_eq ls]

theorem visitSource_eq : ∀ q : Option Query, visitSource q = (nodesSource q).filterMap Node.visited
  | none => rfl
  | some q => q.visit_eq

theorem visitCtes_eq : ∀ cs : List Cte, visitCtes cs = (nodesCtes cs).filterMap Node.visited
  | [] => rfl
  | .mk _ q :: cs => by simp [visitCtes, nodesCtes, q.visit_eq, visitCtes_eq cs]

theorem SetExpr.visit_eq : ∀ b : SetExpr, b.visit = b.nodes.filterMap Node.visited
  | .select s => by simp [SetExpr.visit, SetExpr.nodes, List.filterMap_cons, s.visit_eq]
  | .query q => by simp [SetExpr.visit, SetExpr.nodes, List.filterMap_cons, q.visit_eq]
  | .setOperation _ l r => by
    simp [SetExpr.visit, SetExpr.nodes, List.filterMap_cons, l.visit_eq, r.visit_eq]
  | .values rows => by simp [SetExpr.visit, SetExpr.nodes, List.filterMap_cons, visitExprs_eq rows]
  | .insert _ q on ret => by
    simp [SetExpr.visit, SetExpr.nodes, List.filterMap_cons, visitSource_eq q, visitExprs_eq on,
      visitItems_eq ret]
  | .update t f es ret => by
    simp [SetExpr.visit, SetExpr.nodes, List.filterMap_cons, t.visit_eq, visitTables_eq f,
      visitExprs_eq es, visitItems_eq ret]
  | .table _ _ => rfl

theorem Select.visit_eq : ∀ s : Select, s.visit = s.nodes.filterMap Node.visited
  | .mk x d ps i f w g h => by
    simp [Select.visit, Select.nodes, List.filterMap_cons, visitExprs_eq d, visitItems_eq ps,
      visitTables_eq f, visitSelection_eq w, visitExprs_eq g, visitExprs_eq h]

theorem visitItems_eq :
    ∀ is : List SelectItem, visitItems is = (nodesItems is).filterMap Node.visited
  | [] => rfl
  | .unnamedExpr e :: is => by simp [visitItems, nodesItems, e.visit_eq, visitItems_eq is]
  | .exprWithAlias e _ :: is => by simp [visitItems, nodesItems, e.visit_eq, visitItems_eq is]
  | .qualifiedWildcard _ :: is => visitItems_eq is
  | .wildcard :: is => visitItems_eq is

theorem TableWithJoins.visit_eq :
    ∀ t : TableWithJoins, t.visit = t.nodes.filterMap Node.visited
  | .mk t js => by simp [TableWithJoins.visit, TableWithJoins.nodes, t.visit_eq, visitJoins_eq js]

theorem visitTables_eq :
    ∀ ts : List TableWithJoins, visitTables ts = (nodesTables ts).filterMap Node.visited
  | [] => rfl
  | t :: ts => by simp [visitTables, nodesTables, t.visit_eq, visitTables_eq ts]

theorem visitJoins_eq : ∀ js : List Join, visitJoins js = (nodesJoins js).filterMap Node.visited
  | [] => rfl
  | .mk t _ _ on _ :: js => by
    simp [visitJoins, nodesJoins, t.visit_eq, visitExprs_eq on, visitJoins_eq js]

theorem TableFactor.visit_eq : ∀ t : TableFactor, t.visit = t.nodes.filterMap Node.visited
  | .table _ _ _ args => by
    simp [TableFactor.visit, TableFactor.nodes, visitExprs_eq args]
  | .derived _ q _ => by
    simp [TableFactor.visit, TableFactor.nodes, List.filterMap_cons, q.visit_eq]
  | .function _ args _ => by
    simp [TableFactor.visit, TableFactor.nodes, List.filterMap_cons, visitExprs_eq args]
  | .nestedJoin t _ => by
    simp [TableFactor.visit, TableFactor.nodes, List.filterMap_cons, t.visit_eq]

end

/-- The visitor calls back on every expression. -/
theorem mem_visitExpressions {q : Query} {e : Expr} :
    e ∈ q.visitExpressions ↔ Node.expr e ∈ q.nodes := by
  rw [Query.visitExpressions, q.visit_eq]
  simp only [List.mem_filterMap]
  constructor
  · rintro ⟨v, ⟨node, hnode, hv⟩, he⟩
    cases node with
    | expr e' =>
      cases Option.some.inj hv
      cases Option.some.inj he
      exact hnode
    | query q' =>
      cases Option.some.inj hv
      cases he
    | factor f =>
      cases f with
      | table n as call args =>
        cases Option.some.inj hv
        cases he
      | derived _ _ _ | function _ _ _ | nestedJoin _ _ => cases hv
    | setExpr _ | select _ => cases hv
  · exact fun h => ⟨.expr e, ⟨.expr e, h, rfl⟩, rfl⟩

end PgPaw.Sql
