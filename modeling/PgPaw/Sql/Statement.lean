/-
# Statements, and those that modify data

The statements `pgpaw.sql` and the migrations get from `sqlparser` 0.52, with what the code reads
of each: the output list of an `INSERT`, `UPDATE` or `DELETE`, the object type of a `DROP`, the
operations of an `ALTER TABLE`.

`Query.modifies` says of a query whether there is an `INSERT` or an `UPDATE` in it at any depth;
the crate has no `DELETE` or `MERGE` inside a query.  They stand where the body of a query
stands, so they can be found by a visitor that looks at the body of each query it enters
(`Query.modifies_eq`).
-/
import PgPaw.Sql.Visit

namespace PgPaw.Sql

/-- `ObjectType`. -/
inductive ObjectType
  | table
  | view
  | index
  | schema
  | role
  | sequence
  | stage
  | type
  deriving DecidableEq, Repr

/-- `ObjectType: Display`. -/
def ObjectType.display : ObjectType → String
  | table => "TABLE"
  | view => "VIEW"
  | index => "INDEX"
  | schema => "SCHEMA"
  | role => "ROLE"
  | sequence => "SEQUENCE"
  | stage => "STAGE"
  | type => "TYPE"

/-- `AlterTableOperation`: the one the code looks for, and all others. -/
inductive AlterTableOperation
  | dropColumn
  | other (operation : String)
  deriving DecidableEq, Repr

/-- `Statement`, as `sql_validate.rs` and `schema/mod.rs` match on it. -/
inductive SqlStatement
  | query (query : Query)
  | insert (returning : Option (List SelectItem))
  | update (returning : Option (List SelectItem))
  | delete (returning : Option (List SelectItem))
  | createTable
  | alterTable (operations : List AlterTableOperation)
  | createIndex
  | createView
  | createSchema
  | createFunction
  | truncate
  | drop (objectType : ObjectType)
  | startTransaction
  | commit
  | rollback
  | savepoint
  | releaseSavepoint
  | setTransaction
  | setVariable
  | setTimeZone
  | setNames
  | setNamesDefault
  | setRole
  | listen
  | notify
  | discard
  | deallocate
  | prepare
  | execute
  | copy
  | merge
  | other (keyword : String)

/-! ## 1. Data-modifying nodes -/

mutual

/-- An `INSERT` or `UPDATE` node at any depth. -/
def Expr.modifies : Expr → Bool
  | .identifier _ | .compoundIdentifier _ | .value _ => false
  | .binaryOp l _ r => l.modifies || r.modifies
  | .nested e => e.modifies
  | .function _ args => exprsModify args
  | .subquery q => q.modifies
  | .exists q _ => q.modifies
  | .inSubquery e q _ => e.modifies || q.modifies
  | .form _ es => exprsModify es

def exprsModify : List Expr → Bool
  | [] => false
  | e :: es => e.modifies || exprsModify es

def selectionModifies : Option Expr → Bool
  | none => false
  | some e => e.modifies

def Query.modifies : Query → Bool
  | .mk _ cs b obs ls _ => ctesModify cs || b.modifies || exprsModify obs || exprsModify ls

def ctesModify : List Cte → Bool
  | [] => false
  | .mk _ q :: cs => q.modifies || ctesModify cs

def SetExpr.modifies : SetExpr → Bool
  | .select s => s.modifies
  | .query q => q.modifies
  | .setOperation _ l r => l.modifies || r.modifies
  | .values rows => exprsModify rows
  | .insert _ _ _ _ | .update _ _ _ _ => true
  | .table _ _ => false

def Select.modifies : Select → Bool
  | .mk _ d ps _ f w g h => exprsModify d || itemsModify ps || tablesModify f ||
      selectionModifies w || exprsModify g || exprsModify h

def itemsModify : List SelectItem → Bool
  | [] => false
  | .unnamedExpr e :: is => e.modifies || itemsModify is
  | .exprWithAlias e _ :: is => e.modifies || itemsModify is
  | .qualifiedWildcard _ :: is => itemsModify is
  | .wildcard :: is => itemsModify is

def TableWithJoins.modifies : TableWithJoins → Bool
  | .mk t js => t.modifies || joinsModify js

def tablesModify : List TableWithJoins → Bool
  | [] => false
  | t :: ts => t.modifies || tablesModify ts

def joinsModify : List Join → Bool
  | [] => false
  | .mk t _ _ on _ :: js => t.modifies || exprsModify on || joinsModify js

def TableFactor.modifies : TableFactor → Bool
  | .table _ _ _ args => exprsModify args
  | .derived _ q _ => q.modifies
  | .function _ args _ => exprsModify args
  | .nestedJoin t _ => t.modifies

end

/-- `INSERT`, `UPDATE`, `DELETE` or `MERGE`, or a query with such a node in it. -/
def SqlStatement.modifies : SqlStatement → Bool
  | query q => q.modifies
  | insert _ | update _ | delete _ | merge => true
  | _ => false

/-! ## 2. Found from the bodies of the queries -/

/-- The body of a query is an `INSERT` or an `UPDATE`, or puts one into a set operation. -/
def SetExpr.writes : SetExpr → Bool
  | .insert _ _ _ _ | .update _ _ _ _ => true
  | .setOperation _ l r => l.writes || r.writes
  | _ => false

/-- What a visitor would look for. -/
def Visited.writes : Visited → Bool
  | query q => q.body.writes
  | relation _ | expr _ => false

mutual

theorem Expr.modifies_eq : ∀ e : Expr, e.modifies = e.visit.any Visited.writes
  | .identifier _ | .compoundIdentifier _ | .value _ => by
    simp [Expr.modifies, Expr.visit, Visited.writes]
  | .binaryOp l op r => by
    simp [Expr.modifies, Expr.visit, Visited.writes, l.modifies_eq, r.modifies_eq]
  | .nested e => by simp [Expr.modifies, Expr.visit, Visited.writes, e.modifies_eq]
  | .function n args => by
    simp [Expr.modifies, Expr.visit, Visited.writes, exprsModify_eq args]
  | .subquery q => by simp [Expr.modifies, Expr.visit, Visited.writes, q.modifies_eq]
  | .exists q n => by simp [Expr.modifies, Expr.visit, Visited.writes, q.modifies_eq]
  | .inSubquery e q n => by
    simp [Expr.modifies, Expr.visit, Visited.writes, e.modifies_eq, q.modifies_eq]
  | .form k es => by simp [Expr.modifies, Expr.visit, Visited.writes, exprsModify_eq es]

theorem exprsModify_eq : ∀ es : List Expr, exprsModify es = (visitExprs es).any Visited.writes
  | [] => rfl
  | e :: es => by simp [exprsModify, visitExprs, e.modifies_eq, exprsModify_eq es]

theorem selectionModifies_eq :
    ∀ w : Option Expr, selectionModifies w = (visitSelection w).any Visited.writes
  | none => rfl
  | some e => by simp [selectionModifies, visitSelection, e.modifies_eq]

/-- **A query modifies data exactly when the visitor enters one whose body does.** -/
theorem Query.modifies_eq : ∀ q : Query, q.modifies = q.visit.any Visited.writes
  | .mk r cs b obs ls lk => by
    simp only [Query.modifies, Query.visit, List.any_cons, List.any_append, Visited.writes,
      Query.body, ctesModify_eq cs, b.modifies_eq, exprsModify_eq obs, exprsModify_eq ls]
    ac_rfl

theorem ctesModify_eq : ∀ cs : List Cte, ctesModify cs = (visitCtes cs).any Visited.writes
  | [] => rfl
  | .mk a q :: cs => by simp [ctesModify, visitCtes, q.modifies_eq, ctesModify_eq cs]

theorem SetExpr.modifies_eq :
    ∀ b : SetExpr, b.modifies = (b.writes || b.visit.any Visited.writes)
  | .select s => by simp [SetExpr.modifies, SetExpr.writes, SetExpr.visit, s.modifies_eq]
  | .query q => by simp [SetExpr.modifies, SetExpr.writes, SetExpr.visit, q.modifies_eq]
  | .setOperation op l r => by
    simp only [SetExpr.modifies, SetExpr.writes, SetExpr.visit, List.any_append, l.modifies_eq,
      r.modifies_eq]
    ac_rfl
  | .values rows => by
    simp [SetExpr.modifies, SetExpr.writes, SetExpr.visit, exprsModify_eq rows]
  | .insert t q on ret => by simp [SetExpr.modifies, SetExpr.writes]
  | .update t f es ret => by simp [SetExpr.modifies, SetExpr.writes]
  | .table s n => by simp [SetExpr.modifies, SetExpr.writes, SetExpr.visit]

theorem Select.modifies_eq : ∀ s : Select, s.modifies = s.visit.any Visited.writes
  | .mk x d ps i f w g h => by
    simp [Select.modifies, Select.visit, exprsModify_eq d, itemsModify_eq ps, tablesModify_eq f,
      selectionModifies_eq w, exprsModify_eq g, exprsModify_eq h, Bool.or_assoc]

theorem itemsModify_eq :
    ∀ is : List SelectItem, itemsModify is = (visitItems is).any Visited.writes
  | [] => rfl
  | .unnamedExpr e :: is => by simp [itemsModify, visitItems, e.modifies_eq, itemsModify_eq is]
  | .exprWithAlias e _ :: is => by
    simp [itemsModify, visitItems, e.modifies_eq, itemsModify_eq is]
  | .qualifiedWildcard _ :: is => by simp [itemsModify, visitItems, itemsModify_eq is]
  | .wildcard :: is => by simp [itemsModify, visitItems, itemsModify_eq is]

theorem TableWithJoins.modifies_eq :
    ∀ t : TableWithJoins, t.modifies = t.visit.any Visited.writes
  | .mk t js => by
    simp [TableWithJoins.modifies, TableWithJoins.visit, t.modifies_eq, joinsModify_eq js]

theorem tablesModify_eq :
    ∀ ts : List TableWithJoins, tablesModify ts = (visitTables ts).any Visited.writes
  | [] => rfl
  | t :: ts => by simp [tablesModify, visitTables, t.modifies_eq, tablesModify_eq ts]

theorem joinsModify_eq : ∀ js : List Join, joinsModify js = (visitJoins js).any Visited.writes
  | [] => rfl
  | .mk t op n on us :: js => by
    simp [joinsModify, visitJoins, t.modifies_eq, exprsModify_eq on, joinsModify_eq js,
      Bool.or_assoc]

theorem TableFactor.modifies_eq : ∀ t : TableFactor, t.modifies = t.visit.any Visited.writes
  | .table n a c args => by
    simp [TableFactor.modifies, TableFactor.visit, Visited.writes, exprsModify_eq args]
  | .derived l q a => by simp [TableFactor.modifies, TableFactor.visit, q.modifies_eq]
  | .function n args a => by simp [TableFactor.modifies, TableFactor.visit, exprsModify_eq args]
  | .nestedJoin t a => by simp [TableFactor.modifies, TableFactor.visit, t.modifies_eq]

end

end PgPaw.Sql
