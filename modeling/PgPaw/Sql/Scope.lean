/-
# What the names in a statement denote

PostgreSQL's side of a relation reference, as opposed to the server's.  An identifier is
compared after folding: lower-cased when written bare, taken as it stands when quoted.  An
unqualified name denotes a common table expression if one of that name is in scope, else a
stored table; a qualified name always denotes a stored table.  The members of a `WITH` come
into scope one after the other, each for the members after it and for the body;
`WITH RECURSIVE` brings all of them into scope for all of its members.

`reads` lists the references of a query that denote stored tables, each with where it
stands: a table factor, which the visitor reports (`visit_of_reads`), or a `TABLE name` body,
which it does not.
-/
import PgPaw.Sql.Visit
import PgPaw.Text

namespace PgPaw.Sql

/-- The name an identifier stands for. -/
def Ident.folded (i : Ident) : String :=
  match i.quoteStyle with
  | none => toAsciiLowercase i.value
  | some _ => i.value

/-- Folding does not show once everything is lower-cased. -/
@[simp] theorem toAsciiLowercase_folded (i : Ident) :
    toAsciiLowercase i.folded = toAsciiLowercase i.value := by
  unfold Ident.folded
  split <;> simp

/-- A table of the database, as a name denotes it: with the schema written, or left to the
search path. -/
structure StoredTable where
  schema : Option String
  name : String
  deriving DecidableEq, Repr

/-- The stored table a name denotes when it does not denote a CTE. -/
def storedTable : ObjectName → Option StoredTable
  | [] => none
  | [i] => some ⟨none, i.folded⟩
  | [s, i] => some ⟨some s.folded, i.folded⟩
  | _ :: rest => storedTable rest

/-- The CTE names visible at a place, innermost first. -/
abbrev Scope := List String

/-- Whether a name denotes a CTE there. -/
def denotesCte (scope : Scope) : ObjectName → Bool
  | [i] => scope.contains i.folded
  | _ => false

/-- Where a reference to a stored table stands. -/
inductive Reference
  | factor (name : ObjectName)
  | tableBody (name : ObjectName)
  deriving DecidableEq, Repr

/-- The name as written. -/
def Reference.name : Reference → ObjectName
  | factor n | tableBody n => n

/-- The reference a name makes, if it denotes a stored table. -/
def referTo (scope : Scope) (make : ObjectName → Reference) (name : ObjectName) : List Reference :=
  if denotesCte scope name then [] else [make name]

/-- The names the members of a `WITH` are known by. -/
def cteNames (cs : List Cte) : Scope := cs.map fun c => c.tableAlias.name.folded

/-- What the members of a `WITH` see before its first member. -/
def cteScope (recursive : Bool) (cs : List Cte) (scope : Scope) : Scope :=
  if recursive then cteNames cs ++ scope else scope

mutual

/-- The references to stored tables below an expression. -/
def Expr.reads (scope : Scope) : Expr → List Reference
  | .identifier _ => []
  | .compoundIdentifier _ => []
  | .value _ => []
  | .binaryOp l _ r => l.reads scope ++ r.reads scope
  | .nested e => e.reads scope
  | .function _ args => readsExprs scope args
  | .subquery q => q.reads scope
  | .exists q _ => q.reads scope
  | .inSubquery e q _ => e.reads scope ++ q.reads scope
  | .form _ es => readsExprs scope es

def readsExprs (scope : Scope) : List Expr → List Reference
  | [] => []
  | e :: es => e.reads scope ++ readsExprs scope es

def readsSelection (scope : Scope) : Option Expr → List Reference
  | none => []
  | some e => e.reads scope

/-- The references of a query to stored tables. -/
def Query.reads (scope : Scope) : Query → List Reference
  | .mk r cs b obs ls _ =>
    readsCtes (cteScope r cs scope) cs ++ b.reads (cteNames cs ++ scope) ++
      readsExprs (cteNames cs ++ scope) obs ++ readsExprs (cteNames cs ++ scope) ls

def readsSource (scope : Scope) : Option Query → List Reference
  | none => []
  | some q => q.reads scope

/-- The members of a `WITH`: each sees those before it. -/
def readsCtes (scope : Scope) : List Cte → List Reference
  | [] => []
  | .mk a q :: cs => q.reads scope ++ readsCtes (a.name.folded :: scope) cs

def SetExpr.reads (scope : Scope) : SetExpr → List Reference
  | .select s => s.reads scope
  | .query q => q.reads scope
  | .setOperation _ l r => l.reads scope ++ r.reads scope
  | .values rows => readsExprs scope rows
  | .insert _ q on ret => readsSource scope q ++ readsExprs scope on ++ readsItems scope ret
  | .update t f es ret =>
    t.reads scope ++ readsTables scope f ++ readsExprs scope es ++ readsItems scope ret
  | .table none i => referTo scope .tableBody [i]
  | .table (some s) i => referTo scope .tableBody [s, i]

def Select.reads (scope : Scope) : Select → List Reference
  | .mk _ d ps _ f w g h =>
    readsExprs scope d ++ readsItems scope ps ++ readsTables scope f ++ readsSelection scope w ++
      readsExprs scope g ++ readsExprs scope h

def readsItems (scope : Scope) : List SelectItem → List Reference
  | [] => []
  | .unnamedExpr e :: is => e.reads scope ++ readsItems scope is
  | .exprWithAlias e _ :: is => e.reads scope ++ readsItems scope is
  | .qualifiedWildcard _ :: is => readsItems scope is
  | .wildcard :: is => readsItems scope is

def TableWithJoins.reads (scope : Scope) : TableWithJoins → List Reference
  | .mk t js => t.reads scope ++ readsJoins scope js

def readsTables (scope : Scope) : List TableWithJoins → List Reference
  | [] => []
  | t :: ts => t.reads scope ++ readsTables scope ts

def readsJoins (scope : Scope) : List Join → List Reference
  | [] => []
  | .mk t _ _ on _ :: js => t.reads scope ++ readsExprs scope on ++ readsJoins scope js

/-- A name called as a function denotes no table. -/
def TableFactor.reads (scope : Scope) : TableFactor → List Reference
  | .table n _ call args =>
    (if call then [] else referTo scope .factor n) ++ readsExprs scope args
  | .derived _ q _ => q.reads scope
  | .function _ args _ => readsExprs scope args
  | .nestedJoin t _ => t.reads scope

end

/-! ## Every table factor that denotes a stored table is reported by the visitor -/

theorem mem_referTo {scope : Scope} {make : ObjectName → Reference} {name : ObjectName}
    {r : Reference} :
    r ∈ referTo scope make name ↔ denotesCte scope name = false ∧ r = make name := by
  unfold referTo
  split <;> simp_all

/-- No body `TABLE name` makes a factor reference. -/
theorem factor_notMem_referTo_tableBody {scope : Scope} {m n : ObjectName} :
    Reference.factor n ∉ referTo scope .tableBody m := by
  simp [mem_referTo]

mutual

theorem Expr.visit_of_reads {n : ObjectName} {scope : Scope} : ∀ (e : Expr),
    Reference.factor n ∈ e.reads scope → Visited.relation n ∈ e.visit
  | .identifier _, h | .compoundIdentifier _, h | .value _, h => by simp [Expr.reads] at h
  | .binaryOp l op r, h => by
    simp only [Expr.reads, List.mem_append] at h
    simp only [Expr.visit, List.mem_cons, List.mem_append, reduceCtorEq, false_or]
    exact h.imp (Expr.visit_of_reads l) (Expr.visit_of_reads r)
  | .nested e, h => by
    simp only [Expr.visit, List.mem_cons, reduceCtorEq, false_or]
    exact Expr.visit_of_reads e h
  | .function _ args, h => by
    simp only [Expr.visit, List.mem_cons, reduceCtorEq, false_or]
    exact visitExprs_of_reads args h
  | .subquery q, h => by
    simp only [Expr.visit, List.mem_cons, reduceCtorEq, false_or]
    exact Query.visit_of_reads q h
  | .exists q _, h => by
    simp only [Expr.visit, List.mem_cons, reduceCtorEq, false_or]
    exact Query.visit_of_reads q h
  | .inSubquery e q _, h => by
    simp only [Expr.reads, List.mem_append] at h
    simp only [Expr.visit, List.mem_cons, List.mem_append, reduceCtorEq, false_or]
    exact h.imp (Expr.visit_of_reads e) (Query.visit_of_reads q)
  | .form _ es, h => by
    simp only [Expr.visit, List.mem_cons, reduceCtorEq, false_or]
    exact visitExprs_of_reads es h

theorem visitExprs_of_reads {n : ObjectName} {scope : Scope} : ∀ (es : List Expr),
    Reference.factor n ∈ readsExprs scope es → Visited.relation n ∈ visitExprs es
  | [], h => by simp [readsExprs] at h
  | e :: es, h => by
    simp only [readsExprs, visitExprs, List.mem_append] at h ⊢
    exact h.imp (Expr.visit_of_reads e) (visitExprs_of_reads es)

theorem visitSelection_of_reads {n : ObjectName} {scope : Scope} : ∀ (w : Option Expr),
    Reference.factor n ∈ readsSelection scope w → Visited.relation n ∈ visitSelection w
  | none, h => by simp [readsSelection] at h
  | some e, h => Expr.visit_of_reads e h

/-- **The visitor reports every table factor that denotes a stored table**, whatever is in
scope around it. -/
theorem Query.visit_of_reads {n : ObjectName} {scope : Scope} : ∀ (q : Query),
    Reference.factor n ∈ q.reads scope → Visited.relation n ∈ q.visit
  | .mk r cs b obs ls lk, h => by
    simp only [Query.reads, List.mem_append] at h
    simp only [Query.visit, List.mem_cons, List.mem_append, reduceCtorEq, false_or]
    exact h.imp (Or.imp (Or.imp (visitCtes_of_reads cs) (SetExpr.visit_of_reads b))
      (visitExprs_of_reads obs)) (visitExprs_of_reads ls)

theorem visitSource_of_reads {n : ObjectName} {scope : Scope} : ∀ (q : Option Query),
    Reference.factor n ∈ readsSource scope q → Visited.relation n ∈ visitSource q
  | none, h => by simp [readsSource] at h
  | some q, h => Query.visit_of_reads q h

theorem visitCtes_of_reads {n : ObjectName} {scope : Scope} : ∀ (cs : List Cte),
    Reference.factor n ∈ readsCtes scope cs → Visited.relation n ∈ visitCtes cs
  | [], h => by simp [readsCtes] at h
  | .mk a q :: cs, h => by
    simp only [readsCtes, visitCtes, List.mem_append] at h ⊢
    exact h.imp (Query.visit_of_reads q) (visitCtes_of_reads cs)

theorem SetExpr.visit_of_reads {n : ObjectName} {scope : Scope} : ∀ (b : SetExpr),
    Reference.factor n ∈ b.reads scope → Visited.relation n ∈ b.visit
  | .select s, h => Select.visit_of_reads s h
  | .query q, h => Query.visit_of_reads q h
  | .setOperation _ l r, h => by
    simp only [SetExpr.reads, SetExpr.visit, List.mem_append] at h ⊢
    exact h.imp (SetExpr.visit_of_reads l) (SetExpr.visit_of_reads r)
  | .values rows, h => visitExprs_of_reads rows h
  | .insert _ q on ret, h => by
    simp only [SetExpr.reads, SetExpr.visit, List.mem_append] at h ⊢
    exact h.imp (Or.imp (visitSource_of_reads q) (visitExprs_of_reads on)) (visitItems_of_reads ret)
  | .update t f es ret, h => by
    simp only [SetExpr.reads, SetExpr.visit, List.mem_append] at h ⊢
    exact h.imp (Or.imp (Or.imp (TableWithJoins.visit_of_reads t) (visitTables_of_reads f))
      (visitExprs_of_reads es)) (visitItems_of_reads ret)
  | .table none _, h => absurd h factor_notMem_referTo_tableBody
  | .table (some _) _, h => absurd h factor_notMem_referTo_tableBody

theorem Select.visit_of_reads {n : ObjectName} {scope : Scope} : ∀ (s : Select),
    Reference.factor n ∈ s.reads scope → Visited.relation n ∈ s.visit
  | .mk _ d ps _ f w g h', h => by
    simp only [Select.reads, Select.visit, List.mem_append] at h ⊢
    exact h.imp (Or.imp (Or.imp (Or.imp (Or.imp (visitExprs_of_reads d) (visitItems_of_reads ps))
      (visitTables_of_reads f)) (visitSelection_of_reads w)) (visitExprs_of_reads g))
      (visitExprs_of_reads h')

theorem visitItems_of_reads {n : ObjectName} {scope : Scope} : ∀ (is : List SelectItem),
    Reference.factor n ∈ readsItems scope is → Visited.relation n ∈ visitItems is
  | [], h => by simp [readsItems] at h
  | .unnamedExpr e :: is, h => by
    simp only [readsItems, visitItems, List.mem_append] at h ⊢
    exact h.imp (Expr.visit_of_reads e) (visitItems_of_reads is)
  | .exprWithAlias e _ :: is, h => by
    simp only [readsItems, visitItems, List.mem_append] at h ⊢
    exact h.imp (Expr.visit_of_reads e) (visitItems_of_reads is)
  | .qualifiedWildcard _ :: is, h => visitItems_of_reads is h
  | .wildcard :: is, h => visitItems_of_reads is h

theorem TableWithJoins.visit_of_reads {n : ObjectName} {scope : Scope} : ∀ (t : TableWithJoins),
    Reference.factor n ∈ t.reads scope → Visited.relation n ∈ t.visit
  | .mk t js, h => by
    simp only [TableWithJoins.reads, TableWithJoins.visit, List.mem_append] at h ⊢
    exact h.imp (TableFactor.visit_of_reads t) (visitJoins_of_reads js)

theorem visitTables_of_reads {n : ObjectName} {scope : Scope} : ∀ (ts : List TableWithJoins),
    Reference.factor n ∈ readsTables scope ts → Visited.relation n ∈ visitTables ts
  | [], h => by simp [readsTables] at h
  | t :: ts, h => by
    simp only [readsTables, visitTables, List.mem_append] at h ⊢
    exact h.imp (TableWithJoins.visit_of_reads t) (visitTables_of_reads ts)

theorem visitJoins_of_reads {n : ObjectName} {scope : Scope} : ∀ (js : List Join),
    Reference.factor n ∈ readsJoins scope js → Visited.relation n ∈ visitJoins js
  | [], h => by simp [readsJoins] at h
  | .mk t _ _ on _ :: js, h => by
    simp only [readsJoins, visitJoins, List.mem_append] at h ⊢
    exact h.imp (Or.imp (TableFactor.visit_of_reads t) (visitExprs_of_reads on))
      (visitJoins_of_reads js)

theorem TableFactor.visit_of_reads {n : ObjectName} {scope : Scope} : ∀ (t : TableFactor),
    Reference.factor n ∈ t.reads scope → Visited.relation n ∈ t.visit
  | .table m _ call args, h => by
    simp only [TableFactor.reads, List.mem_append] at h
    simp only [TableFactor.visit, List.mem_cons, Visited.relation.injEq]
    refine h.imp ?_ (visitExprs_of_reads args)
    intro hm
    split at hm
    · simp at hm
    · simpa using (mem_referTo.mp hm).2
  | .derived _ q _, h => Query.visit_of_reads q h
  | .function _ args _, h => visitExprs_of_reads args h
  | .nestedJoin t _, h => TableWithJoins.visit_of_reads t h

end

end PgPaw.Sql
