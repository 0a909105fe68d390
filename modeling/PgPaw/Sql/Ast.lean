/-
# The statements `sqlparser` produces

The part of `sqlparser` 0.52's syntax tree a read can contain.  Names follow the crate.  Three
liberties are taken, none of which the server's code can see:

* an expression form whose only parts are expressions (`CASE`, `CAST`, `BETWEEN`, `IN (..)`,
  arrays, tuples, ..) is one constructor, `Expr.form`, with the form's name;
* a clause that is an optional list is a list, empty when absent (`WITH`, `GROUP BY`,
  `HAVING`, `LIMIT` with `OFFSET` and `FETCH`, the `ON` of a join);
* `SetExpr::Table` keeps its two words as identifiers.  The crate keeps their text only and
  drops whether they were quoted; no code of the server reads the node.
-/
import Mathlib.Data.List.Basic

namespace PgPaw.Sql

/-- `Ident`: a name as written, and the quote it was written in. -/
structure Ident where
  value : String
  quoteStyle : Option Char
  deriving DecidableEq, Repr

/-- `ObjectName`: the parts of a possibly qualified name. -/
abbrev ObjectName := List Ident

/-- `TableAlias`. -/
structure TableAlias where
  name : Ident
  columns : List Ident
  deriving DecidableEq, Repr

/-- `BinaryOperator`: the two operators the server looks for, and all others by symbol. -/
inductive BinaryOperator
  | and
  | eq
  | other (symbol : String)
  deriving DecidableEq, Repr

/-- `Value`: the literals the server reads, and all others by their text. -/
inductive Value
  | number (text : String)
  | singleQuotedString (text : String)
  | boolean (flag : Bool)
  | null
  | placeholder (text : String)
  | other (text : String)
  deriving DecidableEq, Repr

/-- `LockClause`: `FOR UPDATE` and its kin. -/
structure LockClause where
  lockType : String
  of : Option ObjectName
  deriving DecidableEq, Repr

/-- `JoinOperator`, without the constraint. -/
inductive JoinOperator
  | inner
  | leftOuter
  | rightOuter
  | fullOuter
  deriving DecidableEq, Repr

mutual

/-- `Expr`. -/
inductive Expr
  | identifier (ident : Ident)
  | compoundIdentifier (parts : List Ident)
  | value (value : Value)
  | binaryOp (left : Expr) (op : BinaryOperator) (right : Expr)
  | nested (inner : Expr)
  /-- A call, with every expression written in it: arguments, `ORDER BY`, `FILTER`, `OVER`. -/
  | function (name : ObjectName) (args : List Expr)
  | subquery (query : Query)
  | exists (subquery : Query) (negated : Bool)
  | inSubquery (expr : Expr) (subquery : Query) (negated : Bool)
  | form (kind : String) (operands : List Expr)

/-- `Query`: the `WITH` clause, the body, and the clauses after it. -/
inductive Query
  | mk (recursive : Bool) (ctes : List Cte) (body : SetExpr) (orderBy : List Expr)
      (limits : List Expr) (locks : List LockClause)

/-- `Cte`. -/
inductive Cte
  | mk (as : TableAlias) (query : Query)

/-- `SetExpr`. -/
inductive SetExpr
  | select (select : Select)
  | query (query : Query)
  | setOperation (op : String) (left right : SetExpr)
  | values (rows : List Expr)
  /-- The source is absent with `DEFAULT VALUES`; `onConflict` has the expressions of
  `ON CONFLICT DO UPDATE`: the values it assigns and its `WHERE`. -/
  | insert (table : ObjectName) (source : Option Query) (onConflict : List Expr)
      (returning : List SelectItem)
  | update (table : TableWithJoins) (from' : List TableWithJoins) (exprs : List Expr)
      (returning : List SelectItem)
  | table (schema : Option Ident) (name : Ident)

/-- `Select`. -/
inductive Select
  | mk (distinct : Bool) (distinctOn : List Expr) (projection : List SelectItem)
      (into : Option ObjectName) (from' : List TableWithJoins) (selection : Option Expr)
      (groupBy : List Expr) (having : List Expr)

/-- `SelectItem`. -/
inductive SelectItem
  | unnamedExpr (expr : Expr)
  | exprWithAlias (expr : Expr) (as : Ident)
  | qualifiedWildcard (name : ObjectName)
  | wildcard

/-- `TableWithJoins`. -/
inductive TableWithJoins
  | mk (relation : TableFactor) (joins : List Join)

/-- `Join`. -/
inductive Join
  | mk (relation : TableFactor) (operator : JoinOperator) (natural : Bool) (on : List Expr)
      (using' : List Ident)

/-- `TableFactor`.  In `table`, `args` is present when the name is called as a function;
`function` stands for the factors made of expressions only: `LATERAL f(..)`, and `UNNEST` and
its kin under their keyword. -/
inductive TableFactor
  | table (name : ObjectName) (as : Option TableAlias) (call : Bool) (args : List Expr)
  | derived (lateral : Bool) (subquery : Query) (as : Option TableAlias)
  | function (name : ObjectName) (args : List Expr) (as : Option TableAlias)
  | nestedJoin (tables : TableWithJoins) (as : Option TableAlias)

end

/-- `Statement`: the one variant a read may be, and the rest. -/
inductive Statement
  | query (query : Query)
  | other (keyword : String)

namespace Query

/-- `with.cte_tables`, in order. -/
def ctes : Query → List Cte
  | mk _ cs _ _ _ _ => cs

def body : Query → SetExpr
  | mk _ _ b _ _ _ => b

def locks : Query → List LockClause
  | mk _ _ _ _ _ ls => ls

end Query

/-- `cte.alias`. -/
def Cte.tableAlias : Cte → TableAlias
  | mk a _ => a

namespace Select

def into : Select → Option ObjectName
  | mk _ _ _ i _ _ _ _ => i

def selection : Select → Option Expr
  | mk _ _ _ _ _ s _ _ => s

end Select

end PgPaw.Sql
