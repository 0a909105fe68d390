/-
# What `classify` keeps out

`classify` turns a statement away when its outermost query has a locking clause, when the
`SELECT` that is the body of that query has an `INTO`, and when the name of a function the
visitor meets, as it prints, is on one of two lists.

PostgreSQL lets the same things stand elsewhere.  A locking clause may follow any subquery, an
`INSERT` or `UPDATE` any `WITH` (`admitted_structure_iff`); a function may be named in quotes,
which the printed name keeps, or called in a `FROM`, which is no expression
(`admitted_calls_iff`).
-/
import PgPaw.Capability.TableExtraction
import PgPaw.Sql.Nodes

namespace PgPaw

open Sql

/-! ## 1. Nodes that write or lock -/

/-- A locking clause, an `INTO`, an `INSERT` or an `UPDATE`; the crate has no `DELETE` inside a
query. -/
def Sql.Node.sideEffect : Node → Bool
  | .query q => !q.locks.isEmpty
  | .select s => s.into.isSome
  | .setExpr (.insert _ _ _ _) | .setExpr (.update _ _ _ _) => true
  | .setExpr (.select _) | .setExpr (.query _) | .setExpr (.setOperation _ _ _)
  | .setExpr (.values _) | .setExpr (.table _ _) | .expr _ | .factor _ => false

/-- The nodes of a body other than the `SELECT` it is. -/
def Sql.SetExpr.innerNodes : SetExpr → List Node
  | .select (.mk _ d ps _ f w g h) =>
    nodesExprs d ++ nodesItems ps ++ nodesTables f ++ nodesSelection w ++ nodesExprs g ++
      nodesExprs h
  | .query q => (SetExpr.query q).nodes
  | .setOperation op l r => (SetExpr.setOperation op l r).nodes
  | .values rows => (SetExpr.values rows).nodes
  | .insert t q on ret => (SetExpr.insert t q on ret).nodes
  | .update t f es ret => (SetExpr.update t f es ret).nodes
  | .table s n => (SetExpr.table s n).nodes

/-- The nodes of a query that `classify` does not look at: all but the query itself and the
`SELECT` that is its body. -/
def Sql.Query.innerNodes : Query → List Node
  | .mk _ cs b obs ls _ => nodesCtes cs ++ b.innerNodes ++ nodesExprs obs ++ nodesExprs ls

/-- No node of a list has a side effect. -/
def NoSideEffect (nodes : List Node) : Prop := ∀ node ∈ nodes, node.sideEffect = false

instance (nodes : List Node) : Decidable (NoSideEffect nodes) :=
  inferInstanceAs (Decidable (∀ node ∈ nodes, _))

theorem noSideEffect_append {nodes more : List Node} :
    NoSideEffect (nodes ++ more) ↔ NoSideEffect nodes ∧ NoSideEffect more :=
  List.forall_mem_append

theorem noSideEffect_cons {node : Node} {nodes : List Node} :
    NoSideEffect (node :: nodes) ↔ node.sideEffect = false ∧ NoSideEffect nodes :=
  List.forall_mem_cons

/-- A body without an `INTO` of its own. -/
theorem noSideEffect_body {q : Query} (hinto : selectsInto q = false) :
    NoSideEffect q.body.nodes ↔ NoSideEffect q.body.innerNodes := by
  cases q with
  | mk r cs b obs ls lk =>
    cases b with
    | select s =>
      cases s with
      | mk x d ps i f w g h =>
        have hi : i.isSome = false := hinto
        simp only [Query.body, SetExpr.nodes, Select.nodes, SetExpr.innerNodes, noSideEffect_cons]
        simp [Node.sideEffect, Select.into, hi]
    | query _ | setOperation _ _ _ | values _ | insert _ _ _ _ | update _ _ _ _ | table _ _ =>
      exact Iff.rfl

/-- **An accepted statement is free of side effects exactly when nothing below its outermost
query and `SELECT` has one.** -/
theorem admitted_structure_iff {crates : Crates} {self : ReadClassifier} {sql : String}
    {params : List Json} {q : CacheableQuery} {query : Query}
    (hq : self.classify crates sql params = .ok q)
    (hparse : crates.parseSql sql = some [.query query]) :
    NoSideEffect query.nodes ↔ NoSideEffect query.innerNodes := by
  obtain ⟨query', hparse', hlocks, hinto, -⟩ := ReadClassifier.classify_ok hq
  obtain rfl : query = query' := by simpa [hparse'] using hparse.symm
  have hbody := noSideEffect_body hinto
  cases query with
  | mk r cs b obs ls lk =>
    have hlk : lk = [] := hlocks
    simp only [Query.nodes, Query.innerNodes, noSideEffect_cons, noSideEffect_append]
    simp only [Query.body] at hbody
    simp [Node.sideEffect, Query.locks, hlk, hbody]

/-- A member of a `WITH`, a subquery, a derived table and the operands of a `UNION`. -/
theorem admitted_structure_iff_nested : NoSideEffect nestedQuery.nodes := by
  have hq : (ReadClassifier.new ["users", "orders"]).classify (oneText nestedSql nestedQuery 0)
      nestedSql [] = .ok ⟨0, ["orders", "users"], [], nestedSql, []⟩ := by rfl
  exact (admitted_structure_iff hq (by rfl)).mpr (by decide)

def lockedSql : String := "SELECT * FROM (SELECT * FROM users FOR UPDATE) u"

def lockedQuery : Query :=
  .mk false [] (.select (.mk false [] [.wildcard] none
    [.mk (.derived false (.mk false [] (.select (.mk false [] [.wildcard] none
      [.mk (.table [bareIdent "users"] none false []) []] none [] [])) [] [] [⟨"UPDATE", none⟩])
      (some ⟨bareIdent "u", []⟩)) []] none [] [])) [] [] []

/-- **A locking read is admitted**, one level down. -/
theorem nested_lock_admitted :
    (ReadClassifier.new ["users"]).classify (oneText lockedSql lockedQuery 0) lockedSql [] =
        .ok ⟨0, ["users"], [], lockedSql, []⟩ ∧
      ¬ NoSideEffect lockedQuery.nodes := ⟨by rfl, by decide⟩

/-! ## 2. Calls -/

/-- A function call: in an expression, or as a factor of a `FROM`. -/
inductive Call
  | expr (name : ObjectName)
  | factor (name : ObjectName)
  deriving DecidableEq, Repr

def Call.name : Call → ObjectName
  | expr name | factor name => name

/-- The call a node is. -/
def Sql.Node.call : Node → Option Call
  | .expr (.function name _) => some (.expr name)
  | .factor (.table name _ true _) | .factor (.function name _ _) => some (.factor name)
  | _ => none

/-- The calls of a query, at every depth. -/
def Sql.Query.calls (query : Query) : List Call := query.nodes.filterMap Node.call

/-- The function a name resolves to, whatever schema it is qualified with. -/
def resolvedFunction (name : ObjectName) : Option String := name.getLast?.map Ident.folded

/-- On one of the two lists. -/
def denied (function : String) : Bool :=
  SIDE_EFFECTING.contains function || VOLATILE_READ.contains function

/-- A call resolves to a function on a list. -/
def Call.isDenied (call : Call) : Bool := (resolvedFunction call.name).any denied

/-- A call the comparison of printed names does not see: its name is quoted, or it stands in a
`FROM`. -/
def Call.unseen : Call → Bool
  | expr name => name.getLast?.any fun ident => ident.quoteStyle.isSome
  | factor _ => true

/-- No name on the lists has a dot. -/
theorem dot_notMem_of_denied {function : String} (h : denied function = true) :
    '.' ∉ function.toList := by
  have hlists : ∀ f ∈ SIDE_EFFECTING ++ VOLATILE_READ, '.' ∉ f.toList := by decide
  simp only [denied, Bool.or_eq_true, List.contains_eq_mem, decide_eq_true_eq] at h
  exact hlists function (List.mem_append.mpr h)

/-- A qualified name prints as its qualification, a dot and its last part. -/
theorem display_concat {front : ObjectName} (ident : Ident) (hfront : front ≠ []) :
    ObjectName.display (front ++ [ident]) = front.display ++ "." ++ ident.display := by
  rw [ObjectName.display, List.map_append, List.map_singleton,
    String.intercalate_append_of_ne_nil (by simpa using hfront) (List.cons_ne_nil _ _),
    String.intercalate_singleton]
  rfl

/-- What follows the last dot. -/
theorem bareLower_append_dot (front : String) {last : String} (hdot : '.' ∉ last.toList) :
    bareLower (front ++ "." ++ last) = toAsciiLowercase last := by
  have hall : ∀ c ∈ last.toList.reverse, (c != '.') = true := by
    intro c hc
    simp only [bne_iff_ne, ne_eq]
    rintro rfl
    exact hdot (List.mem_reverse.mp hc)
  have hdotList : (".": String).toList = ['.'] := by decide
  rw [bareLower, String.toList_append, String.toList_append, hdotList, List.reverse_append,
    List.reverse_append, List.reverse_singleton, List.singleton_append,
    List.takeWhile_append_of_pos hall]
  simp

theorem bareLower_of_noDot {last : String} (hdot : '.' ∉ last.toList) :
    bareLower last = toAsciiLowercase last := by
  have hall : last.toList.reverse.takeWhile (· != '.') = last.toList.reverse := by
    refine List.takeWhile_eq_self_iff.mpr ?_
    intro c hc
    simp only [bne_iff_ne, ne_eq]
    rintro rfl
    exact hdot (List.mem_reverse.mp hc)
  rw [bareLower, hall, List.reverse_reverse, String.ofList_toList]

/-- **What `bare_lower` makes of a printed name is the identifier it resolves to**, when its
last part is unquoted and has no dot. -/
theorem bareLower_display {name : ObjectName} {ident : Ident} (h : name.getLast? = some ident)
    (hbare : ident.quoteStyle = none) (hdot : '.' ∉ ident.value.toList) :
    bareLower name.display = ident.folded := by
  have hident : ident.display = ident.value := by rw [Ident.display, hbare]
  have hfolded : ident.folded = toAsciiLowercase ident.value := by rw [Ident.folded, hbare]
  obtain ⟨front, rfl⟩ := List.getLast?_eq_some_iff.mp h
  by_cases hfront : front = []
  · subst hfront
    rw [List.nil_append, ObjectName.display, List.map_singleton, String.intercalate_singleton,
      hident, hfolded, bareLower_of_noDot hdot]
  · rw [display_concat ident hfront, hident, hfolded, bareLower_append_dot _ hdot]

/-- Lower-casing keeps a dot. -/
theorem dot_mem_toAsciiLowercase {s : String} (h : '.' ∈ s.toList) :
    '.' ∈ (toAsciiLowercase s).toList := by
  rw [toAsciiLowercase, String.toList_ofList]
  exact List.mem_map.mpr ⟨'.', h, by decide⟩

/-- **A denied call that is seen is refused.** -/
theorem unseen_of_denied {crates : Crates} {self : ReadClassifier} {sql : String}
    {params : List Json} {q : CacheableQuery} {query : Query}
    (hq : self.classify crates sql params = .ok q)
    (hparse : crates.parseSql sql = some [.query query]) {call : Call}
    (hcall : call ∈ query.calls) (hdenied : call.isDenied = true) : call.unseen = true := by
  obtain ⟨query', hparse', -, -, hnames, -⟩ := ReadClassifier.classify_ok hq
  obtain rfl : query = query' := by simpa [hparse'] using hparse.symm
  cases call with
  | factor name => rfl
  | expr name =>
    by_contra hseen
    -- the call is an expression, so the visitor has met it
    obtain ⟨args, hnode⟩ : ∃ args, Node.expr (.function name args) ∈ query.nodes := by
      obtain ⟨node, hnode, hcall⟩ := List.mem_filterMap.mp hcall
      unfold Node.call at hcall
      split at hcall
      · cases hcall
        exact ⟨_, hnode⟩
      · cases hcall
      · cases hcall
      · cases hcall
    have hname : bareLower name.display ∈ functionNames query :=
      List.mem_filterMap.mpr ⟨_, mem_visitExpressions.mpr hnode, rfl⟩
    -- and the name it has compared is the one it resolves to
    obtain ⟨function, hresolved, hlisted⟩ := (Option.any_eq_true _ _).mp hdenied
    obtain ⟨ident, hlast, rfl⟩ := Option.map_eq_some_iff.mp hresolved
    have hlast : name.getLast? = some ident := hlast
    have hbare : ident.quoteStyle = none := by
      simpa [Call.unseen, hlast] using hseen
    have hfolded : ident.folded = toAsciiLowercase ident.value := by rw [Ident.folded, hbare]
    have hdot : '.' ∉ ident.value.toList := by
      intro hdot
      have hmem := dot_mem_toAsciiLowercase hdot
      rw [← hfolded] at hmem
      exact dot_notMem_of_denied hlisted hmem
    rw [bareLower_display hlast hbare hdot] at hname
    obtain ⟨hside, hvolatile⟩ := hnames _ hname
    simp [denied, hside, hvolatile] at hlisted

/-- **The lists are kept exactly when no denied function is named in quotes or called in a
`FROM`.** -/
theorem admitted_calls_iff {crates : Crates} {self : ReadClassifier} {sql : String}
    {params : List Json} {q : CacheableQuery} {query : Query}
    (hq : self.classify crates sql params = .ok q)
    (hparse : crates.parseSql sql = some [.query query]) :
    (∀ call ∈ query.calls, call.isDenied = false) ↔
      ∀ call ∈ query.calls, call.unseen = true → call.isDenied = false := by
  constructor
  · intro h call hcall _
    exact h call hcall
  · intro h call hcall
    by_contra hdenied
    rw [Bool.not_eq_false] at hdenied
    have hunseen := unseen_of_denied hq hparse hcall hdenied
    rw [h call hcall hunseen] at hdenied
    cases hdenied

/-- Calls within calls, one that is qualified, one in quotes, one in a `FROM` and one in a
subquery. -/
def callsSql : String :=
  "WITH named AS (SELECT pg_catalog.lower(btrim(name)) AS n FROM users) " ++
    "SELECT \"length\"(concat(n, 'x')) FROM named, LATERAL generate_series(1, 2) " ++
    "WHERE n IN (SELECT upper(name) FROM users)"

def callsQuery : Query :=
  let users : TableWithJoins := .mk (.table [bareIdent "users"] none false []) []
  let name : Expr := .identifier (bareIdent "name")
  let n : Expr := .identifier (bareIdent "n")
  .mk false
    [.mk ⟨bareIdent "named", []⟩ (.mk false [] (.select (.mk false []
      [.exprWithAlias (.function [bareIdent "pg_catalog", bareIdent "lower"]
        [.function [bareIdent "btrim"] [name]]) (bareIdent "n")]
      none [users] none [] [])) [] [] [])]
    (.select (.mk false []
      [.unnamedExpr (.function [⟨"length", some '"'⟩]
        [.function [bareIdent "concat"] [n, .value (.singleQuotedString "x")]])]
      none
      [.mk (.table [bareIdent "named"] none false []) [],
        .mk (.function [bareIdent "generate_series"]
          [.value (.number "1"), .value (.number "2")] none) []]
      (some (.inSubquery n (.mk false [] (.select (.mk false []
        [.unnamedExpr (.function [bareIdent "upper"] [name])] none [users] none [] [])) [] [] [])
        false)) [] [])) [] [] []

theorem admitted_calls_iff_nested :
    callsQuery.calls.map (fun call => resolvedFunction call.name) =
        [some "lower", some "btrim", some "length", some "concat", some "generate_series",
          some "upper"] ∧
      ∀ call ∈ callsQuery.calls, call.isDenied = false := by
  have hq : (ReadClassifier.new ["users"]).classify (oneText callsSql callsQuery 0) callsSql [] =
      .ok ⟨0, ["users"], [], callsSql, []⟩ := by decide +kernel
  have hparse : (oneText callsSql callsQuery 0).parseSql callsSql = some [.query callsQuery] := by
    simp only [oneText, if_true]
  exact ⟨by decide, (admitted_calls_iff hq hparse).mpr (by decide +kernel)⟩

/-- `SELECT f('ids')`, with the name of the function in quotes. -/
def quotedCallSql : String := "SELECT \"nextval\"('ids')"

def quotedCallQuery : Query :=
  .mk false [] (.select (.mk false []
    [.unnamedExpr (.function [⟨"nextval", some '"'⟩] [.value (.singleQuotedString "ids")])]
    none [] none [] [])) [] [] []

/-- The same call in a `FROM`. -/
def factorCallSql : String := "SELECT * FROM LATERAL nextval('ids')"

def factorCallQuery : Query :=
  .mk false [] (.select (.mk false [] [.wildcard] none
    [.mk (.function [bareIdent "nextval"] [.value (.singleQuotedString "ids")] none) []]
    none [] [])) [] [] []

/-- **A sequence advances in a cached read**, called by its quoted name or in the `FROM`. -/
theorem denied_call_admitted :
    (ReadClassifier.new []).classify (oneText quotedCallSql quotedCallQuery 0) quotedCallSql [] =
        .ok ⟨0, [], [], quotedCallSql, []⟩ ∧
      (ReadClassifier.new []).classify (oneText factorCallSql factorCallQuery 0) factorCallSql [] =
        .ok ⟨0, [], [], factorCallSql, []⟩ ∧
      "nextval" ∈ SIDE_EFFECTING ∧
      quotedCallQuery.calls.map (fun call => resolvedFunction call.name) = [some "nextval"] ∧
      factorCallQuery.calls.map (fun call => resolvedFunction call.name) = [some "nextval"] ∧
      ¬ ∀ call ∈ quotedCallQuery.calls, call.isDenied = false := by
  refine ⟨by decide +kernel, by decide +kernel, by decide, by decide, by decide, by decide⟩

end PgPaw
