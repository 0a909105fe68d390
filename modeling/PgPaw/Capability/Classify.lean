/-
# `capability/classify.rs`

`ReadClassifier::classify` decides whether a SQL text is a read the server serves, and
extracts what the caches need: the tables it reads, its equality filters and a fingerprint.

What the crates `sqlparser` and `serde_json` and the standard hasher contribute is a
parameter, `Crates`; everything else is the code of the file.
-/
import PgPaw.Error
import PgPaw.Json
import PgPaw.Text
import PgPaw.Sql.Visit

namespace PgPaw

open Sql

/-- What `classify` calls outside the repository. -/
structure Crates where
  /-- `Parser::parse_sql(&PostgreSqlDialect {}, sql)`. -/
  parseSql : String → Option (List Statement)
  /-- `Statement: Display`. -/
  displayStatement : Statement → String
  /-- `serde_json::Value: Display`. -/
  displayJson : Json → String
  /-- `DefaultHasher` after the given strings were hashed into it, in order. -/
  finish : List String → Nat

/-- `CacheableQuery`. -/
structure CacheableQuery where
  fingerprint : Nat
  tables : List String
  eqFilters : List (String × String)
  sql : String
  params : List Json
  deriving DecidableEq, Repr

/-- `SIDE_EFFECTING`. -/
def SIDE_EFFECTING : List String :=
  ["nextval", "setval", "pg_advisory_lock", "pg_advisory_xact_lock", "pg_try_advisory_lock",
    "pg_advisory_unlock"]

/-- `VOLATILE_READ`. -/
def VOLATILE_READ : List String :=
  ["now", "random", "random_normal", "clock_timestamp", "timeofday", "statement_timestamp",
    "gen_random_uuid", "uuid_generate_v4"]

/-- `ReadClassifier`. -/
structure ReadClassifier where
  replicated : List String
  deriving DecidableEq, Repr

/-- `ReadClassifier::new`. -/
def ReadClassifier.new (replicated : List String) : ReadClassifier :=
  ⟨replicated.map bareLower⟩

/-! ## 1. Equality filters -/

/-- `ident_name`. -/
def identName : Expr → Option String
  | .identifier ident => some (toAsciiLowercase ident.value)
  | .compoundIdentifier parts => parts.getLast?.map fun part => toAsciiLowercase part.value
  | _ => none

/-- `literal_value`. -/
def literalValue : Expr → Option String
  | .value (.number number) => some number
  | .value (.singleQuotedString text) => some text
  | .value (.boolean flag) => some (if flag then "true" else "false")
  | _ => none

/-- `str::parse::<usize>`: decimal digits, at least one, after an optional plus sign, and a
value below `2 ^ 64`. -/
def parseUsize (text : String) : Option Nat :=
  let digits := match text.toList with
    | '+' :: cs => cs
    | cs => cs
  if digits.isEmpty || !digits.all Char.isDigit then none
  else
    let n := Nat.ofDigitChars 10 digits 0
    if n < 2 ^ 64 then some n else none

/-- The parameter bound to a placeholder `$n`, counting from `1`. -/
def boundParam (expr : Expr) (params : List Json) : Option Json :=
  match expr with
  | .value (.placeholder text) => match text.toList with
    | '$' :: cs => (parseUsize (String.ofList cs)).bind fun index =>
      if index = 0 then none else params[index - 1]?
    | _ => none
  | _ => none

/-- `placeholder_value`: the bound parameter, when it is an integer or a string. -/
def placeholderValue (expr : Expr) (params : List Json) : Option String :=
  match boundParam expr params with
  | some (.number (.integer n)) => some (toString n)
  | some (.string text) => some text
  | _ => none

/-- `filter_value`. -/
def filterValue (expr : Expr) (params : List Json) : Option String :=
  (literalValue expr).orElse fun _ => placeholderValue expr params

/-- The filter an equality `left = right` contributes. -/
def eqFilter (params : List Json) (left right : Expr) : List (String × String) :=
  match identName left, filterValue right params with
  | some column, some value => [(column, value)]
  | _, _ => match identName right, filterValue left params with
    | some column, some value => [(column, value)]
    | _, _ => []

/-- `collect_eq_filters`: the loop over the stack, top first, and the filters found so far. -/
def collectEqFilters (params : List Json) : List Expr → List (String × String) →
    List (String × String)
  | [], out => out
  | .binaryOp left .and right :: stack, out =>
    collectEqFilters params (right :: left :: stack) out
  | .binaryOp left .eq right :: stack, out =>
    collectEqFilters params stack (out ++ eqFilter params left right)
  | .nested inner :: stack, out => collectEqFilters params (inner :: stack) out
  | _ :: stack, out => collectEqFilters params stack out
termination_by stack => (stack.map fun e => sizeOf e + 1).sum
decreasing_by
  all_goals simp only [List.map_cons, List.sum_cons, Expr.binaryOp.sizeOf_spec,
    Expr.nested.sizeOf_spec, BinaryOperator.and.sizeOf_spec]
  all_goals omega

/-- The filters of one conjunction, as a recursion: the stack hands out the right operand of
an `AND` before the left one. -/
def eqFilters (params : List Json) : Expr → List (String × String)
  | .binaryOp left .and right => eqFilters params right ++ eqFilters params left
  | .binaryOp left .eq right => eqFilter params left right
  | .nested inner => eqFilters params inner
  | _ => []

/-- **The stack loop computes the recursion.** -/
theorem collectEqFilters_eq (params : List Json) (stack : List Expr)
    (out : List (String × String)) :
    collectEqFilters params stack out = out ++ stack.flatMap (eqFilters params) := by
  fun_induction collectEqFilters params stack out with
  | case1 out => simp
  | case2 out left right stack ih => simp [ih, eqFilters]
  | case3 out left right stack ih => simp [ih, eqFilters]
  | case4 out inner stack ih => simp [ih, eqFilters]
  | case5 e stack out hand heq hnested ih =>
    have he : eqFilters params e = [] := by
      unfold eqFilters
      split
      · exact absurd rfl (hand _ _)
      · exact absurd rfl (heq _ _)
      · exact absurd rfl (hnested _)
      · rfl
    simp [ih, he]

/-! ## 2. Tables and functions -/

/-- The name `visit_relations`'s callback works on: the last part, lower-cased. -/
def lastLower (name : ObjectName) : String :=
  ((name.getLast?).map fun ident => toAsciiLowercase ident.value).getD ""

/-- `cte_names`: the members of the outermost `WITH`. -/
def outerCteNames (query : Query) : List String :=
  query.ctes.map fun cte => bareLower cte.tableAlias.name.value

/-- The callback of `visit_relations`, over the names it is called with. -/
def collectTables (cteNames : List String) : List ObjectName → List String → List String
  | [], tables => tables
  | name :: names, tables =>
    let table := lastLower name
    if !cteNames.contains table && !tables.contains table then
      collectTables cteNames names (tables ++ [table])
    else collectTables cteNames names tables

/-- The flat set the callback builds. -/
theorem mem_collectTables {cteNames : List String} {t : String} :
    ∀ (names : List ObjectName) (tables : List String),
      t ∈ collectTables cteNames names tables ↔
        t ∈ tables ∨ (t ∈ names.map lastLower ∧ t ∉ cteNames)
  | [], tables => by simp [collectTables]
  | name :: names, tables => by
    simp only [collectTables, Bool.and_eq_true, Bool.not_eq_true', List.contains_eq_mem,
      decide_eq_false_iff_not, List.map_cons, List.mem_cons]
    split
    · rename_i h
      rw [mem_collectTables names, List.mem_append, List.mem_singleton]
      constructor
      · rintro ((ht | rfl) | ht)
        · exact Or.inl ht
        · exact Or.inr ⟨Or.inl rfl, h.1⟩
        · exact Or.inr ⟨Or.inr ht.1, ht.2⟩
      · rintro (ht | ⟨rfl | ht, hc⟩)
        · exact Or.inl (Or.inl ht)
        · exact Or.inl (Or.inr rfl)
        · exact Or.inr ⟨ht, hc⟩
    · rename_i h
      rw [mem_collectTables names]
      constructor
      · rintro (ht | ht)
        · exact Or.inl ht
        · exact Or.inr ⟨Or.inr ht.1, ht.2⟩
      · rintro (ht | ⟨rfl | ht, hc⟩)
        · exact Or.inl ht
        · exact Or.inl (not_not.mp fun hn => h ⟨hc, hn⟩)
        · exact Or.inr ⟨ht, hc⟩

/-- The tables of a query: what `visit_relations` reports, without the outermost CTEs. -/
def queryTables (query : Query) : List String :=
  collectTables (outerCteNames query) query.visitRelations []

theorem mem_queryTables {query : Query} {t : String} :
    t ∈ queryTables query ↔
      t ∈ query.visitRelations.map lastLower ∧ t ∉ outerCteNames query := by
  simp [queryTables, mem_collectTables]

/-- The names of the functions `visit_expressions` meets. -/
def functionNames (query : Query) : List String :=
  query.visitExpressions.filterMap fun
    | .function name _ => some (bareLower name.display)
    | _ => none

/-- The filters of the outermost `WHERE`, when the body is a `SELECT`. -/
def queryFilters (query : Query) (params : List Json) : List (String × String) :=
  match query.body with
  | .select select => match select.selection with
    | some selection => collectEqFilters params [selection] []
    | none => []
  | _ => []

/-! ## 3. `classify` -/

/-- Whether the body is a `SELECT` with an `INTO`. -/
def selectsInto (query : Query) : Bool :=
  match query.body with
  | .select select => select.into.isSome
  | _ => false

namespace ReadClassifier

/-- `ReadClassifier::classify`. -/
def classify (crates : Crates) (self : ReadClassifier) (sql : String) (params : List Json) :
    Except CacheError CacheableQuery :=
  match crates.parseSql sql with
  | none => .error (.rejected
      "could not parse as a read-only SELECT; this server caches read queries only")
  | some [statement] => match statement with
    | .query query =>
      if !query.locks.isEmpty then .error (.rejected
        "locking reads (FOR UPDATE / FOR SHARE) are not supported on a read-only cache")
      else if selectsInto query then .error (.rejected
        "SELECT INTO is not supported because it writes")
      else match (functionNames query).find? SIDE_EFFECTING.contains with
        | some name => .error (.rejected
            ("function `" ++ name ++ "` has side effects and cannot be cached"))
        | none => match (functionNames query).find? VOLATILE_READ.contains with
          | some name => .error (.rejected
              ("non-deterministic function `" ++ name ++ "` cannot be cached or kept realtime"))
          | none => match (queryTables query).find? fun t => !self.replicated.contains t with
            | some table => .error (.rejected
                ("table `" ++ table ++ "` is not available in this cache (not replicated)"))
            | none => .ok
                { fingerprint := crates.finish
                    (crates.displayStatement statement :: params.map crates.displayJson)
                  tables := queryTables query
                  eqFilters := queryFilters query params
                  sql := sql
                  params := params }
    | .other _ => .error (.rejected
        "only read-only SELECT queries are cacheable; writes and DDL are not supported")
  | some _ => .error (.rejected "only a single SELECT statement is supported")

/-- **What `classify` accepts, and what it returns.**  Every use of an accepted query goes
through this lemma. -/
theorem classify_ok {crates : Crates} {self : ReadClassifier} {sql : String}
    {params : List Json} {q : CacheableQuery} (h : self.classify crates sql params = .ok q) :
    ∃ query, crates.parseSql sql = some [.query query] ∧
      query.locks = [] ∧ selectsInto query = false ∧
      (∀ f ∈ functionNames query, f ∉ SIDE_EFFECTING ∧ f ∉ VOLATILE_READ) ∧
      (∀ t ∈ queryTables query, t ∈ self.replicated) ∧
      q = { fingerprint := crates.finish
              (crates.displayStatement (.query query) :: params.map crates.displayJson)
            tables := queryTables query
            eqFilters := queryFilters query params
            sql := sql
            params := params } := by
  unfold classify at h
  split at h
  · exact absurd h nofun
  · rename_i statement hp
    split at h
    · rename_i query
      split at h
      · exact absurd h nofun
      rename_i hlocks
      split at h
      · exact absurd h nofun
      rename_i hinto
      split at h
      · exact absurd h nofun
      rename_i hside
      split at h
      · exact absurd h nofun
      rename_i hvol
      split at h
      · exact absurd h nofun
      rename_i htabs
      rw [List.find?_eq_none] at hside hvol htabs
      refine ⟨query, hp, by simpa using hlocks, by simpa using hinto, fun f hf => ⟨?_, ?_⟩, ?_, ?_⟩
      · simpa using hside f hf
      · simpa using hvol f hf
      · exact fun t ht => by simpa using htabs t ht
      · simpa using h.symm
    · exact absurd h nofun
  · exact absurd h nofun

end ReadClassifier

end PgPaw
