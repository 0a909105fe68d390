/-
# What the result of a query depends on

A query that makes no reference to a stored table returns the same on all databases
(`Query.eval_congr`).

The rest prepares for queries that make one.  Every row of a `FROM` has the columns its items
have (`HasShape`), a column that is a stored table's comes from a reference to it
(`TableFactor.ownFree_nulls`), and a joined row has a value of such a column when one of its
sides has it (`pinned_merge`).
-/
import PgPaw.Sql.Eval

namespace PgPaw.Sql

variable {I : Interpretation} {db db' : Database}

/-! ## 1. Statements without a reference -/

/-- The common table expressions evaluated are those in scope. -/
def Covers (scope : Scope) (ctes : CteEnv) : Prop :=
  ∀ name, (ctes.lookup name).isSome ↔ name ∈ scope

theorem Covers.nil : Covers [] [] := fun _ => by simp

theorem Covers.cons {scope : Scope} {ctes : CteEnv} (h : Covers scope ctes) (name : String)
    (relation : Relation) : Covers (name :: scope) ((name, relation) :: ctes) := by
  intro other
  rw [List.lookup_cons, List.mem_cons]
  by_cases hother : other = name
  · simp [hother]
  · have hb : (other == name) = false := by simpa using hother
    simpa [hb, hother] using h other

/-- Scopes with the same names. -/
theorem Covers.congr {scope scope' : Scope} {ctes : CteEnv} (h : Covers scope ctes)
    (hscope : ∀ name, name ∈ scope ↔ name ∈ scope') : Covers scope' ctes := fun name =>
  (h name).trans (hscope name)

theorem Covers.append {scope scope' : Scope} {ctes ctes' : CteEnv} (h : Covers scope ctes)
    (h' : Covers scope' ctes') : Covers (scope ++ scope') (ctes ++ ctes') := by
  intro name
  rw [List.lookup_append, Option.isSome_or, Bool.or_eq_true, List.mem_append, h name, h' name]

/-- The members of a `WITH RECURSIVE` go by the names of the members. -/
theorem covers_recursiveCtes (cs : List Cte) (outer : CteEnv) (rows : List (List Tuple)) :
    Covers (cteNames cs) (I.recursiveCtes cs outer rows) := by
  have hnames : (I.recursiveCtes cs outer rows).map Prod.fst = cteNames cs := by
    rw [Interpretation.recursiveCtes, List.map_map, cteNames]
    conv_rhs => rw [← List.zipIdx_map_fst 0 cs, List.map_map]
    rfl
  intro name
  rw [List.lookup_isSome_iff, ← hnames, List.mem_map]
  exact exists_congr fun p => and_congr_right fun _ => by rw [beq_iff_eq, eq_comm]

/-- The members of a `WITH` come on top of what was in scope. -/
theorem covers_evalCtes {env : Env} : ∀ (cs : List Cte) {scope : Scope} {ctes : CteEnv},
    Covers scope ctes → Covers (cteNames cs ++ scope) (evalCtes I db cs ctes env)
  | [], _, _, h => by simpa [cteNames, evalCtes] using h
  | .mk a q :: cs, scope, ctes, h => by
    rw [evalCtes]
    refine (covers_evalCtes cs (h.cons a.name.folded _)).congr ?_
    intro name
    simp only [cteNames, List.map_cons, Cte.tableAlias, List.mem_append, List.mem_cons]
    tauto

/-- A name that denotes a common table expression has one to denote. -/
theorem cteOf_isSome {scope : Scope} {ctes : CteEnv} (h : Covers scope ctes) (name : ObjectName) :
    (cteOf ctes name).isSome = denotesCte scope name := by
  match name with
  | [] => rfl
  | [i] =>
    rw [Bool.eq_iff_iff]
    simpa [cteOf, denotesCte] using h i.folded
  | _ :: _ :: _ => rfl

/-- The columns of what it denotes. -/
theorem cteOf_shapes (ctes : CteEnv) (name : ObjectName) :
    cteOf (shapes ctes) name = (cteOf ctes name).map Relation.columns := by
  have hlookup : ∀ (ctes : CteEnv) (key : String),
      (shapes ctes).lookup key = (ctes.lookup key).map Relation.columns := by
    intro ctes key
    induction ctes with
    | nil => rfl
    | cons entry ctes ih =>
      change List.lookup key ((entry.1, entry.2.columns) :: shapes ctes) = _
      rw [List.lookup_cons, List.lookup_cons, ih]
      cases key == entry.1 <;> rfl
  match name with
  | [] => rfl
  | [i] => exact hlookup ctes i.folded
  | _ :: _ :: _ => rfl

/-- A name that makes no reference denotes a common table expression. -/
theorem cteOf_of_referTo {scope : Scope} {ctes : CteEnv} (h : Covers scope ctes)
    {make : ObjectName → Reference} {name : ObjectName} (hn : referTo scope make name = []) :
    ∃ relation, cteOf ctes name = some relation := by
  refine Option.isSome_iff_exists.mp ((cteOf_isSome h name).trans ?_)
  by_contra hd
  rw [referTo, if_neg hd] at hn
  exact absurd hn (List.cons_ne_nil _ _)

section Congr

variable (db db')

mutual

theorem Expr.eval_congr : ∀ (e : Expr) {scope : Scope} {ctes : CteEnv}, Covers scope ctes →
    e.reads scope = [] → e.eval I db ctes = e.eval I db' ctes
  | .identifier _, _, _, _, _ | .compoundIdentifier _, _, _, _, _ | .value _, _, _, _, _ => rfl
  | .binaryOp l op r, _, _, hc, h => by
    obtain ⟨hl, hr⟩ := List.append_eq_nil_iff.mp h
    have hl := Expr.eval_congr l hc hl
    have hr := Expr.eval_congr r hc hr
    cases op <;> simp only [Expr.eval, hl, hr]
  | .nested e, _, _, hc, h => Expr.eval_congr e hc h
  | .function n args, _, _, hc, h => congrArg (I.function n) (evalExprs_congr args hc h)
  | .subquery q, _, _, hc, h => by simp only [Expr.eval, Query.eval_congr q hc h]
  | .exists q _, _, _, hc, h => by simp only [Expr.eval, Query.eval_congr q hc h]
  | .inSubquery e q _, _, _, hc, h => by
    obtain ⟨he, hq⟩ := List.append_eq_nil_iff.mp h
    simp only [Expr.eval, Expr.eval_congr e hc he, Query.eval_congr q hc hq]
  | .form k es, _, _, hc, h => congrArg (I.form k) (evalExprs_congr es hc h)

theorem evalExprs_congr : ∀ (es : List Expr) {scope : Scope} {ctes : CteEnv}, Covers scope ctes →
    readsExprs scope es = [] → evalExprs I db es ctes = evalExprs I db' es ctes
  | [], _, _, _, _ => rfl
  | e :: es, _, _, hc, h => by
    obtain ⟨he, hes⟩ := List.append_eq_nil_iff.mp h
    simp only [evalExprs, Expr.eval_congr e hc he, evalExprs_congr es hc hes]

theorem evalSelection_congr : ∀ (w : Option Expr) {scope : Scope} {ctes : CteEnv},
    Covers scope ctes → readsSelection scope w = [] →
      evalSelection I db w ctes = evalSelection I db' w ctes
  | none, _, _, _, _ => rfl
  | some e, _, _, hc, h => by
    funext env
    simp only [evalSelection, Expr.eval_congr e hc h]

/-- **A query that makes no reference to a stored table** returns the same on all
databases. -/
theorem Query.eval_congr : ∀ (q : Query) {scope : Scope} {ctes : CteEnv}, Covers scope ctes →
    q.reads scope = [] → q.eval I db ctes = q.eval I db' ctes
  | .mk r cs b obs ls lk, scope, ctes, hc, h => by
    obtain ⟨h, hls⟩ := List.append_eq_nil_iff.mp h
    obtain ⟨h, hobs⟩ := List.append_eq_nil_iff.mp h
    obtain ⟨hcs, hb⟩ := List.append_eq_nil_iff.mp h
    funext env
    cases r with
    | false =>
      have hcte := evalCtes_congr env cs hc hcs
      have hc' : Covers (cteNames cs ++ scope) (evalCtes I db' cs ctes env) :=
        covers_evalCtes cs hc
      simp only [Query.eval, Bool.false_eq_true, if_false, hcte, SetExpr.eval_congr b hc' hb,
        evalExprs_congr obs hc' hobs, evalExprs_congr ls hc' hls]
    | true =>
      have hc' : ∀ rows, Covers (cteNames cs ++ scope) (I.recursiveCtes cs ctes rows ++ ctes) :=
        fun rows => (covers_recursiveCtes cs ctes rows).append hc
      have hmem : ∀ rows, evalMembers I db cs (I.recursiveCtes cs ctes rows ++ ctes) env =
          evalMembers I db' cs (I.recursiveCtes cs ctes rows ++ ctes) env := fun rows =>
        evalMembers_congr env cs (hc' rows) (fun _ hn => List.mem_append_left _ hn) hcs
      simp only [Query.eval, if_true, hmem, SetExpr.eval_congr b (hc' _) hb,
        evalExprs_congr obs (hc' _) hobs, evalExprs_congr ls (hc' _) hls]

theorem evalSource_congr : ∀ (q : Option Query) {scope : Scope} {ctes : CteEnv},
    Covers scope ctes → readsSource scope q = [] → evalSource I db q ctes = evalSource I db' q ctes
  | none, _, _, _, _ => rfl
  | some q, _, _, hc, h => by
    funext env
    simp only [evalSource, Query.eval_congr q hc h]

theorem evalCtes_congr (env : Env) : ∀ (cs : List Cte) {scope : Scope} {ctes : CteEnv},
    Covers scope ctes → readsCtes scope cs = [] →
      evalCtes I db cs ctes env = evalCtes I db' cs ctes env
  | [], _, _, _, _ => rfl
  | .mk a q :: cs, _, _, hc, h => by
    obtain ⟨hq, hcs⟩ := List.append_eq_nil_iff.mp h
    rw [evalCtes, evalCtes, Query.eval_congr q hc hq]
    exact evalCtes_congr env cs (hc.cons _ _) hcs

theorem evalMembers_congr (env : Env) : ∀ (cs : List Cte) {scope : Scope} {ctes : CteEnv},
    Covers scope ctes → (∀ name ∈ cteNames cs, name ∈ scope) → readsCtes scope cs = [] →
      evalMembers I db cs ctes env = evalMembers I db' cs ctes env
  | [], _, _, _, _, _ => rfl
  | .mk a q :: cs, scope, _, hc, hnames, h => by
    obtain ⟨hq, hcs⟩ := List.append_eq_nil_iff.mp h
    have ha : a.name.folded ∈ scope := hnames _ List.mem_cons_self
    have hc' : Covers (a.name.folded :: scope) _ := hc.congr fun name =>
      ⟨List.mem_cons_of_mem _, fun hn => (List.mem_cons.mp hn).elim (· ▸ ha) id⟩
    rw [evalMembers, evalMembers, Query.eval_congr q hc hq, evalMembers_congr env cs hc'
      (fun name hn => List.mem_cons_of_mem _ (hnames name (List.mem_cons_of_mem _ hn))) hcs]

theorem SetExpr.eval_congr : ∀ (b : SetExpr) {scope : Scope} {ctes : CteEnv},
    Covers scope ctes → b.reads scope = [] → b.eval I db ctes = b.eval I db' ctes
  | .select s, _, _, hc, h => Select.eval_congr s hc h
  | .query q, _, _, hc, h => by
    funext env
    simp only [SetExpr.eval, Query.eval_congr q hc h]
  | .setOperation _ l r, _, _, hc, h => by
    obtain ⟨hl, hr⟩ := List.append_eq_nil_iff.mp h
    funext env
    simp only [SetExpr.eval, SetExpr.eval_congr l hc hl, SetExpr.eval_congr r hc hr]
  | .values es, _, _, hc, h => by
    funext env
    simp only [SetExpr.eval, evalExprs_congr es hc h]
  | .insert _ q on ret, _, _, hc, h => by
    obtain ⟨h, hret⟩ := List.append_eq_nil_iff.mp h
    obtain ⟨hq, hon⟩ := List.append_eq_nil_iff.mp h
    funext env
    simp only [SetExpr.eval, evalSource_congr q hc hq, evalExprs_congr on hc hon,
      evalItems_congr ret hc hret]
  | .update t f es ret, _, _, hc, h => by
    obtain ⟨h, hret⟩ := List.append_eq_nil_iff.mp h
    obtain ⟨h, hes⟩ := List.append_eq_nil_iff.mp h
    obtain ⟨ht, hf⟩ := List.append_eq_nil_iff.mp h
    funext env
    simp only [SetExpr.eval, TableWithJoins.eval_congr t hc ht, evalTables_congr f hc hf,
      evalExprs_congr es hc hes, evalItems_congr ret hc hret]
  | .table none i, _, _, hc, h => by
    obtain ⟨relation, hr⟩ := cteOf_of_referTo hc h
    funext env
    simp only [SetExpr.eval, Option.toList_none, List.nil_append, hr]
  | .table (some s) i, _, _, hc, h => by
    obtain ⟨relation, hr⟩ := cteOf_of_referTo hc h
    funext env
    simp only [SetExpr.eval, Option.toList_some, List.cons_append, List.nil_append, hr]

theorem Select.eval_congr : ∀ (s : Select) {scope : Scope} {ctes : CteEnv}, Covers scope ctes →
    s.reads scope = [] → s.eval I db ctes = s.eval I db' ctes
  | .mk d don ps _ f w g h, _, _, hc, hs => by
    obtain ⟨hs, hh⟩ := List.append_eq_nil_iff.mp hs
    obtain ⟨hs, hg⟩ := List.append_eq_nil_iff.mp hs
    obtain ⟨hs, hw⟩ := List.append_eq_nil_iff.mp hs
    obtain ⟨hs, hf⟩ := List.append_eq_nil_iff.mp hs
    obtain ⟨hdon, hps⟩ := List.append_eq_nil_iff.mp hs
    funext env
    simp only [Select.eval, evalExprs_congr don hc hdon, evalItems_congr ps hc hps,
      evalTables_congr f hc hf, evalSelection_congr w hc hw, evalExprs_congr g hc hg,
      evalExprs_congr h hc hh]

theorem evalItems_congr : ∀ (is : List SelectItem) {scope : Scope} {ctes : CteEnv},
    Covers scope ctes → readsItems scope is = [] →
      evalItems I db is ctes = evalItems I db' is ctes
  | [], _, _, _, _ => rfl
  | .unnamedExpr e :: is, _, _, hc, h => by
    obtain ⟨he, his⟩ := List.append_eq_nil_iff.mp h
    simp only [evalItems, Expr.eval_congr e hc he, evalItems_congr is hc his]
  | .exprWithAlias e _ :: is, _, _, hc, h => by
    obtain ⟨he, his⟩ := List.append_eq_nil_iff.mp h
    simp only [evalItems, Expr.eval_congr e hc he, evalItems_congr is hc his]
  | .qualifiedWildcard _ :: is, _, _, hc, h => by
    simp only [evalItems, evalItems_congr is hc h]
  | .wildcard :: is, _, _, hc, h => by simp only [evalItems, evalItems_congr is hc h]

theorem TableWithJoins.eval_congr : ∀ (t : TableWithJoins) {scope : Scope} {ctes : CteEnv},
    Covers scope ctes → t.reads scope = [] → t.eval I db ctes = t.eval I db' ctes
  | .mk t js, _, _, hc, h => by
    obtain ⟨ht, hjs⟩ := List.append_eq_nil_iff.mp h
    funext env before
    simp only [TableWithJoins.eval, TableFactor.eval_congr t hc ht, evalJoins_congr js hc hjs]

theorem evalTables_congr : ∀ (ts : List TableWithJoins) {scope : Scope} {ctes : CteEnv},
    Covers scope ctes → readsTables scope ts = [] →
      evalTables I db ts ctes = evalTables I db' ts ctes
  | [], _, _, _, _ => rfl
  | t :: ts, _, _, hc, h => by
    obtain ⟨ht, hts⟩ := List.append_eq_nil_iff.mp h
    funext env before
    simp only [evalTables, TableWithJoins.eval_congr t hc ht, evalTables_congr ts hc hts]

theorem evalJoins_congr : ∀ (js : List Join) {scope : Scope} {ctes : CteEnv}, Covers scope ctes →
    readsJoins scope js = [] → evalJoins I db js ctes = evalJoins I db' js ctes
  | [], _, _, _, _ => rfl
  | .mk t _ _ on _ :: js, _, _, hc, h => by
    obtain ⟨h, hjs⟩ := List.append_eq_nil_iff.mp h
    obtain ⟨ht, hon⟩ := List.append_eq_nil_iff.mp h
    funext env before ls nulls
    simp only [evalJoins, TableFactor.eval_congr t hc ht, evalExprs_congr on hc hon,
      evalJoins_congr js hc hjs]

theorem TableFactor.eval_congr : ∀ (t : TableFactor) {scope : Scope} {ctes : CteEnv},
    Covers scope ctes → t.reads scope = [] → t.eval I db ctes = t.eval I db' ctes
  | .table n as call args, scope, ctes, hc, h => by
    obtain ⟨hn, hargs⟩ := List.append_eq_nil_iff.mp h
    funext env before
    cases call with
    | true => simp only [TableFactor.eval, if_true, evalExprs_congr args hc hargs]
    | false =>
      obtain ⟨relation, hr⟩ := cteOf_of_referTo hc hn
      simp only [TableFactor.eval, Bool.false_eq_true, if_false, hr]
  | .derived _ q _, _, _, hc, h => by
    funext env before
    simp only [TableFactor.eval, Query.eval_congr q hc h]
  | .function _ args _, _, _, hc, h => by
    funext env before
    simp only [TableFactor.eval, evalExprs_congr args hc h]
  | .nestedJoin t _, _, _, hc, h => by
    funext env before
    simp only [TableFactor.eval, TableWithJoins.eval_congr t hc h]

end

end Congr

/-! ## 2. Every row of a `FROM` has its columns -/

/-- The row has these columns. -/
def HasShape (nulls fields : Fields) : Prop := blank fields = nulls

@[simp] theorem blank_append (l r : Fields) : blank (l ++ r) = blank l ++ blank r :=
  List.map_append

@[simp] theorem blank_blank (fields : Fields) : blank (blank fields) = blank fields := by
  simp [blank, Function.comp_def]

theorem blank_bindRow (cols : List Col) (tuple : Tuple) :
    blank (bindRow cols tuple) = bindRow cols [] := by
  simp [blank, bindRow, Function.comp_def]

/-- Which column a name refers to does not depend on the values. -/
theorem findField_blank (name : Name) (fields : Fields) :
    findField name (blank fields) = (findField name fields).map fun (col, _) => (col, none) := by
  rw [findField, blank, List.find?_map]
  rfl

theorem blank_aliasFields (as : Option TableAlias) (fields : Fields) :
    blank (aliasFields as fields) = aliasFields as (blank fields) := by
  cases as with
  | none => rfl
  | some a =>
    simp only [aliasFields, blank, List.filter_map, List.zipIdx_map, List.map_map]
    rfl

theorem blank_hide (columns : List String) (fields : Fields) :
    blank (hide columns fields) = hide columns (blank fields) := by
  simp only [hide, blank, List.map_map]
  rfl

theorem copyField_blank (fields : Fields) (column : String) :
    copyField (blank fields) column = ((copyField fields column).1, none) := by
  rw [copyField, copyField, findField_blank]
  cases findField ⟨none, column⟩ fields <;> rfl

theorem mergedField_blank (op : JoinOperator) (l r : Fields) (column : String) :
    mergedField op (blank l) (blank r) column = ((mergedField op l r column).1, none) := by
  cases op with
  | inner | leftOuter => exact copyField_blank l column
  | rightOuter => exact copyField_blank r column
  | fullOuter =>
    simp only [mergedField, visibleValue, findField_blank, Option.map_map]
    cases findField ⟨none, column⟩ l <;> cases findField ⟨none, column⟩ r <;> rfl

theorem blank_merge (op : JoinOperator) (columns : List String) (l r : Fields) :
    blank (merge op columns l r) = merge op columns (blank l) (blank r) := by
  simp only [merge, blank_append, blank_hide]
  congr 2
  rw [blank, List.map_map]
  exact List.map_congr_left fun column _ => (mergedField_blank op l r column).symm

/-- The rows of a join. -/
theorem hasShape_joinRows {op : JoinOperator} {columns : List String}
    {on : Fields → Fields → Bool} {nullsL nullsR : Fields} {ls : List Fields}
    {rs : Fields → List Fields} {all : List Fields} (hL : blank nullsL = nullsL)
    (hR : blank nullsR = nullsR) (hls : ∀ l ∈ ls, HasShape nullsL l)
    (hrs : ∀ l, ∀ r ∈ rs l, HasShape nullsR r) (hall : ∀ r ∈ all, HasShape nullsR r) :
    ∀ row ∈ joinRows op columns on nullsL nullsR ls rs all,
      HasShape (merge op columns nullsL nullsR) row := by
  have hpair : ∀ l r, HasShape nullsL l → HasShape nullsR r →
      HasShape (merge op columns nullsL nullsR) (merge op columns l r) := by
    intro l r hl hr
    rw [HasShape, blank_merge, hl, hr]
  have hinner : ∀ rs : Fields → List Fields, (∀ l, ∀ r ∈ rs l, HasShape nullsR r) →
      ∀ row ∈ Join.inner ls rs on (merge op columns),
        HasShape (merge op columns nullsL nullsR) row := by
    intro rs hrs row hrow
    obtain ⟨l, hl, r, hr, -, rfl⟩ := Join.mem_inner.mp hrow
    exact hpair l r (hls l hl) (hrs l r hr)
  have hleft : ∀ rs : Fields → List Fields, (∀ l, ∀ r ∈ rs l, HasShape nullsR r) →
      ∀ row ∈ Join.left ls rs on (merge op columns) (fun l => merge op columns l nullsR),
        HasShape (merge op columns nullsL nullsR) row := by
    intro rs hrs row hrow
    rcases Join.mem_left hrow with ⟨l, hl, r, hr, -, rfl⟩ | ⟨l, hl, rfl⟩
    · exact hpair l r (hls l hl) (hrs l r hr)
    · exact hpair l nullsR (hls l hl) hR
  have hunmatched : ∀ row ∈ Join.unmatched ls all on (merge op columns nullsL),
      HasShape (merge op columns nullsL nullsR) row := by
    intro row hrow
    obtain ⟨r, hr, rfl⟩ := Join.mem_unmatched hrow
    exact hpair nullsL r hL (hall r hr)
  intro row hrow
  cases op with
  | inner => exact hinner rs hrs row hrow
  | leftOuter => exact hleft rs hrs row hrow
  | rightOuter =>
    exact (List.mem_append.mp hrow).elim (hinner _ (fun _ => hall) row) (hunmatched row)
  | fullOuter =>
    exact (List.mem_append.mp hrow).elim (hleft _ (fun _ => hall) row) (hunmatched row)

section Nulls

variable (I) (ctes : Shapes)

mutual

theorem TableFactor.blank_nulls : ∀ t : TableFactor,
    blank (t.nulls I ctes) = t.nulls I ctes
  | .table _ _ _ _ | .derived _ _ _ | .function _ _ _ => blank_bindRow _ _
  | .nestedJoin t as => by
    rw [TableFactor.nulls, blank_aliasFields, TableWithJoins.blank_nulls t]

theorem TableWithJoins.blank_nulls : ∀ t : TableWithJoins,
    blank (t.nulls I ctes) = t.nulls I ctes
  | .mk t js => blank_nullsJoins js (TableFactor.blank_nulls t)

theorem blank_nullsJoins : ∀ (js : List Join) {nulls : Fields},
    blank nulls = nulls → blank (nullsJoins I ctes js nulls) = nullsJoins I ctes js nulls
  | [], _, h => h
  | .mk t op natural _ using' :: js, nulls, h => by
    rw [nullsJoins]
    refine blank_nullsJoins js ?_
    rw [blank_merge, h, TableFactor.blank_nulls t]

end

end Nulls

section Shape

variable {ctes : CteEnv} {env : Env} {before : Fields}

mutual

/-- **The rows of a `FROM` item have the item's columns.** -/
theorem TableFactor.hasShape_eval : ∀ (t : TableFactor) {before : Fields},
    ∀ row ∈ t.eval I db ctes env before, HasShape (t.nulls I (shapes ctes)) row
  | .table _ _ _ _, _, row, hrow | .derived _ _ _, _, row, hrow
  | .function _ _ _, _, row, hrow => by
    obtain ⟨tuple, -, rfl⟩ := List.mem_map.mp hrow
    exact blank_bindRow _ _
  | .nestedJoin t as, _, row, hrow => by
    obtain ⟨inner, hinner, rfl⟩ := List.mem_map.mp hrow
    rw [HasShape, blank_aliasFields, TableWithJoins.hasShape_eval t inner hinner]
    rfl

theorem TableWithJoins.hasShape_eval : ∀ (t : TableWithJoins) {before : Fields},
    ∀ row ∈ t.eval I db ctes env before, HasShape (t.nulls I (shapes ctes)) row
  | .mk t js, _ =>
    hasShape_evalJoins js (TableFactor.blank_nulls _ _ t) (TableFactor.hasShape_eval t)

theorem hasShape_evalJoins : ∀ (js : List Join) {before nulls : Fields} {ls : List Fields},
    blank nulls = nulls → (∀ l ∈ ls, HasShape nulls l) →
      ∀ row ∈ evalJoins I db js ctes env before ls nulls,
        HasShape (nullsJoins I (shapes ctes) js nulls) row
  | [], _, _, _, _, hls => hls
  | .mk t op natural on using' :: js, before, nulls, ls, hnulls, hls => by
    have ht := TableFactor.blank_nulls I (shapes ctes) t
    refine hasShape_evalJoins js (by rw [blank_merge, hnulls, ht]) ?_
    exact hasShape_joinRows hnulls ht hls (fun _ => TableFactor.hasShape_eval t)
      (TableFactor.hasShape_eval t)

end

theorem hasShape_evalTables : ∀ (ts : List TableWithJoins) {before : Fields},
    ∀ row ∈ evalTables I db ts ctes env before, HasShape (nullsTables I (shapes ctes) ts) row
  | [], _, row, hrow => by
    rw [List.mem_singleton.mp hrow]
    rfl
  | t :: ts, _, row, hrow => by
    obtain ⟨l, hl, r, hr, -, rfl⟩ := Join.mem_inner.mp hrow
    rw [HasShape, blank_append, TableWithJoins.hasShape_eval t l hl, hasShape_evalTables ts r hr]
    rfl

end Shape

/-! ## 3. The columns of a stored table -/

/-- No column is a stored table's. -/
def OwnFree (fields : Fields) : Prop := ∀ field ∈ fields, field.1.own = none

theorem ownFree_append {l r : Fields} : OwnFree (l ++ r) ↔ OwnFree l ∧ OwnFree r :=
  List.forall_mem_append

/-- Values do not matter. -/
theorem ownFree_blank {fields : Fields} : OwnFree (blank fields) ↔ OwnFree fields :=
  List.forall_mem_map

theorem OwnFree.of_hasShape {nulls fields : Fields} (h : OwnFree nulls)
    (hshape : HasShape nulls fields) : OwnFree fields :=
  ownFree_blank.mp (hshape.symm ▸ h)

theorem ownFree_factorCols {qualifier : Option String} {aliases : List Ident}
    {names : List String} {tuple : Tuple} :
    OwnFree (bindRow (factorCols qualifier aliases false names) tuple) := by
  intro field hfield
  simp only [bindRow, factorCols, List.mem_map] at hfield
  obtain ⟨⟨col, i⟩, hcol, rfl⟩ := hfield
  obtain ⟨⟨name, j⟩, -, rfl⟩ := List.mem_map.mp (List.fst_mem_of_mem_zipIdx hcol)
  rfl

theorem OwnFree.aliasFields {fields : Fields} (h : OwnFree fields) (as : Option TableAlias) :
    OwnFree (aliasFields as fields) := by
  cases as with
  | none => exact h
  | some a =>
    intro field hfield
    obtain ⟨⟨⟨col, x⟩, i⟩, hmem, rfl⟩ := List.mem_map.mp hfield
    exact h (col, x) (List.mem_filter.mp (List.fst_mem_of_mem_zipIdx hmem)).1

theorem OwnFree.hide {fields : Fields} (h : OwnFree fields) (columns : List String) :
    OwnFree (hide columns fields) := by
  intro field hfield
  obtain ⟨⟨col, x⟩, hmem, rfl⟩ := List.mem_map.mp hfield
  have hown := h _ hmem
  dsimp only at hown ⊢
  split <;> exact hown

/-- A column to merge is the merged one's origin. -/
theorem copyField_own (fields : Fields) (column : String) :
    (copyField fields column).1.own = none ∨
      ∃ field ∈ fields, field.1.own = (copyField fields column).1.own ∧
        field.2 = (copyField fields column).2 := by
  rw [copyField]
  split
  · rename_i col x h
    exact Or.inr ⟨(col, x), List.mem_of_find?_eq_some h, rfl, rfl⟩
  · exact Or.inl rfl

/-- So is what is merged of two rows. -/
theorem mergedField_own (op : JoinOperator) (l r : Fields) (column : String) :
    (mergedField op l r column).1.own = none ∨
      ∃ field ∈ l ++ r, field.1.own = (mergedField op l r column).1.own ∧
        field.2 = (mergedField op l r column).2 := by
  cases op with
  | inner | leftOuter =>
    refine (copyField_own l column).imp_right ?_
    rintro ⟨field, hfield, hown⟩
    exact ⟨field, List.mem_append_left _ hfield, hown⟩
  | rightOuter =>
    refine (copyField_own r column).imp_right ?_
    rintro ⟨field, hfield, hown⟩
    exact ⟨field, List.mem_append_right _ hfield, hown⟩
  | fullOuter => exact Or.inl rfl

theorem OwnFree.merge {l r : Fields} (hl : OwnFree l) (hr : OwnFree r) (op : JoinOperator)
    (columns : List String) : OwnFree (merge op columns l r) := by
  rw [Sql.merge, ownFree_append, ownFree_append]
  refine ⟨⟨fun field hfield => ?_, hl.hide columns⟩, hr.hide columns⟩
  obtain ⟨column, -, rfl⟩ := List.mem_map.mp hfield
  rcases mergedField_own op l r column with
    hown | ⟨origin, horigin, hown, -⟩
  · exact hown
  · exact hown ▸ ownFree_append.mpr ⟨hl, hr⟩ origin horigin

section OwnFree

variable {scope : Scope} {ctes : CteEnv}

mutual

/-- **A `FROM` item that makes no reference to a stored table** has none of its columns. -/
theorem TableFactor.ownFree_nulls (hc : Covers scope ctes) : ∀ t : TableFactor,
    t.reads scope = [] → OwnFree (t.nulls I (shapes ctes))
  | .table n as call args, h => by
    obtain ⟨hn, -⟩ := List.append_eq_nil_iff.mp h
    cases call with
    | true => exact ownFree_factorCols
    | false =>
      obtain ⟨relation, hr⟩ := cteOf_of_referTo hc hn
      simp only [TableFactor.nulls, Interpretation.tableCols, Bool.false_eq_true, if_false,
        cteOf_shapes, hr, Option.map_some]
      exact ownFree_factorCols
  | .derived _ _ _, _ | .function _ _ _, _ => ownFree_factorCols
  | .nestedJoin t as, h => (TableWithJoins.ownFree_nulls hc t h).aliasFields as

theorem TableWithJoins.ownFree_nulls (hc : Covers scope ctes) : ∀ t : TableWithJoins,
    t.reads scope = [] → OwnFree (t.nulls I (shapes ctes))
  | .mk t js, h => by
    obtain ⟨ht, hjs⟩ := List.append_eq_nil_iff.mp h
    exact ownFree_nullsJoins hc js (TableFactor.ownFree_nulls hc t ht) hjs

theorem ownFree_nullsJoins (hc : Covers scope ctes) : ∀ (js : List Join) {nulls : Fields},
    OwnFree nulls → readsJoins scope js = [] → OwnFree (nullsJoins I (shapes ctes) js nulls)
  | [], _, hnulls, _ => hnulls
  | .mk t op natural _ using' :: js, _, hnulls, h => by
    obtain ⟨h, hjs⟩ := List.append_eq_nil_iff.mp h
    obtain ⟨ht, -⟩ := List.append_eq_nil_iff.mp h
    exact ownFree_nullsJoins hc js (hnulls.merge (TableFactor.ownFree_nulls hc t ht) op _) hjs

end

theorem ownFree_nullsTables (hc : Covers scope ctes) : ∀ ts : List TableWithJoins,
    readsTables scope ts = [] → OwnFree (nullsTables I (shapes ctes) ts)
  | [], _ => fun _ h => absurd h List.not_mem_nil
  | t :: ts, h => by
    obtain ⟨ht, hts⟩ := List.append_eq_nil_iff.mp h
    exact ownFree_append.mpr
      ⟨TableWithJoins.ownFree_nulls hc t ht, ownFree_nullsTables hc ts hts⟩

end OwnFree

/-! ## 4. The rows with one value in one column of the table -/

/-- The row has the value in this column of the stored table. -/
def pinned (column value : String) (fields : Fields) : Bool :=
  fields.any fun (col, x) => col.own == some column && x == some value

section Pinned

variable {column value : String}

theorem pinned_iff {fields : Fields} : pinned column value fields = true ↔
    ∃ field ∈ fields, field.1.own = some column ∧ field.2 = some value := by
  simp only [pinned, List.any_eq_true, Bool.and_eq_true, beq_iff_eq]

theorem OwnFree.pinned_eq_false {fields : Fields} (h : OwnFree fields) :
    pinned column value fields = false := by
  refine Bool.eq_false_iff.mpr ?_
  intro hpinned
  obtain ⟨field, hfield, hown, -⟩ := pinned_iff.mp hpinned
  exact absurd ((h field hfield).symm.trans hown) nofun

/-- A padded row has no value. -/
theorem pinned_blank {fields : Fields} (h : blank fields = fields) :
    pinned column value fields = false := by
  refine Bool.eq_false_iff.mpr ?_
  intro hpinned
  rw [← h] at hpinned
  obtain ⟨field, hfield, -, hvalue⟩ := pinned_iff.mp hpinned
  obtain ⟨_, -, rfl⟩ := List.mem_map.mp hfield
  exact absurd hvalue nofun

theorem pinned_append (l r : Fields) :
    pinned column value (l ++ r) = (pinned column value l || pinned column value r) :=
  List.any_append

theorem pinned_hide (columns : List String) (fields : Fields) :
    pinned column value (hide columns fields) = pinned column value fields := by
  rw [pinned, pinned, hide, List.any_map]
  congr 1
  funext ⟨col, x⟩
  dsimp only [Function.comp_apply]
  split <;> rfl

/-- **A joined row has the value when one of its sides has.** -/
theorem pinned_merge (op : JoinOperator) (columns : List String) (l r : Fields) :
    pinned column value (merge op columns l r) =
      (pinned column value l || pinned column value r) := by
  rw [merge, pinned_append, pinned_append, pinned_hide, pinned_hide, Bool.or_assoc,
    ← pinned_append l r]
  -- a merged column only repeats a value of one side
  refine Bool.or_eq_right_iff_imp.mpr ?_
  intro hmerged
  obtain ⟨field, hfield, hown, hvalue⟩ := pinned_iff.mp hmerged
  obtain ⟨name, -, rfl⟩ := List.mem_map.mp hfield
  rcases mergedField_own op l r name with
    hnone | ⟨origin, horigin, hown', hvalue'⟩
  · exact absurd (hnone.symm.trans hown) nofun
  · exact pinned_iff.mpr ⟨origin, horigin, hown'.trans hown, hvalue'.trans hvalue⟩

/-- An alias adds no value. -/
theorem pinned_of_aliasFields {as : Option TableAlias} {fields : Fields}
    (h : pinned column value (aliasFields as fields) = true) :
    pinned column value fields = true := by
  cases as with
  | none => exact h
  | some a =>
    obtain ⟨field, hfield, hown, hvalue⟩ := pinned_iff.mp h
    obtain ⟨⟨origin, i⟩, hmem, rfl⟩ := List.mem_map.mp hfield
    have horigin := (List.mem_filter.mp (List.fst_mem_of_mem_zipIdx hmem)).1
    exact pinned_iff.mpr ⟨origin, horigin, hown, hvalue⟩

end Pinned

end PgPaw.Sql
