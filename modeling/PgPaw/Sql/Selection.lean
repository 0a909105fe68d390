/-
# A selection on the one table a query reads

Suppose a query refers to stored tables at one place, and its `WHERE` keeps only rows that have
one value in one column of the table read there.  Then the rows of the table without this value
do not matter, whatever the query does with the rows it keeps (`Query.eval_congr_of_pinned`).

The argument follows the rows up the `FROM`: of two databases with the same rows with the
value, every range variable, join and `FROM` item yields the same rows with the value
(`TableFactor.filter_eval` and the lemmas after it).  An outer join may yield different padded
rows, but these do not have it.
-/
import PgPaw.Sql.Depend

namespace PgPaw.Sql

/-- The tuple has the value in the column of the table. -/
def Interpretation.hasValue (I : Interpretation) (column value : String) (table : StoredTable)
    (tuple : Tuple) : Bool :=
  (I.schema table).zipIdx.any fun (name, i) => name == column && tuple[i]?.join == some value

/-- The table a reference denotes has the same rows with the value in both databases. -/
def SameRows (I : Interpretation) (column value : String) (db db' : Database) (r : Reference) :
    Prop :=
  ∀ table, storedTable r.name = some table →
    (db table).filter (I.hasValue column value table) =
      (db' table).filter (I.hasValue column value table)

variable {I : Interpretation} {db db' : Database} {column value : String} {scope : Scope}
  {ctes : CteEnv} {env : Env}

/-! ## 1. Joins -/

/-- Of two parts with at most one reference, one has none. -/
theorem one_of_append {α : Type} {a b : List α} (h : (a ++ b).length ≤ 1) :
    (a = [] ∧ b.length ≤ 1) ∨ (b = [] ∧ a.length ≤ 1) := by
  rw [List.length_append] at h
  rcases Nat.eq_zero_or_pos a.length with ha | ha
  · exact Or.inl ⟨List.length_eq_zero_iff.mp ha, by omega⟩
  · exact Or.inr ⟨List.length_eq_zero_iff.mp (by omega), by omega⟩

/-- Lists that agree where `q` holds have the same images where `p` does. -/
theorem filter_map_congr {α β : Type} {p : β → Bool} {q : α → Bool} {f : α → β} {xs ys : List α}
    (h : xs.filter q = ys.filter q) (himp : ∀ x, p (f x) = true → q x = true) :
    (xs.map f).filter p = (ys.map f).filter p := by
  have hfilter : ∀ xs : List α, xs.filter (p ∘ f) = (xs.filter q).filter (p ∘ f) := by
    intro xs
    rw [List.filter_filter]
    refine List.filter_congr ?_
    intro x _
    exact (Bool.and_eq_left_iff_imp.mpr (himp x)).symm
  rw [List.filter_map, List.filter_map, hfilter xs, hfilter ys, h]

/-- Rows without a column of the table. -/
theorem filter_pinned_of_ownFree {nulls : Fields} {rows : List Fields} (h : OwnFree nulls)
    (hrows : ∀ row ∈ rows, HasShape nulls row) : rows.filter (pinned column value) = [] :=
  List.filter_eq_nil_iff.mpr fun row hrow => by
    simp [(h.of_hasShape (hrows row hrow)).pinned_eq_false]

section JoinRows

variable {op : JoinOperator} {columns : List String} {on : Fields → Fields → Bool}
  {nullsL nullsR : Fields} {ls ls' : List Fields} {rs rs' : Fields → List Fields}
  {all all' : List Fields}

/-- The table is on the left side of a join. -/
theorem filter_joinRows_of_left (hL : blank nullsL = nullsL) (hR : blank nullsR = nullsR)
    (hrs : ∀ l, ∀ r ∈ rs l, pinned column value r = false)
    (hall : ∀ r ∈ all, pinned column value r = false)
    (h : ls.filter (pinned column value) = ls'.filter (pinned column value)) :
    (joinRows op columns on nullsL nullsR ls rs all).filter (pinned column value) =
      (joinRows op columns on nullsL nullsR ls' rs all).filter (pinned column value) := by
  have hpad : ∀ l, pinned column value (merge op columns l nullsR) = pinned column value l :=
    fun l => by rw [pinned_merge, pinned_blank hR, Bool.or_false]
  have hpair : ∀ {r}, pinned column value r = false → ∀ l,
      pinned column value (merge op columns l r) = pinned column value l :=
    fun hr l => by rw [pinned_merge, hr, Bool.or_false]
  have hinner : ∀ (rs : Fields → List Fields), (∀ l, ∀ r ∈ rs l, pinned column value r = false) →
      ∀ ls, (Join.inner ls rs on (merge op columns)).filter (pinned column value) =
        Join.inner (ls.filter (pinned column value)) rs on (merge op columns) :=
    fun rs hrs ls => Join.filter_inner_of_left fun l _ r hr => hpair (hrs l r hr) l
  have hleft : ∀ (rs : Fields → List Fields), (∀ l, ∀ r ∈ rs l, pinned column value r = false) →
      ∀ ls, (Join.left ls rs on (merge op columns) fun l => merge op columns l nullsR).filter
          (pinned column value) =
        Join.left (ls.filter (pinned column value)) rs on (merge op columns)
          fun l => merge op columns l nullsR :=
    fun rs hrs ls => Join.filter_left_of_left (fun l _ r hr => hpair (hrs l r hr) l)
      fun l _ => hpad l
  have hunmatched : ∀ ls, (Join.unmatched ls all on (merge op columns nullsL)).filter
      (pinned column value) = [] :=
    fun ls => Join.filter_unmatched_eq_nil fun r hr => by
      rw [hpair (hall r hr), pinned_blank hL]
  cases op with
  | inner => simp only [joinRows, hinner rs hrs, h]
  | leftOuter => simp only [joinRows, hleft rs hrs, h]
  | rightOuter =>
    simp only [joinRows, List.filter_append, hinner _ (fun _ => hall), hunmatched, h]
  | fullOuter =>
    simp only [joinRows, List.filter_append, hleft _ (fun _ => hall), hunmatched, h]

/-- The table is on the right side of a join. -/
theorem filter_joinRows_of_right (hL : blank nullsL = nullsL) (hR : blank nullsR = nullsR)
    (hls : ∀ l ∈ ls, pinned column value l = false)
    (hrs : ∀ l, (rs l).filter (pinned column value) = (rs' l).filter (pinned column value))
    (hall : all.filter (pinned column value) = all'.filter (pinned column value)) :
    (joinRows op columns on nullsL nullsR ls rs all).filter (pinned column value) =
      (joinRows op columns on nullsL nullsR ls rs' all').filter (pinned column value) := by
  have hpair : ∀ l ∈ ls, ∀ r,
      pinned column value (merge op columns l r) = pinned column value r :=
    fun l hl r => by rw [pinned_merge, hls l hl, Bool.false_or]
  have hpad : ∀ l ∈ ls, pinned column value (merge op columns l nullsR) = false :=
    fun l hl => by rw [hpair l hl, pinned_blank hR]
  have hpadL : ∀ r, pinned column value (merge op columns nullsL r) = pinned column value r :=
    fun r => by rw [pinned_merge, pinned_blank hL, Bool.false_or]
  have hinner : ∀ rs : Fields → List Fields,
      (Join.inner ls rs on (merge op columns)).filter (pinned column value) =
        Join.inner ls (fun l => (rs l).filter (pinned column value)) on (merge op columns) :=
    fun rs => Join.filter_inner_of_right fun l hl r _ => hpair l hl r
  have hleft : ∀ rs : Fields → List Fields,
      (Join.left ls rs on (merge op columns) fun l => merge op columns l nullsR).filter
          (pinned column value) =
        Join.inner ls (fun l => (rs l).filter (pinned column value)) on (merge op columns) :=
    fun rs => Join.filter_left_of_right (fun l hl r _ => hpair l hl r) hpad
  have hunmatched : ∀ all : List Fields,
      (Join.unmatched ls all on (merge op columns nullsL)).filter (pinned column value) =
        Join.unmatched ls (all.filter (pinned column value)) on (merge op columns nullsL) :=
    fun all => Join.filter_unmatched fun r _ => hpadL r
  cases op with
  | inner => simp only [joinRows, hinner, hrs]
  | leftOuter => simp only [joinRows, hleft, hrs]
  | rightOuter => simp only [joinRows, List.filter_append, hinner, hunmatched, hall]
  | fullOuter => simp only [joinRows, List.filter_append, hleft, hunmatched, hall]

end JoinRows

/-! ## 2. From the table to the rows of the `FROM` -/

/-- Under the names of its columns, a tuple has the value where the table has it. -/
theorem hasValue_of_pinned {table : StoredTable} {qualifier : Option String}
    {aliases : List Ident} {tuple : Tuple}
    (h : pinned column value
      (bindRow (factorCols qualifier aliases true (I.schema table)) tuple) = true) :
    I.hasValue column value table tuple = true := by
  obtain ⟨field, hfield, hown, hvalue⟩ := pinned_iff.mp h
  obtain ⟨⟨col, i⟩, hcol, rfl⟩ := List.mem_map.mp hfield
  have hcol := List.mk_mem_zipIdx_iff_getElem?.mp hcol
  rw [factorCols, List.getElem?_map, Option.map_eq_some_iff] at hcol
  obtain ⟨⟨name, j⟩, hname, rfl⟩ := hcol
  rw [List.getElem?_zipIdx, Option.map_eq_some_iff] at hname
  obtain ⟨name, hname, hj⟩ := hname
  obtain ⟨rfl, rfl⟩ := Prod.mk.inj hj
  refine List.any_eq_true.mpr ⟨(name, i), List.mk_mem_zipIdx_iff_getElem?.mpr hname, ?_⟩
  simpa using ⟨Option.some.inj hown, hvalue⟩

mutual

/-- **A `FROM` item yields the same rows with the value**, on databases with the same rows with
the value. -/
theorem TableFactor.filter_eval (hc : Covers scope ctes) : ∀ (t : TableFactor)
    {before : Fields}, (t.reads scope).length ≤ 1 →
      (∀ r ∈ t.reads scope, SameRows I column value db db' r) →
        (t.eval I db ctes env before).filter (pinned column value) =
          (t.eval I db' ctes env before).filter (pinned column value)
  | .table n as true args, before, _, _ => by
    have hfree : OwnFree (TableFactor.nulls I (shapes ctes) (.table n as true args)) :=
      ownFree_factorCols
    rw [filter_pinned_of_ownFree hfree (TableFactor.hasShape_eval _),
      filter_pinned_of_ownFree hfree (TableFactor.hasShape_eval _)]
  | .table n as false args, before, hone, hsame => by
    by_cases hd : denotesCte scope n = true
    · obtain ⟨relation, hr⟩ := Option.isSome_iff_exists.mp ((cteOf_isSome hc n).trans hd)
      simp only [TableFactor.eval, Bool.false_eq_true, if_false, hr]
    · have hnone : cteOf ctes n = none := by
        rw [← Option.not_isSome_iff_eq_none, cteOf_isSome hc n]
        exact hd
      have hmem : Reference.factor n ∈ TableFactor.reads scope (.table n as false args) := by
        rw [TableFactor.reads, if_neg Bool.false_ne_true, referTo, if_neg hd]
        exact List.mem_append_left _ List.mem_cons_self
      simp only [TableFactor.eval, Bool.false_eq_true, if_false, hnone,
        Interpretation.tableCols, cteOf_shapes, Option.map_none]
      cases htable : storedTable n with
      | none => rfl
      | some table =>
        exact filter_map_congr (hsame _ hmem table htable) fun tuple => hasValue_of_pinned
  | .derived lateral q as, before, _, _ => by
    have hfree : OwnFree (TableFactor.nulls I (shapes ctes) (.derived lateral q as)) :=
      ownFree_factorCols
    rw [filter_pinned_of_ownFree hfree (TableFactor.hasShape_eval _),
      filter_pinned_of_ownFree hfree (TableFactor.hasShape_eval _)]
  | .function name args as, before, _, _ => by
    have hfree : OwnFree (TableFactor.nulls I (shapes ctes) (.function name args as)) :=
      ownFree_factorCols
    rw [filter_pinned_of_ownFree hfree (TableFactor.hasShape_eval _),
      filter_pinned_of_ownFree hfree (TableFactor.hasShape_eval _)]
  | .nestedJoin t as, before, hone, hsame =>
    filter_map_congr (TableWithJoins.filter_eval hc t hone hsame) fun _ => pinned_of_aliasFields

theorem TableWithJoins.filter_eval (hc : Covers scope ctes) : ∀ (t : TableWithJoins)
    {before : Fields}, (t.reads scope).length ≤ 1 →
      (∀ r ∈ t.reads scope, SameRows I column value db db' r) →
        (t.eval I db ctes env before).filter (pinned column value) =
          (t.eval I db' ctes env before).filter (pinned column value)
  | .mk t js, before, hone, hsame => by
    have hnulls := TableFactor.blank_nulls I (shapes ctes) t
    rw [TableWithJoins.eval, TableWithJoins.eval]
    rcases one_of_append hone with ⟨ht, hone⟩ | ⟨hjs, hone⟩
    · rw [TableFactor.eval_congr db db' t hc ht]
      exact filter_evalJoins_of_right hc js hone
        (fun r hr => hsame r (List.mem_append_right _ hr)) hnulls
        (TableFactor.ownFree_nulls hc t ht) (TableFactor.hasShape_eval t)
    · rw [evalJoins_congr db db' js hc hjs]
      exact filter_evalJoins_of_left hc js hjs hnulls
        (TableFactor.filter_eval hc t hone fun r hr => hsame r (List.mem_append_left _ hr))

/-- The table is to the left of these joins. -/
theorem filter_evalJoins_of_left (hc : Covers scope ctes) : ∀ (js : List Join)
    {before nulls : Fields} {ls ls' : List Fields}, readsJoins scope js = [] →
      blank nulls = nulls →
      ls.filter (pinned column value) = ls'.filter (pinned column value) →
        (evalJoins I db' js ctes env before ls nulls).filter (pinned column value) =
          (evalJoins I db' js ctes env before ls' nulls).filter (pinned column value)
  | [], _, _, _, _, _, _, h => h
  | .mk t op natural on using' :: js, before, nulls, ls, ls', hjs, hnulls, h => by
    obtain ⟨hreads, hjs⟩ := List.append_eq_nil_iff.mp hjs
    obtain ⟨ht, -⟩ := List.append_eq_nil_iff.mp hreads
    have hblank := TableFactor.blank_nulls I (shapes ctes) t
    have hfree : ∀ {before}, ∀ r ∈ t.eval I db' ctes env before,
        pinned column value r = false := fun r hr =>
      ((TableFactor.ownFree_nulls hc t ht).of_hasShape
        (TableFactor.hasShape_eval t r hr)).pinned_eq_false
    rw [evalJoins, evalJoins]
    refine filter_evalJoins_of_left hc js hjs (by rw [blank_merge, hnulls, hblank]) ?_
    exact filter_joinRows_of_left hnulls hblank (fun _ => hfree) hfree h

/-- The table is to the right of the rows joined so far. -/
theorem filter_evalJoins_of_right (hc : Covers scope ctes) : ∀ (js : List Join)
    {before nulls : Fields} {ls : List Fields}, (readsJoins scope js).length ≤ 1 →
      (∀ r ∈ readsJoins scope js, SameRows I column value db db' r) →
      blank nulls = nulls → OwnFree nulls → (∀ l ∈ ls, HasShape nulls l) →
        (evalJoins I db js ctes env before ls nulls).filter (pinned column value) =
          (evalJoins I db' js ctes env before ls nulls).filter (pinned column value)
  | [], _, _, _, _, _, _, _, _ => rfl
  | .mk t op natural on using' :: js, before, nulls, ls, hone, hsame, hnulls, hfree, hls => by
    have hblank := TableFactor.blank_nulls I (shapes ctes) t
    have hmerge : ∀ columns, blank (merge op columns nulls (t.nulls I (shapes ctes))) =
        merge op columns nulls (t.nulls I (shapes ctes)) := fun columns => by
      rw [blank_merge, hnulls, hblank]
    rw [evalJoins, evalJoins]
    generalize joinColumns natural using' nulls (t.nulls I (shapes ctes)) = columns
    rcases one_of_append hone with ⟨hhead, hone⟩ | ⟨hjs, hone⟩
    · -- the joins further on
      obtain ⟨ht, hon⟩ := List.append_eq_nil_iff.mp hhead
      rw [TableFactor.eval_congr db db' t hc ht,
        evalExprs_congr db db' on hc hon]
      exact filter_evalJoins_of_right hc js hone
        (fun r hr => hsame r (List.mem_append_right _ hr)) (hmerge _)
        (hfree.merge (TableFactor.ownFree_nulls hc t ht) op _)
        (hasShape_joinRows hnulls hblank hls (fun _ => TableFactor.hasShape_eval t)
          (TableFactor.hasShape_eval t))
    · rw [evalJoins_congr db db' js hc hjs]
      refine filter_evalJoins_of_left hc js hjs (hmerge _) ?_
      have hsame : ∀ r ∈ t.reads scope ++ readsExprs scope on,
          SameRows I column value db db' r := fun r hr => hsame r (List.mem_append_left _ hr)
      rcases one_of_append hone with ⟨ht, -⟩ | ⟨hon, hone⟩
      · -- a reference in the `ON`: no row has a column of the table
        have hrows : ∀ db, ∀ row ∈ joinRows op columns
            (partners columns (evalExprs I db on ctes) env) nulls (t.nulls I (shapes ctes)) ls
            (fun l => t.eval I db ctes env (before ++ l)) (t.eval I db ctes env before),
              HasShape (merge op columns nulls (t.nulls I (shapes ctes))) row := fun db =>
          hasShape_joinRows hnulls hblank hls (fun _ => TableFactor.hasShape_eval t)
            (TableFactor.hasShape_eval t)
        have hfree := hfree.merge (TableFactor.ownFree_nulls (I := I) hc t ht) op columns
        rw [filter_pinned_of_ownFree hfree (hrows db), filter_pinned_of_ownFree hfree (hrows db')]
      · rw [evalExprs_congr db db' on hc hon]
        have ht : ∀ before, (t.eval I db ctes env before).filter (pinned column value) =
            (t.eval I db' ctes env before).filter (pinned column value) := fun before =>
          TableFactor.filter_eval hc t hone fun r hr => hsame r (List.mem_append_left _ hr)
        exact filter_joinRows_of_right hnulls hblank
          (fun l hl => (hfree.of_hasShape (hls l hl)).pinned_eq_false) (fun l => ht _) (ht _)

end

/-- **A `FROM` yields the same rows with the value.** -/
theorem filter_evalTables (hc : Covers scope ctes) : ∀ (ts : List TableWithJoins)
    {before : Fields}, (readsTables scope ts).length ≤ 1 →
      (∀ r ∈ readsTables scope ts, SameRows I column value db db' r) →
        (evalTables I db ts ctes env before).filter (pinned column value) =
          (evalTables I db' ts ctes env before).filter (pinned column value)
  | [], _, _, _ => rfl
  | t :: ts, before, hone, hsame => by
    rw [evalTables, evalTables]
    rcases one_of_append hone with ⟨ht, hone⟩ | ⟨hts, hone⟩
    · have hleft : ∀ l ∈ t.eval I db' ctes env before, ∀ r : Fields,
          pinned column value (l ++ r) = pinned column value r := fun l hl r => by
        rw [pinned_append, ((TableWithJoins.ownFree_nulls hc t ht).of_hasShape
          (TableWithJoins.hasShape_eval t l hl)).pinned_eq_false, Bool.false_or]
      have htail : ∀ l, (evalTables I db ts ctes env (before ++ l)).filter (pinned column value) =
          (evalTables I db' ts ctes env (before ++ l)).filter (pinned column value) := fun l =>
        filter_evalTables hc ts hone fun r hr => hsame r (List.mem_append_right _ hr)
      rw [TableWithJoins.eval_congr db db' t hc ht,
        Join.filter_inner_of_right fun l hl r _ => hleft l hl r,
        Join.filter_inner_of_right fun l hl r _ => hleft l hl r]
      simp only [htail]
    · have hright : ∀ l : Fields, ∀ r ∈ evalTables I db' ts ctes env (before ++ l),
          pinned column value (l ++ r) = pinned column value l := fun l r hr => by
        rw [pinned_append, ((ownFree_nullsTables hc ts hts).of_hasShape
          (hasShape_evalTables ts r hr)).pinned_eq_false, Bool.or_false]
      rw [evalTables_congr db db' ts hc hts,
        Join.filter_inner_of_left fun l _ r hr => hright l r hr,
        Join.filter_inner_of_left fun l _ r hr => hright l r hr,
        TableWithJoins.filter_eval hc t hone fun r hr => hsame r (List.mem_append_left _ hr)]

/-! ## 3. From the rows of the `FROM` to the result -/

/-- The columns of the members of a `WITH` are those of their evaluation. -/
theorem shapes_evalCtes : ∀ (cs : List Cte) {ctes : CteEnv},
    shapes (evalCtes I db cs ctes env) = I.cteShapes cs (shapes ctes)
  | [], _ => rfl
  | .mk _ _ :: cs, _ => shapes_evalCtes cs

theorem shapes_recursiveCtes (cs : List Cte) (rows : List (List Tuple)) :
    shapes (I.recursiveCtes cs ctes rows ++ ctes) = I.recursiveShapes cs (shapes ctes) := by
  rw [shapes, List.map_append, Interpretation.recursiveCtes, List.map_map]
  rfl

/-- A `SELECT` whose one reference is in its `FROM`, and whose `WHERE` keeps only rows with the
value. -/
theorem Select.eval_congr_of_pinned (hc : Covers scope ctes) : ∀ s : Select,
    (s.reads scope).length ≤ 1 → (∀ r ∈ s.reads scope, SameRows I column value db db' r) →
    ¬ OwnFree (nullsTables I (shapes ctes) s.from') →
    (∀ row env, HasShape (nullsTables I (shapes ctes) s.from') row →
      evalSelection I db' s.selection ctes (⟨row, []⟩ :: env) = true →
        pinned column value row = true) →
    s.eval I db ctes = s.eval I db' ctes
  | .mk d don ps into f w g h, hone, hsame, hfrom, hkeeps => by
    -- the one reference is in the `FROM`
    have hf : 0 < (readsTables scope f).length :=
      List.length_pos_of_ne_nil fun hnone => hfrom (ownFree_nullsTables hc f hnone)
    simp only [Select.reads, List.length_append] at hone
    have hdon : readsExprs scope don = [] := List.length_eq_zero_iff.mp (by omega)
    have hps : readsItems scope ps = [] := List.length_eq_zero_iff.mp (by omega)
    have hw : readsSelection scope w = [] := List.length_eq_zero_iff.mp (by omega)
    have hg : readsExprs scope g = [] := List.length_eq_zero_iff.mp (by omega)
    have hh : readsExprs scope h = [] := List.length_eq_zero_iff.mp (by omega)
    have hmem : ∀ r ∈ readsTables scope f, r ∈ Select.reads scope (.mk d don ps into f w g h) := by
      intro r hr
      simp only [Select.reads, List.mem_append]
      tauto
    funext env
    have hrows : (evalTables I db f ctes env []).filter (pinned column value) =
        (evalTables I db' f ctes env []).filter (pinned column value) :=
      filter_evalTables hc f (by omega) fun r hr => hsame r (hmem r hr)
    -- what the `WHERE` keeps are rows with the value
    have hkept : ∀ db, (evalTables I db f ctes env []).filter
          (fun row => evalSelection I db' w ctes (⟨row, []⟩ :: env)) =
        ((evalTables I db f ctes env []).filter (pinned column value)).filter
          (fun row => evalSelection I db' w ctes (⟨row, []⟩ :: env)) := by
      intro db
      rw [List.filter_filter]
      refine List.filter_congr ?_
      intro row hrow
      exact (Bool.and_eq_left_iff_imp.mpr
        (hkeeps row env (hasShape_evalTables f row hrow))).symm
    simp only [Select.eval, evalExprs_congr db db' don hc hdon,
      evalItems_congr db db' ps hc hps,
      evalSelection_congr db db' w hc hw,
      evalExprs_congr db db' g hc hg,
      evalExprs_congr db db' h hc hh]
    rw [hkept db, hrows, ← hkept db']

/-- The columns of the `FROM` of a query whose body is a `SELECT`. -/
def Query.fromColumns (I : Interpretation) (query : Query) (select : Select) : Fields :=
  nullsTables I (I.bodyShapes query []) select.from'

/-- **Only the rows with the value matter** to a query that refers to stored tables once, in
the `FROM` of its body, and keeps only rows with the value. -/
theorem Query.run_congr_of_pinned : ∀ {query : Query} {select : Select},
    query.body = .select select → (query.reads []).length ≤ 1 →
    (∀ r ∈ query.reads [], SameRows I column value db db' r) →
    ¬ OwnFree (query.fromColumns I select) →
    (∀ ctes row env, HasShape (query.fromColumns I select) row →
      evalSelection I db' select.selection ctes (⟨row, []⟩ :: env) = true →
        pinned column value row = true) →
    query.run I db = query.run I db'
  | .mk r cs b obs ls lk, select, hbody, hone, hsame, hfrom, hkeeps => by
    obtain rfl : b = .select select := hbody
    have hsub : ∀ ref ∈ select.reads (cteNames cs ++ []),
        ref ∈ Query.reads [] (.mk r cs (.select select) obs ls lk) := by
      intro ref href
      simp only [Query.reads, SetExpr.reads, List.mem_append]
      tauto
    simp only [Query.reads, SetExpr.reads, List.length_append] at hone
    -- the one reference is in the body
    have hbody : ∀ {ctes : CteEnv}, Covers (cteNames cs ++ []) ctes →
        shapes ctes = I.bodyShapes (.mk r cs (.select select) obs ls lk) [] →
        0 < (select.reads (cteNames cs ++ [])).length ∧
          select.eval I db ctes = select.eval I db' ctes := by
      intro ctes hc hshapes
      rw [Query.fromColumns, ← hshapes] at hfrom hkeeps
      constructor
      · refine List.length_pos_of_ne_nil fun hnone => hfrom ?_
        cases select
        simp only [Select.reads, List.append_eq_nil_iff] at hnone
        exact ownFree_nullsTables hc _ hnone.1.1.1.2
      · exact Select.eval_congr_of_pinned hc select (by omega)
          (fun ref href => hsame ref (hsub ref href)) hfrom (hkeeps ctes)
    cases r with
    | false =>
      have hc : Covers (cteNames cs ++ []) (evalCtes I db' cs [] []) :=
        covers_evalCtes cs Covers.nil
      obtain ⟨hpos, hselect⟩ := hbody hc (shapes_evalCtes cs)
      have hcs : readsCtes (cteScope false cs []) cs = [] :=
        List.length_eq_zero_iff.mp (by omega)
      have hobs : readsExprs (cteNames cs ++ []) obs = [] :=
        List.length_eq_zero_iff.mp (by omega)
      have hls : readsExprs (cteNames cs ++ []) ls = [] := List.length_eq_zero_iff.mp (by omega)
      simp only [Query.run, Query.eval, Bool.false_eq_true, if_false, SetExpr.eval, hselect,
        evalCtes_congr db db' [] cs Covers.nil hcs,
        evalExprs_congr db db' obs hc hobs,
        evalExprs_congr db db' ls hc hls]
    | true =>
      have hc : ∀ rows, Covers (cteNames cs ++ []) (I.recursiveCtes cs [] rows ++ []) :=
        fun rows => (covers_recursiveCtes cs [] rows).append Covers.nil
      have hselect := fun rows => hbody (hc rows) (shapes_recursiveCtes cs rows)
      have hpos := (hselect []).1
      have hcs : readsCtes (cteScope true cs []) cs = [] :=
        List.length_eq_zero_iff.mp (by omega)
      have hobs : readsExprs (cteNames cs ++ []) obs = [] :=
        List.length_eq_zero_iff.mp (by omega)
      have hls : readsExprs (cteNames cs ++ []) ls = [] := List.length_eq_zero_iff.mp (by omega)
      have hmembers : ∀ rows, evalMembers I db cs (I.recursiveCtes cs [] rows ++ []) [] =
          evalMembers I db' cs (I.recursiveCtes cs [] rows ++ []) [] := fun rows =>
        evalMembers_congr db db' [] cs (hc rows) (fun _ hn => List.mem_append_left _ hn) hcs
      simp only [Query.run, Query.eval, if_true, SetExpr.eval, (hselect _).2, hmembers,
        evalExprs_congr db db' obs (hc _) hobs,
        evalExprs_congr db db' ls (hc _) hls]

end PgPaw.Sql
