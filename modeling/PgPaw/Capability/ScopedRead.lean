/-
# The scope of a read

`query_json_scoped` on a server that reads its settings.

* `read_runs_as_owner_iff`: the reads that run as the owner, in whatever way the operations fail.
  No role is checked before a read, so that of a token can be the owner's.
* `queryJsonScoped_refines`: with the engine behind that server, the program gives the result
  that the engine gives in the session that reads are modelled with elsewhere.
-/
import PgPaw.Capability.LocalScope

namespace PgPaw.SqlOperations

open Sql.Lexer Sql.Script Program

/-! ## 1. The operations of a read -/

section Reads

variable {principal : Option Principal} {headers : Option String} {sql : String}
  {params : List Json}

/-- **What `query_json_scoped` may ask of the database**, and after what. -/
inductive ReadAllows (principal : Option Principal) (headers : Option String) (sql : String)
    (params : List Json) : Trace DbOp DbReply → DbOp → Prop
  | alone (howner : ownerScope principal headers = true) :
    ReadAllows principal headers sql params [] (.query (wrapJson sql) params)
  | begin (hscoped : ownerScope principal headers = false) :
    ReadAllows principal headers sql params [] .transaction
  | set {before : Trace DbOp DbReply} {setting : Setting}
      (hscoped : ownerScope principal headers = false)
      (hopen : ∃ scope, session before = some scope)
      (hmem : setting ∈ Setting.all (some (scopedRole principal))
        (principal.map Principal.claimsJson) headers) :
    ReadAllows principal headers sql params before setting.query
  | query {before : Trace DbOp DbReply} {scope : LocalScope}
      (hscoped : ownerScope principal headers = false) (hopen : session before = some scope)
      (hfor : scope.IsFor (some (scopedRole principal)) (principal.map Principal.claimsJson)
        headers) :
    ReadAllows principal headers sql params before (.txQuery (wrapJson sql) params)
  | commit {before : Trace DbOp DbReply} {await : Await DbReply} {rows : List DbRow}
      (hscoped : ownerScope principal headers = false) (hreply : await.reply = some (.ok rows)) :
    ReadAllows principal headers sql params
      (before ++ [(.txQuery (wrapJson sql) params, await)]) .commit

/-- The contract of a read. -/
def readContract (principal : Option Principal) (headers : Option String) (sql : String)
    (params : List Json) : Contract DbOp DbReply where
  allows := ReadAllows principal headers sql params
  relies := ServerReads

/-- The query of the read has been answered, last of all. -/
def ReadAnswered (sql : String) (params : List Json) (trace : Trace DbOp DbReply) : Prop :=
  ∃ before await rows, trace = before ++ [(DbOp.txQuery (wrapJson sql) params, await)] ∧
    await.reply = some (.ok rows)

theorem obeys_alone (howner : ownerScope principal headers = true) :
    (readContract principal headers sql params).Obeys (· = [])
      (queryJsonScoped principal headers sql params).run fun _ _ => True := by
  rw [queryJsonScoped, if_pos howner]
  refine Contract.Obeys.fallible_bind (fun _ _ => True) ?_ fun rows => ?_
  · refine Contract.Obeys.perform (fun before hbefore => ?_)
      fun _ _ _ _ _ _ => Contract.goingOn_true _ _
    rw [hbefore]
    exact .alone howner
  · exact Contract.Obeys.fallible_bind (fun _ _ => True)
      (Contract.Obeys.done fun _ _ => Contract.goingOn_true _ _)
      fun _ => Contract.Obeys.done fun _ _ => trivial

/-- The operations before the query of a read that is not the owner's. -/
def readBegin (principal : Option Principal) (headers : Option String) : List DbOp :=
  .transaction :: (Setting.all (some (scopedRole principal))
    (principal.map Principal.claimsJson) headers).map Setting.query

theorem obeys_scoped (hscoped : ownerScope principal headers = false) :
    (readContract principal headers sql params).Obeys (· = [])
      (queryJsonScoped principal headers sql params).run fun _ _ => True := by
  rw [queryJsonScoped, if_neg (Bool.eq_false_iff.mp hscoped)]
  have hbegin : (readContract principal headers sql params).Obeys (· = [])
      (beginScoped (some (scopedRole principal)) (principal.map Principal.claimsJson) headers).run
      (Contract.goingOn (fun _ => (readContract principal headers sql params).RanFrom []
        (readBegin principal headers)) fun (_ : Except CacheError String) _ => True) :=
    obeys_beginScoped (fun _ _ h => h) (.begin hscoped)
      (fun done setting rest hall before _ hopen => ReadAllows.set hscoped hopen (by simp [hall]))
      fun _ _ _ _ _ _ _ => trivial
  refine Contract.Obeys.fallible_bind _ hbegin fun _ => ?_
  refine Contract.Obeys.fallible_bind (fun _ => ReadAnswered sql params) ?_ fun rows => ?_
  · refine Contract.Obeys.perform (fun before hran => ?_) fun before await reply _ hreply _ => ?_
    · exact .query hscoped (session_of_begun (fun _ _ h => h) hran)
        (LocalScope.isFor_assignAll _ _ _)
    · cases reply with
      | ok rows => exact ⟨before, await, rows, rfl, hreply⟩
      | error e => trivial
  refine Contract.Obeys.fallible_bind (fun _ => ReadAnswered sql params)
    (obeys_orError (fun _ _ _ h => h) fun _ _ _ _ => trivial) fun body => ?_
  have hcommit : (readContract principal headers sql params).Obeys (ReadAnswered sql params)
      (Db.perform .commit).run
      (Contract.goingOn (fun _ _ => True) fun (_ : Except CacheError String) _ => True) := by
    refine Contract.Obeys.perform ?_ fun _ _ _ _ _ _ => Contract.goingOn_true _ _
    rintro _ ⟨before, await, rows, rfl, hreply⟩
    exact .commit hscoped hreply
  exact Contract.Obeys.fallible_bind _ hcommit.discard fun _ =>
    Contract.Obeys.done fun _ _ => trivial

/-- **A read keeps to its contract.** -/
theorem obeys_queryJsonScoped : (readContract principal headers sql params).Obeys (· = [])
    (queryJsonScoped principal headers sql params).run fun _ _ => True := by
  cases howner : ownerScope principal headers with
  | true => exact obeys_alone howner
  | false => exact obeys_scoped howner

theorem head_wrapJson (sql : String) : (wrapJson sql).toList.head? = some 's' := by
  have hfront :
      "select coalesce(jsonb_agg(to_jsonb(_t)), '[]'::jsonb)::text as j from (".toList.head? =
        some 's' := by decide +kernel
  unfold wrapJson
  rw [String.append_assoc, String.toList_append, List.head?_append, hfront, Option.some_or]

/-- The one begins with a capital letter, the other does not. -/
theorem setting_text_ne_wrapJson (setting : Setting) (sql : String) :
    setting.text ≠ wrapJson sql := by
  intro h
  have hsetting : setting.text.toList.head? = some 'S' := by
    rw [Setting.text, String.toList_append]
    cases setting <;>
      simp only [Setting.front, String.reduceToList, List.cons_append, List.head?_cons]
  rw [h, head_wrapJson] at hsetting
  exact absurd hsetting (by decide)

/-- **The reads that run as the owner**: those without a principal and headers, and those of a
token whose role is the owner's, or `none`.  Any other runs as the role of its principal, and all
that are not the owner's run under their claims and headers. -/
theorem read_runs_as_owner_iff {owner : String} (howner : owner ≠ DEFAULT_PUBLIC_ROLE)
    {script : List (Await DbReply)} {before after : Trace DbOp DbReply} {op : DbOp}
    {await : Await DbReply}
    (hsplit : ((queryJsonScoped principal headers sql params).run.play script).2 =
      before ++ (op, await) :: after)
    (hreads : ∀ e ∈ before, ServerReads e.1 e.2)
    (hop : op = .query (wrapJson sql) params ∨ op = .txQuery (wrapJson sql) params) :
    (runsAs owner before op = owner ↔ (principal = none ∧ headers = none) ∨
        ∃ p, principal = some p ∧ truncatedName p.role ∈ ["none", owner]) ∧
      (ownerScope principal headers = true ∨ ∃ scope, session before = some scope ∧
        scope.IsFor (some (scopedRole principal)) (principal.map Principal.claimsJson)
          headers) := by
  have hallows := obeys_queryJsonScoped.allows_of_split hsplit hreads
  cases hallows with
  | alone hown =>
    have hnone : principal = none ∧ headers = none := by
      simpa [ownerScope, Option.isNone_iff_eq_none] using hown
    exact ⟨iff_of_true rfl (Or.inl hnone), Or.inl hown⟩
  | begin | commit => simp at hop
  | @set _ setting _ _ _ =>
    rcases hop with hop | hop
    · cases hop
    · exact absurd (DbOp.txQuery.inj hop).1 (setting_text_ne_wrapJson setting sql)
  | @query _ scope hscoped hopen hfor =>
    refine ⟨?_, Or.inr ⟨scope, hopen, hfor⟩⟩
    have hrole : runsAs owner before (.txQuery (wrapJson sql) params) =
        if truncatedName (scopedRole principal) = "none" then owner
        else truncatedName (scopedRole principal) := by
      rw [← hfor.runsAs]
      simp only [runsAs, hopen, Option.elim_some]
    rw [hrole]
    cases principal with
    | none =>
      have hdefault : truncatedName (scopedRole none) = DEFAULT_PUBLIC_ROLE := by decide
      have hheaders : headers ≠ none := by
        simpa [ownerScope, Option.isSome_iff_ne_none] using hscoped
      rw [hdefault, if_neg (by decide)]
      refine iff_of_false howner.symm ?_
      rintro (⟨-, hnone⟩ | ⟨p, hp, -⟩)
      · exact hheaders hnone
      · cases hp
    | some p =>
      have hp : scopedRole (some p) = p.role := rfl
      rw [hp]
      by_cases hnone : truncatedName p.role = "none"
      · simp [hnone]
      · simp [hnone]

end Reads

/-- The operations of a read with a token for the owner, up to its query. -/
def ownerTokenBegin : Trace DbOp DbReply :=
  (DbOp.transaction :: [Setting.timeout, .claims "\x7b\x7d", .headers "\x7b\x7d",
    .role "postgres"].map Setting.query).map fun op => (op, ⟨true, some (.ok [])⟩)

/-- **A token for the owner is read for as the owner.** -/
theorem owner_token_runs_as_owner :
    runsAs "postgres" ownerTokenBegin (.txQuery (wrapJson "SELECT 1") []) = "postgres" := by
  have hreads : ∀ e ∈ ownerTokenBegin, ServerReads e.1 e.2 := by
    simp only [ownerTokenBegin, List.map_cons, List.map_nil, List.forall_mem_cons, ServerReads,
      Setting.query]
    refine ⟨fun _ => trivial, fun _ => ?_, fun _ => ?_, fun _ => ?_, fun _ => ?_, by simp⟩ <;>
      decide +kernel
  have hsplit : ((queryJsonScoped (some ⟨"postgres", "\x7b\x7d"⟩) none "SELECT 1" []).run.play
      (List.replicate 7 ⟨true, some (.ok [])⟩)).2 = ownerTokenBegin ++
        (.txQuery (wrapJson "SELECT 1") [], ⟨true, some (.ok [])⟩) ::
          [(.commit, ⟨true, some (.ok [])⟩)] := by rfl
  exact (read_runs_as_owner_iff (by decide) hsplit hreads (Or.inr rfl)).1.mpr
    (Or.inr ⟨_, rfl, by decide⟩)

/-! ## 2. The session of a read -/

/-- The session that the engine is given for a transaction. -/
def LocalScope.toSession (scope : LocalScope) : Session where
  role := scope.role.getD ""
  claims := scope.settings "request.jwt.claims"
  headers := (scope.settings "request.headers").getD ""

/-- A server with an engine. -/
structure Node (γ : Type) where
  db : Database γ
  transaction : Option LocalScope

namespace Node

variable {γ : Type}

/-- The first column, as rows. -/
def rowsOf (cells : List (Option String)) : List DbRow :=
  cells.map fun cell => [cell.elim .null .string]

/-- The operations of `pglite`, on a server that accepts every setting.  PostgreSQL documents that
`SET LOCAL` lasts to the end of its transaction, that `SET LOCAL ROLE` has what follows run as the
role, and that a statement on its own sees neither.  What a query gives is left to `engine`, which
changes no table. -/
def perform (engine : Engine γ) : DbOp → Node γ → DbReply × Node γ
  | .query text params, node => ((engine.query none text params node.db).map rowsOf, node)
  | .transaction, node => (.ok [], { node with transaction := some .fresh })
  | .txQuery text params, node => match node.transaction with
    | none => (.error (.pglite "" "no transaction"), node)
    | some scope => match Assignment.read text with
      | some assignment => (.ok [], { node with transaction := some (scope.assign assignment) })
      | none =>
        ((engine.query (some (LocalScope.toSession scope)) text params node.db).map rowsOf, node)
  | .commit, node | .rollback, node => (.ok [], { node with transaction := none })

end Node

section Refinement

variable {γ : Type} {engine : Engine γ} {principal : Option Principal} {headers : Option String}
  {sql : String} {params : List Json} {db : Database γ}

/-- A read begins with the word `select`. -/
theorem lex_wrapJson (sql : String) : ∃ rest, Sql.lex (wrapJson sql) =
    (Sql.lexer.output rest).map (Setting.wordLexeme "select" :: ·) := by
  have hrun : Sql.lexer.run Sql.lexer.start "select ".toList =
      (.between, [Setting.wordLexeme "select"]) := by
    decide +kernel
  have hstart : Sql.lexer.state "select ".toList = Sql.lexer.start := congrArg Prod.fst hrun
  have hfront : ("select coalesce(jsonb_agg(to_jsonb(_t)), '[]'::jsonb)::text as j from (").toList =
      "select ".toList ++
        "coalesce(jsonb_agg(to_jsonb(_t)), '[]'::jsonb)::text as j from (".toList := by
    decide +kernel
  refine ⟨"coalesce(jsonb_agg(to_jsonb(_t)), '[]'::jsonb)::text as j from (".toList ++
    (sql ++ ") _t").toList, ?_⟩
  unfold wrapJson Sql.lex
  rw [String.append_assoc, String.toList_append, hfront, List.append_assoc,
    Transducer.output_append_of_restart hstart, hrun]
  rfl

/-- So it is no setting. -/
theorem read_wrapJson (sql : String) : Assignment.read (wrapJson sql) = none := by
  obtain ⟨rest, hlex⟩ := lex_wrapJson sql
  have hword (words : List String) (lexemes : List Lexeme) :
      startsWith ("set" :: words) (Setting.wordLexeme "select" :: lexemes) = false :=
    startsWith_of_ne (by decide) words lexemes
  refine Option.bind_eq_none_iff.mpr fun lexemes hread => ?_
  obtain ⟨tail, rfl⟩ : ∃ tail, lexemes = Setting.wordLexeme "select" :: tail := by
    unfold serverLex at hread
    split at hread
    · cases hread
    · rw [hlex] at hread
      obtain ⟨hsome, -⟩ := Option.filter_eq_some_iff.mp hread
      obtain ⟨tail, -, rfl⟩ := Option.map_eq_some_iff.mp hsome
      exact ⟨tail, rfl⟩
  rw [Assignment.ofLexemes, hword, hword]
  rfl

/-- What a read is modelled to give. -/
theorem queryJsonScoped_eq : PgPaw.queryJsonScoped engine principal headers sql params db =
    (engine.query (if ownerScope principal headers then none
      else some (PgPaw.beginScoped principal headers)) (wrapJson sql) params db).map
        fun rows => rows.head?.join.getD "[]" := by
  unfold PgPaw.queryJsonScoped
  cases hrows : engine.query (if ownerScope principal headers then none
    else some (PgPaw.beginScoped principal headers)) (wrapJson sql) params db <;>
    simp only [hrows] <;> rfl

/-- The session is the one that is meant. -/
theorem toSession_of_isFor {role : String} {claims headers : Option String} {scope : LocalScope}
    (h : scope.IsFor (some role) claims headers) (hrole : nameBytes role.toList ≤ NAME_BYTES) :
    LocalScope.toSession scope = ⟨role, claims, headers.getD "\x7b\x7d"⟩ := by
  rw [LocalScope.toSession, h.role, h.claims, h.headers, Option.map_some, Option.getD_some,
    Option.getD_some, truncatedName_of_le hrole]

/-- The body is in the first cell. -/
theorem getText_rowsOf (cells : List (Option String)) :
    (Node.rowsOf cells).head?.elim (.ok none) (getText · 0) = .ok cells.head?.join := by
  rcases cells with _ | ⟨_ | cell, cells⟩ <;> rfl

/-- An operation whose rows are not looked at. -/
theorem run_discard (op : DbOp) (node : Node γ) :
    (discard (Contract.request op) : Db Unit).run.run (Node.perform engine) node =
      ((Node.perform engine op node).1.map fun _ => (), (Node.perform engine op node).2) := by
  have hbind : (discard (Contract.request op) : Db Unit) =
      Contract.request op >>= fun _ => pure () := rfl
  have hrun : (Contract.request op : Db (List DbRow)).run.run (Node.perform engine) node =
      Node.perform engine op node := rfl
  rw [hbind, Program.run_fallible_bind, hrun]
  cases (Node.perform engine op node).1 <;> rfl

/-- The settings are made. -/
theorem run_settings {settings : List Setting} (h : ∀ setting ∈ settings, setting.refused = false)
    (scope : LocalScope) : (Contract.requestAll (settings.map Setting.query)).run.run
      (Node.perform engine) ⟨db, some scope⟩ = (.ok (), ⟨db, some (scope.assignAll settings)⟩) := by
  induction settings generalizing scope with
  | nil => rfl
  | cons setting settings ih =>
    obtain ⟨hsetting, h⟩ := List.forall_mem_cons.mp h
    have hread : Assignment.read setting.text = some setting.assignment := by
      rw [read_text, hsetting]
      rfl
    have hstep : (discard (Contract.request setting.query) : Db Unit).run.run
        (Node.perform engine) ⟨db, some scope⟩ =
          (.ok (), ⟨db, some (scope.assign setting.assignment)⟩) := by
      have hperform : Node.perform engine setting.query ⟨db, some scope⟩ =
          (.ok [], ⟨db, some (scope.assign setting.assignment)⟩) := by
        simp only [Node.perform, Setting.query, hread]
      rw [run_discard, hperform]
      rfl
    rw [List.map_cons, Contract.requestAll, Program.run_fallible_bind, hstep]
    exact ih h _

/-- **The program of a read does what the read is modelled to do**, when its settings are
accepted and its role fits in a name.  It leaves the tables as they are, and no transaction open
unless it fails. -/
theorem queryJsonScoped_refines (hrole : nameBytes (scopedRole principal).toList ≤ NAME_BYTES)
    (haccepted : ∀ setting ∈ Setting.all (some (scopedRole principal))
      (principal.map Principal.claimsJson) headers, setting.refused = false) :
    ∃ node, (queryJsonScoped principal headers sql params).run.run (Node.perform engine)
        ⟨db, none⟩ = (PgPaw.queryJsonScoped engine principal headers sql params db, node) ∧
        node.db = db ∧
        (node.transaction = none ∨
          ∃ e, PgPaw.queryJsonScoped engine principal headers sql params db = .error e) := by
  rw [queryJsonScoped_eq, queryJsonScoped]
  by_cases howner : ownerScope principal headers = true
  · have hquery : (Db.perform (.query (wrapJson sql) params)).run.run (Node.perform engine)
        ⟨db, none⟩ =
          ((engine.query none (wrapJson sql) params db).map Node.rowsOf, ⟨db, none⟩) := rfl
    refine ⟨⟨db, none⟩, ?_, rfl, Or.inl rfl⟩
    rw [if_pos howner, if_pos howner, Program.run_fallible_bind, hquery]
    cases engine.query none (wrapJson sql) params db with
    | error e => rfl
    | ok cells =>
      simp only [Except.map, getText_rowsOf]
      rfl
  · obtain ⟨scope, hscope, hbegin⟩ : ∃ scope : LocalScope,
        scope.IsFor (some (scopedRole principal)) (principal.map Principal.claimsJson) headers ∧
        (beginScoped (some (scopedRole principal)) (principal.map Principal.claimsJson)
          headers).run.run (Node.perform engine) ⟨db, none⟩ = (.ok (), ⟨db, some scope⟩) := by
      refine ⟨_, LocalScope.isFor_assignAll _ _ _, ?_⟩
      rw [beginScoped_eq, Contract.requestAll, Program.run_fallible_bind, run_discard]
      exact run_settings haccepted _
    have hquery : (Db.perform (.txQuery (wrapJson sql) params)).run.run (Node.perform engine)
        ⟨db, some scope⟩ = ((engine.query (some (PgPaw.beginScoped principal headers))
          (wrapJson sql) params db).map Node.rowsOf, ⟨db, some scope⟩) := by
      have hsession : LocalScope.toSession scope = PgPaw.beginScoped principal headers :=
        toSession_of_isFor hscope hrole
      change Node.perform engine (.txQuery (wrapJson sql) params) ⟨db, some scope⟩ = _
      simp only [Node.perform, read_wrapJson, hsession]
    rw [if_neg howner, if_neg howner, Program.run_fallible_bind, hbegin]
    simp only
    rw [Program.run_fallible_bind, hquery]
    cases engine.query (some (PgPaw.beginScoped principal headers)) (wrapJson sql) params db with
    | error e => exact ⟨_, rfl, rfl, Or.inr ⟨e, rfl⟩⟩
    | ok cells =>
      simp only [Except.map, getText_rowsOf]
      exact ⟨_, rfl, rfl, Or.inl rfl⟩

end Refinement

/-- An engine that answers with the role a statement runs under. -/
def whoAmI : Engine Unit where
  query session _ _ _ := .ok [some (session.elim "postgres" Session.role)]

/-- A read of Alice's, as the server runs it. -/
theorem alice_refines : ∃ node, (queryJsonScoped (some ⟨"alice", "\x7b\x7d"⟩) none
    "SELECT 1" []).run.run (Node.perform whoAmI) ⟨fun _ => (), none⟩ = (.ok "alice", node) ∧
      node.transaction = none := by
  have haccepted : ∀ setting ∈ Setting.all (some "alice") (some "\x7b\x7d") none,
      setting.refused = false := by
    decide
  obtain ⟨node, hrun, -, hclosed⟩ := @queryJsonScoped_refines Unit whoAmI
    (some ⟨"alice", "\x7b\x7d"⟩) none "SELECT 1" [] (fun _ => ()) (by decide) haccepted
  refine ⟨node, hrun, hclosed.resolve_right ?_⟩
  rintro ⟨e, he⟩
  cases he

end PgPaw.SqlOperations
