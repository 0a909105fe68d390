/-
# What a connection keeps between requests

`pglite` runs each request on a connection of its pool.  PostgreSQL keeps on a connection, past
the commit, the settings and the role set for the session, the temporary relations, the channels
listened to and the prepared statements; a temporary relation hides a table of its name.
`connection_scoped` rejects the commands that are only about this state.  It does not look at
what a statement creates or calls, so `CREATE TEMPORARY TABLE` and
`SELECT set_config(name, value, false)` pass, and the next request on the connection finds what
they left (`connection_keeps_state`).

What PostgreSQL does with a text is a parameter (`Postgres`).  In a run whose statements leave a
fresh connection as it was (`LeavesFresh`), the outcome of every further request depends on
the shared tables only (`outcomes_from_shared`).
-/
import PgPaw.Capability.Sql
import PgPaw.Lib.Transition

namespace PgPaw.SqlOperations

open Transition

/-! ## 1. The pool -/

/-- What PostgreSQL keeps for a session. -/
structure Connection (γ : Type) where
  settings : String → Option String
  role : Option String
  temporary : String → Option γ
  listens : List String
  prepared : String → Option String

/-- A connection as the pool opens it. -/
def Connection.fresh {γ : Type} : Connection γ :=
  ⟨fun _ => none, none, fun _ => none, [], fun _ => none⟩

/-- What a statement runs in: its connection, what is set for the transaction only, and the
tables that all connections share. -/
structure Scope (γ : Type) where
  connection : Connection γ
  localSettings : String → Option String
  localRole : Option String
  shared : Database γ

/-- A statement by itself, or the first of a transaction. -/
def Scope.on {γ : Type} (connection : Connection γ) (shared : Database γ) : Scope γ :=
  ⟨connection, fun _ => none, none, shared⟩

/-- The relation of a name: the temporary one, if there is one. -/
def Scope.relation {γ : Type} (scope : Scope γ) (name : String) : γ :=
  (scope.connection.temporary name).getD (scope.shared name)

/-- PostgreSQL: the rows of a statement, and what it leaves. -/
structure Postgres (γ : Type) where
  exec : Scope γ → String → List Json → Except CacheError (List DbRow × Scope γ)

/-- The pool, between and during requests. -/
structure Pool (γ : Type) where
  connections : Nat → Connection γ
  shared : Database γ
  /-- The transaction that is open, and the connection it runs on. -/
  transaction : Option (Nat × Scope γ)
  /-- The connections the pool will hand out. -/
  assigned : List Nat

namespace Pool

variable {γ : Type}

/-- With these tables, and nothing on any connection. -/
def start (shared : Database γ) : Pool γ := ⟨fun _ => .fresh, shared, none, []⟩

/-- The connection handed out next. -/
def next (pool : Pool γ) : Nat := pool.assigned.head?.getD 0

/-- What a statement by itself, or a commit, leaves behind. -/
def settle (pool : Pool γ) (n : Nat) (scope : Scope γ) : Pool γ :=
  { pool with
    connections := Function.update pool.connections n scope.connection
    shared := scope.shared
    transaction := none }

/-- The end of a request: a transaction still open is dropped, and rolled back. -/
def close (pool : Pool γ) : Pool γ := { pool with transaction := none }

/-- The operations of `pglite`. -/
def perform (pg : Postgres γ) : DbOp → Pool γ → DbReply × Pool γ
  | .query sql params, pool =>
    let taken := { pool with assigned := pool.assigned.tail }
    match pg.exec (.on (pool.connections pool.next) pool.shared) sql params with
    | .ok (rows, scope) => (.ok rows, taken.settle pool.next scope)
    | .error e => (.error e, taken)
  | .transaction, pool =>
    (.ok [], { pool with
      assigned := pool.assigned.tail
      transaction := some (pool.next, .on (pool.connections pool.next) pool.shared) })
  | .txQuery sql params, pool => match pool.transaction with
    | some (n, scope) => match pg.exec scope sql params with
      | .ok (rows, scope) => (.ok rows, { pool with transaction := some (n, scope) })
      | .error e => (.error e, pool)
    | none => (.error (.pglite "" "no transaction"), pool)
  | .commit, pool => match pool.transaction with
    | some (n, scope) => (.ok [], pool.settle n scope)
    | none => (.error (.pglite "" "no transaction"), pool)
  | .rollback, pool => (.ok [], pool.close)

end Pool

/-! ## 2. Requests -/

/-- A request of `pgpaw.sql`, or the query of a read: of `materialize`, or of a live job. -/
inductive Request
  | sql (text : String) (params : List Json) (principal : Option Principal)
      (headers : Option String)
  | read (text : String) (params : List Json) (principal : Option Principal)
      (headers : Option String)

/-- What comes back. -/
inductive Outcome
  | sql (result : Except CacheError SqlOutcome)
  | read (result : Except CacheError String)

section Requests

variable {γ : Type} (crates : SqlCrates) (self : SqlOperations) (pg : Postgres γ)

def Request.program : Request → Program DbOp DbReply Outcome
  | sql text params principal headers =>
    (execute crates self text params principal headers).run >>= fun result => pure (.sql result)
  | read text params principal headers =>
    (queryJsonScoped principal headers text params).run >>= fun result => pure (.read result)

/-- A request, on the connections that the pool assigns. -/
def Pool.respond (pool : Pool γ) (request : Request) (assigned : List Nat) : Outcome × Pool γ :=
  let (outcome, pool) :=
    (request.program crates self).run (Pool.perform pg) { pool with assigned }
  (outcome, pool.close)

def pooled : System (Pool γ) (Request × List Nat) where
  init pool := ∃ shared, pool = .start shared
  step pool action := some (pool.respond crates self pg action.1 action.2).2

/-- Every request has one outcome in both, whatever connections it gets, and leaves the same
tables. -/
def SameOutcomes (pool pool' : Pool γ) : Prop :=
  ∀ request assigned assigned',
    (pool.respond crates self pg request assigned).1 =
        (pool'.respond crates self pg request assigned').1 ∧
      (pool.respond crates self pg request assigned).2.shared =
        (pool'.respond crates self pg request assigned').2.shared

/-- A statement on a fresh connection, over these tables, leaves it fresh: it sets nothing for
the session, and creates no temporary relation. -/
def LeavesFresh (shared : Database γ) (sql : String) (params : List Json) : Prop :=
  ∀ scope rows scope', scope.connection = .fresh → scope.shared = shared →
    pg.exec scope sql params = .ok (rows, scope') → scope'.connection = .fresh

/-- The statement of an accepted request does so, and the query of a read. -/
def Stateless (pool : Pool γ) (action : Request × List Nat) : Prop := match action.1 with
  | .sql text params _ _ => ∀ validated,
      validateOneStatement crates text MAX_SQL_BYTES = .ok validated →
        LeavesFresh pg pool.shared (statementText validated text) params
  | .read text params _ _ => LeavesFresh pg pool.shared (wrapJson text) params

/-- The statements of the server itself change neither the session nor a table: `SET LOCAL`, and
the question about the role. -/
structure OwnStatements : Prop where
  setLocal : ∀ setting scope rows scope',
    pg.exec scope ("SET LOCAL " ++ setting) [] = .ok (rows, scope') →
      scope'.connection = scope.connection ∧ scope'.shared = scope.shared
  ownerRoles : ∀ params scope rows scope',
    pg.exec scope ownerRolesText params = .ok (rows, scope') →
      scope'.connection = scope.connection ∧ scope'.shared = scope.shared

end Requests

/-! ## 3. Two pools -/

section Pools

variable {γ : Type} {crates : SqlCrates} {self : SqlOperations} {pg : Postgres γ}
  {pool pool' : Pool γ} {shared : Database γ} {kept : Prop}

/-- Nothing is left on any connection. -/
structure Fresh (pool : Pool γ) : Prop where
  connections : ∀ n, pool.connections n = .fresh
  transaction : ∀ n scope, pool.transaction = some (n, scope) → scope.connection = .fresh

/-- And the tables are these. -/
structure Ready (shared : Database γ) (pool : Pool γ) : Prop extends Fresh pool where
  shared_eq : pool.shared = shared
  scope_shared : ∀ n scope, pool.transaction = some (n, scope) → scope.shared = shared

/-- What the pools have open, whichever connections it runs on. -/
def SameScope (pool pool' : Pool γ) : Prop :=
  pool.transaction.map Prod.snd = pool'.transaction.map Prod.snd

/-- Before the statement of a request. -/
structure Alike (shared : Database γ) (pool pool' : Pool γ) : Prop where
  left : Ready shared pool
  right : Ready shared pool'
  scope : SameScope pool pool'

/-- After it. -/
structure After (kept : Prop) (pool pool' : Pool γ) : Prop where
  shared : pool.shared = pool'.shared
  scope : SameScope pool pool'
  fresh : kept → Fresh pool ∧ Fresh pool'

theorem Alike.after (h : Alike shared pool pool') : After kept pool pool' where
  shared := h.left.shared_eq.trans h.right.shared_eq.symm
  scope := h.scope
  fresh _ := ⟨h.left.toFresh, h.right.toFresh⟩

/-- The transactions of two pools with the same open scope. -/
theorem SameScope.cases (h : SameScope pool pool') :
    (pool.transaction = none ∧ pool'.transaction = none) ∨
      ∃ n n' scope, pool.transaction = some (n, scope) ∧ pool'.transaction = some (n', scope) := by
  unfold SameScope at h
  cases ht : pool.transaction with
  | none =>
    rw [ht] at h
    exact Or.inl ⟨rfl, Option.map_eq_none_iff.mp h.symm⟩
  | some p =>
    rw [ht] at h
    obtain ⟨p', hp', he⟩ := Option.map_eq_some_iff.mp h.symm
    exact Or.inr ⟨p.1, p'.1, p.2, rfl, by rw [hp', ← he]⟩

/-- The two pools run the operation alike. -/
abbrev Agrees (pg : Postgres γ) (R : Pool γ → Pool γ → Prop) {α : Type}
    (p : Program DbOp DbReply α) (R' : α → Pool γ → Pool γ → Prop) : Prop :=
  Program.Agree (Pool.perform pg) (Pool.perform pg) R p R'

theorem Fresh.settle {n : Nat} {scope : Scope γ} (h : Fresh pool)
    (hscope : scope.connection = .fresh) : Fresh (pool.settle n scope) where
  connections m := by
    simp only [Pool.settle, Function.update_apply]
    split
    · exact hscope
    · exact h.connections m
  transaction m scope' hm := by cases hm

/-! ### The operations -/

theorem perform_query {text : String} {params : List Json} (h : Ready shared pool) :
    Pool.perform pg (.query text params) pool =
      match pg.exec (.on .fresh shared) text params with
      | .ok (rows, scope) =>
        (.ok rows, { pool with assigned := pool.assigned.tail }.settle pool.next scope)
      | .error e => (.error e, { pool with assigned := pool.assigned.tail }) := by
  rw [← h.shared_eq, ← h.connections pool.next]
  rfl

theorem perform_txQuery {text : String} {params : List Json} {n : Nat} {scope : Scope γ}
    (h : pool.transaction = some (n, scope)) :
    Pool.perform pg (.txQuery text params) pool = match pg.exec scope text params with
      | .ok (rows, scope) => (.ok rows, { pool with transaction := some (n, scope) })
      | .error e => (.error e, pool) := by
  simp only [Pool.perform, h]

theorem perform_txQuery_none {text : String} {params : List Json} (h : pool.transaction = none) :
    Pool.perform pg (.txQuery text params) pool = (.error (.pglite "" "no transaction"), pool) := by
  simp only [Pool.perform, h]

theorem Ready.assigned (h : Ready shared pool) (assigned : List Nat) :
    Ready shared { pool with assigned } :=
  ⟨⟨h.connections, h.transaction⟩, h.shared_eq, h.scope_shared⟩

theorem Ready.open (h : Ready shared pool) {n : Nat} {scope : Scope γ}
    (hfresh : scope.connection = .fresh) (hshared : scope.shared = shared) :
    Ready shared { pool with transaction := some (n, scope) } where
  connections := h.connections
  transaction _ _ he := by
    cases he
    exact hfresh
  shared_eq := h.shared_eq
  scope_shared _ _ he := by
    cases he
    exact hshared

/-- A statement of its own transaction: on fresh connections it sees the same scope. -/
theorem agrees_query {text : String} {params : List Json}
    (hkept : kept → LeavesFresh pg shared text params) :
    Agrees pg (Alike shared) (Program.perform (.query text params)) fun _ => After kept := by
  intro s t h
  simp only [Program.perform, Program.run_call, Program.run_done, perform_query h.left,
    perform_query h.right]
  cases hexec : pg.exec (.on .fresh shared) text params with
  | error e =>
    exact ⟨rfl, Alike.after ⟨h.left.assigned _, h.right.assigned _, h.scope⟩⟩
  | ok r =>
    refine ⟨rfl, rfl, rfl, fun hk => ?_⟩
    have hfresh := hkept hk _ _ _ rfl rfl hexec
    exact ⟨(h.left.assigned _).toFresh.settle hfresh, (h.right.assigned _).toFresh.settle hfresh⟩

/-- The question about the role leaves both as they were. -/
theorem agrees_ownerRoles (hown : OwnStatements pg) (params : List Json) :
    Agrees pg (Alike shared) (Program.perform (.query ownerRolesText params))
      fun _ => Alike shared := by
  intro s t h
  simp only [Program.perform, Program.run_call, Program.run_done, perform_query h.left,
    perform_query h.right]
  cases hexec : pg.exec (.on .fresh shared) ownerRolesText params with
  | error e => exact ⟨rfl, h.left.assigned _, h.right.assigned _, h.scope⟩
  | ok r =>
    obtain ⟨hfresh, hshared⟩ := hown.ownerRoles _ _ _ _ hexec
    refine ⟨rfl, ⟨(h.left.assigned _).toFresh.settle hfresh, hshared, fun _ _ he => ?_⟩,
      ⟨(h.right.assigned _).toFresh.settle hfresh, hshared, fun _ _ he => ?_⟩, rfl⟩
    · cases he
    · cases he

theorem agrees_transaction :
    Agrees pg (Alike shared) (Program.perform .transaction) fun _ => Alike shared := by
  intro s t h
  have hperform : ∀ {p : Pool γ}, Ready shared p → Pool.perform pg .transaction p =
      (.ok [], { p with
        assigned := p.assigned.tail, transaction := some (p.next, .on .fresh shared) }) := by
    intro p hp
    rw [← hp.shared_eq, ← hp.connections p.next]
    rfl
  simp only [Program.perform, Program.run_call, Program.run_done, hperform h.left,
    hperform h.right]
  refine ⟨trivial, ?_, ?_, rfl⟩
  · exact (h.left.assigned s.assigned.tail).open rfl rfl
  · exact (h.right.assigned t.assigned.tail).open rfl rfl

/-- A statement of the open transaction. -/
theorem agrees_txQuery {text : String} {params : List Json}
    (hkept : kept → LeavesFresh pg shared text params) :
    Agrees pg (Alike shared) (Program.perform (.txQuery text params)) fun _ => After kept := by
  intro s t h
  simp only [Program.perform, Program.run_call, Program.run_done]
  rcases h.scope.cases with ⟨hs, ht⟩ | ⟨n, m, scope, hs, ht⟩
  · rw [perform_txQuery_none hs, perform_txQuery_none ht]
    exact ⟨rfl, h.after⟩
  · rw [perform_txQuery hs, perform_txQuery ht]
    cases hexec : pg.exec scope text params with
    | error e => exact ⟨rfl, h.after⟩
    | ok r =>
      refine ⟨rfl, h.left.shared_eq.trans h.right.shared_eq.symm, rfl, fun hk => ?_⟩
      have hfresh := hkept hk _ _ _ (h.left.transaction n scope hs)
        (h.left.scope_shared n scope hs) hexec
      refine ⟨⟨h.left.connections, fun _ _ he => ?_⟩, ⟨h.right.connections, fun _ _ he => ?_⟩⟩
      · cases he
        exact hfresh
      · cases he
        exact hfresh

/-- A `SET LOCAL` of the open transaction. -/
theorem agrees_setLocal (hown : OwnStatements pg) {text setting : String}
    (htext : text = "SET LOCAL " ++ setting) :
    Agrees pg (Alike shared) (Program.perform (.txQuery text [])) fun _ => Alike shared := by
  subst htext
  intro s t h
  simp only [Program.perform, Program.run_call, Program.run_done]
  rcases h.scope.cases with ⟨hs, ht⟩ | ⟨n, m, scope, hs, ht⟩
  · rw [perform_txQuery_none hs, perform_txQuery_none ht]
    exact ⟨rfl, h⟩
  · rw [perform_txQuery hs, perform_txQuery ht]
    cases hexec : pg.exec scope ("SET LOCAL " ++ setting) [] with
    | error e => exact ⟨rfl, h⟩
    | ok r =>
      obtain ⟨hconnection, hshared⟩ := hown.setLocal _ _ _ _ hexec
      have hfresh := hconnection.trans (h.left.transaction n scope hs)
      have hsame := hshared.trans (h.left.scope_shared n scope hs)
      exact ⟨rfl, h.left.open hfresh hsame, h.right.open hfresh hsame, rfl⟩

/-- The end of a transaction. -/
theorem agrees_commit :
    Agrees pg (After kept) (Program.perform .commit) fun _ => After kept := by
  intro s t h
  simp only [Program.perform, Program.run_call, Program.run_done, Pool.perform]
  rcases h.scope.cases with ⟨hs, ht⟩ | ⟨n, m, scope, hs, ht⟩
  · simp only [hs, ht]
    exact ⟨trivial, h⟩
  · simp only [hs, ht]
    refine ⟨trivial, rfl, rfl, fun hk => ?_⟩
    obtain ⟨hleft, hright⟩ := h.fresh hk
    exact ⟨hleft.settle (hleft.transaction n scope hs),
      hright.settle (hright.transaction m scope ht)⟩

theorem Fresh.close (h : Fresh pool) : Fresh pool.close where
  connections := h.connections
  transaction _ _ he := by cases he

theorem agrees_rollback :
    Agrees pg (After kept) (Program.perform .rollback) fun _ => After kept := by
  intro s t h
  refine ⟨rfl, h.shared, rfl, fun hk => ?_⟩
  obtain ⟨hleft, hright⟩ := h.fresh hk
  exact ⟨hleft.close, hright.close⟩

/-! ### The programs -/

/-- A block whose result is not looked at. -/
theorem agrees_discard {R R' : Pool γ → Pool γ → Prop} {α : Type} {block : Db α}
    (h : Agrees pg R block.run fun _ => R') : Agrees pg R (discard block).run fun _ => R' := by
  refine Program.Agree.fallible_bind (M := fun _ => R') (h.mono fun r s t hr => ?_) fun _ => ?_
  · cases r <;> exact hr
  · exact .done fun _ _ h => h

theorem agrees_pure {R : Pool γ → Pool γ → Prop} {α : Type} (a : α) :
    Agrees pg R (pure a : Db α).run fun _ => R :=
  .done fun _ _ h => h

theorem agrees_orError {R : Pool γ → Pool γ → Prop} {α : Type} (result : Except CacheError α) :
    Agrees pg R (Db.orError result).run fun _ => R :=
  .done fun _ _ h => h

/-- Sequencing, where what is related does not depend on the results. -/
theorem agrees_bind {R M R' : Pool γ → Pool γ → Prop} {α β : Type} {p : Db α} {f : α → Db β}
    (hp : Agrees pg R p.run fun _ => M) (hM : ∀ s t, M s t → R' s t)
    (hf : ∀ a, Agrees pg M (f a).run fun _ => R') : Agrees pg R (p >>= f).run fun _ => R' := by
  refine Program.Agree.fallible_bind (M := fun _ => M) (hp.mono fun r s t hr => ?_) hf
  cases r with
  | ok a => exact hr
  | error e => exact hM s t hr

theorem agrees_set (hown : OwnStatements pg) {text setting : String}
    (htext : text = "SET LOCAL " ++ setting) :
    Agrees pg (Alike shared) (discard (Db.perform (.txQuery text []))).run
      fun _ => Alike shared :=
  agrees_discard (agrees_setLocal hown htext)

theorem agrees_beginScoped (hown : OwnStatements pg) (role claims headers : Option String) :
    Agrees pg (Alike shared) (beginScoped role claims headers).run fun _ => Alike shared := by
  have hset (name value : String) :
      "SET LOCAL " ++ name ++ value = "SET LOCAL " ++ (name ++ value) := String.append_assoc
  have hheaders := hset "request.headers = " (sqlLiteral (headers.getD "\x7b\x7d"))
  have htext : "SET LOCAL statement_timeout = '" ++ decimal SQL_DEADLINE_SECS ++ "s'" =
      "SET LOCAL " ++ ("statement_timeout = '" ++ (decimal SQL_DEADLINE_SECS ++ "s'")) :=
    String.append_assoc.trans (hset "statement_timeout = '" _)
  unfold beginScoped
  refine agrees_bind (agrees_discard agrees_transaction) (fun _ _ h => h) ?_
  intro _
  refine agrees_bind (agrees_set hown htext) (fun _ _ h => h) ?_
  intro _
  cases claims with
  | none =>
    refine agrees_bind (agrees_set hown hheaders) (fun _ _ h => h) ?_
    intro _
    cases role with
    | none => exact agrees_pure ()
    | some role => exact agrees_set hown (hset "ROLE " (sqlIdent role))
  | some claims =>
    refine agrees_bind (agrees_set hown (hset "request.jwt.claims = " (sqlLiteral claims)))
      (fun _ _ h => h) fun _ => ?_
    refine agrees_bind (agrees_set hown hheaders) (fun _ _ h => h) ?_
    intro _
    cases role with
    | none => exact agrees_pure ()
    | some role => exact agrees_set hown (hset "ROLE " (sqlIdent role))

theorem agrees_attempt {R R' : Pool γ → Pool γ → Prop} {α : Type} {block : Db α}
    (h : Agrees pg R block.run fun _ => R') : Agrees pg R (Db.attempt block).run fun _ => R' :=
  Program.Agree.bind h fun _ => .done fun _ _ h => h

theorem agrees_adapt {R R' : Pool γ → Pool γ → Prop} {α : Type} {block : Db α}
    {f : CacheError → CacheError} (h : Agrees pg R block.run fun _ => R') :
    Agrees pg R (block.adapt f).run fun _ => R' :=
  Program.Agree.bind h fun _ => .done fun _ _ h => h

theorem agrees_endTransaction (outcome : Except CacheError RowsOutcome) :
    Agrees pg (After kept) (endTransaction outcome).run fun _ => After kept := by
  cases outcome with
  | ok outcome =>
    exact agrees_bind (agrees_discard agrees_commit) (fun _ _ h => h) fun _ => agrees_pure outcome
  | error e =>
    exact agrees_bind (agrees_discard (agrees_attempt agrees_rollback)) (fun _ _ h => h)
      fun _ => agrees_orError (.error e)

theorem agrees_runSqlAs (hown : OwnStatements pg) {role : String} {claims headers : Option String}
    {validated : ValidatedSql} {text : String} {params : List Json} {bound : Nat}
    (hkept : kept → LeavesFresh pg shared (statementText validated text) params) :
    Agrees pg (Alike shared)
      (runSqlAs crates role claims headers validated text params bound).run
      fun _ => After kept := by
  unfold runSqlAs
  refine agrees_bind (agrees_beginScoped hown _ _ _) (fun _ _ h => h.after) ?_
  intro _
  have hstatement : Agrees pg (Alike shared)
      (runStatement crates validated text params bound).run fun _ => After kept :=
    agrees_bind (agrees_txQuery hkept) (fun _ _ h => h) fun rows => agrees_orError _
  exact agrees_bind (agrees_attempt hstatement) (fun _ _ h => h) fun outcome =>
    agrees_endTransaction outcome

theorem agrees_denyOwnerRoles (hown : OwnStatements pg) (role : String) :
    Agrees pg (Alike shared) (denyOwnerRoles role).run fun _ => Alike shared := by
  have hask : Agrees pg (Alike shared) (do
      let rows ← Db.perform (.query ownerRolesText [.string role])
      Db.orError (denyOwnerRow rows) : Db Unit).run fun _ => Alike shared :=
    agrees_bind (agrees_ownerRoles hown _) (fun _ _ h => h) fun rows => agrees_orError _
  unfold denyOwnerRoles
  by_cases hrole : (role == "postgres") = true
  · rw [if_pos hrole]
    exact agrees_orError (.error (.forbidden "public SQL never executes as the engine owner"))
  · rw [if_neg hrole]
    exact hask

/-- A request that is admitted runs the statement that was validated. -/
theorem agrees_acceptRequest (hown : OwnStatements pg) {text : String}
    {principal : Option Principal} {validated : ValidatedSql}
    (hvalid : validateOneStatement crates text MAX_SQL_BYTES = .ok validated) :
    Agrees pg (Alike shared) (acceptRequest crates self text principal).run fun r s t =>
      Alike shared s t ∧ ∀ admitted, r = .ok admitted → admitted.validated = validated := by
  have haccept : acceptRequest crates self text principal =
      denyOwnerRoles ((principal.map Principal.role).getD self.publicRole) >>= fun _ =>
        if (self.readOnly && validated.command != "SELECT") = true then throw (.rejected
          ("this node serves a read replica; only SELECT may execute here — send writes " ++
            "to the primary data node"))
        else pure ⟨validated, (principal.map Principal.role).getD self.publicRole,
          principal.map Principal.claimsJson⟩ := by
    unfold acceptRequest
    rw [hvalid]
    rfl
  rw [haccept]
  refine Program.Agree.fallible_bind (M := fun _ => Alike shared)
    ((agrees_denyOwnerRoles hown _).mono fun r s t h => ?_) fun _ => ?_
  · cases r with
    | ok _ => exact h
    | error e => exact ⟨h, fun _ he => by cases he⟩
  · split
    · exact .done fun s t h => ⟨h, fun _ he => by cases he⟩
    · refine .done fun s t h => ⟨h, fun _ he => ?_⟩
      cases he
      rfl

theorem agrees_execute (hown : OwnStatements pg) {text : String} {params : List Json}
    {principal : Option Principal} {headers : Option String}
    (hkept : kept → ∀ validated, validateOneStatement crates text MAX_SQL_BYTES = .ok validated →
      LeavesFresh pg shared (statementText validated text) params) :
    Agrees pg (Alike shared) (execute crates self text params principal headers).run
      fun _ => After kept := by
  cases hvalid : validateOneStatement crates text MAX_SQL_BYTES with
  | error e =>
    have hexecute : execute crates self text params principal headers = throw e := by
      unfold execute acceptRequest
      rw [hvalid]
      rfl
    rw [hexecute]
    exact .done fun s t h => h.after
  | ok validated =>
    unfold execute
    refine Program.Agree.fallible_bind
      (M := fun admitted s t => Alike shared s t ∧ admitted.validated = validated)
      ((agrees_acceptRequest hown hvalid).mono fun r s t h => ?_) fun admitted => ?_
    · cases r with
      | ok admitted => exact ⟨h.1, h.2 admitted rfl⟩
      | error e => exact h.1.after
    · rintro s t ⟨halike, rfl⟩
      have hrun : Agrees pg (Alike shared) (runSqlAs crates admitted.role admitted.claims headers
          admitted.validated text params MAX_RESULT_BYTES).run fun _ => After kept :=
        agrees_runSqlAs hown fun hk => hkept hk _ hvalid
      exact agrees_bind (agrees_adapt hrun) (fun _ _ h => h) (fun outcome => agrees_pure _) s t
        halike

theorem agrees_queryJsonScoped (hown : OwnStatements pg) {principal : Option Principal}
    {headers : Option String} {text : String} {params : List Json}
    (hkept : kept → LeavesFresh pg shared (wrapJson text) params) :
    Agrees pg (Alike shared) (queryJsonScoped principal headers text params).run
      fun _ => After kept := by
  unfold queryJsonScoped
  split
  · refine agrees_bind (agrees_query hkept) (fun _ _ h => h) ?_
    intro rows
    exact agrees_bind (agrees_orError _) (fun _ _ h => h) fun body => agrees_pure _
  · refine agrees_bind (agrees_beginScoped hown _ _ _) (fun _ _ h => h.after) ?_
    intro _
    refine agrees_bind (agrees_txQuery hkept) (fun _ _ h => h) ?_
    intro rows
    refine agrees_bind (agrees_orError _) (fun _ _ h => h) ?_
    intro body
    exact agrees_bind (agrees_discard agrees_commit) (fun _ _ h => h) fun _ => agrees_pure _

variable (crates self) in
/-- The request on two pools with nothing left on their connections. -/
theorem agrees_request (hown : OwnStatements pg) (request : Request) (assigned : List Nat) :
    Agrees pg (Alike pool.shared) (request.program crates self)
      fun _ => After (Stateless crates pg pool (request, assigned)) := by
  cases request with
  | sql text params principal headers =>
    exact Program.Agree.bind (agrees_execute hown fun hk => hk) fun _ => .done fun _ _ h => h
  | read text params principal headers =>
    exact Program.Agree.bind (agrees_queryJsonScoped hown fun hk => hk) fun _ =>
      .done fun _ _ h => h

/-- Between two requests. -/
structure Idle (pool : Pool γ) : Prop extends Fresh pool where
  noTransaction : pool.transaction = none

theorem Idle.start (shared : Database γ) : Idle (.start shared : Pool γ) :=
  ⟨⟨fun _ => rfl, fun _ _ h => by cases h⟩, rfl⟩

theorem Idle.alike (h : Idle pool) (h' : Idle pool') (hshared : pool.shared = pool'.shared)
    (assigned assigned' : List Nat) :
    Alike pool.shared { pool with assigned } { pool' with assigned := assigned' } where
  left := ⟨⟨h.connections, h.transaction⟩, rfl,
    fun _ _ he => by cases h.noTransaction.symm.trans he⟩
  right := ⟨⟨h'.connections, h'.transaction⟩, hshared.symm,
    fun _ _ he => by cases h'.noTransaction.symm.trans he⟩
  scope := by
    show pool.transaction.map Prod.snd = pool'.transaction.map Prod.snd
    rw [h.noTransaction, h'.noTransaction]

/-- Idle pools with the same tables respond alike. -/
theorem sameOutcomes_of_idle (hown : OwnStatements pg) (h : Idle pool) (h' : Idle pool')
    (hshared : pool.shared = pool'.shared) : SameOutcomes crates self pg pool pool' := by
  intro request assigned assigned'
  obtain ⟨houtcome, hafter⟩ := agrees_request crates self hown request assigned _ _
    (h.alike h' hshared assigned assigned')
  exact ⟨houtcome, hafter.shared⟩

/-- A request whose statement leaves a fresh connection fresh leaves the pool idle. -/
theorem idle_respond (hown : OwnStatements pg) (h : Idle pool) {action : Request × List Nat}
    (hstateless : Stateless crates pg pool action) :
    Idle (pool.respond crates self pg action.1 action.2).2 := by
  have hafter := (agrees_request crates self hown action.1 action.2 _ _
    (h.alike h rfl action.2 action.2)).2
  exact ⟨(hafter.fresh hstateless).1.close, rfl⟩

/-- **No connection state survives in these runs.**  When every accepted statement so far leaves
a fresh connection fresh, the outcomes of all further requests depend on the earlier ones
through the shared tables only. -/
theorem outcomes_from_shared (hown : OwnStatements pg)
    (h : (pooled crates self pg).Reachable (Stateless crates pg) pool)
    (h' : (pooled crates self pg).Reachable (Stateless crates pg) pool')
    (hshared : pool.shared = pool'.shared) : SameOutcomes crates self pg pool pool' := by
  have hidle : ∀ w, (pooled crates self pg).Reachable (Stateless crates pg) w → Idle w := by
    intro w hw
    refine Reachable.induction ?_ ?_ hw
    · rintro _ ⟨shared, rfl⟩
      exact Idle.start shared
    · intro w action w' _ ih hok hstep
      cases hstep
      exact idle_respond hown ih hok
  exact sameOutcomes_of_idle hown (hidle _ h) (hidle _ h') hshared

end Pools

/-! ## 4. A statement that stays on its connection -/

def temporarySql : String := "CREATE TEMPORARY TABLE users (id int)"

def usersSql : String := "SELECT * FROM users"

def insertTwo : String := "INSERT INTO users VALUES (2)"

def insertThree : String := "INSERT INTO users VALUES (3)"

def insertBoth : String := "INSERT INTO users VALUES (2), (3)"

/-- A parser of these texts. -/
def usersCrates : SqlCrates where
  parse sql :=
    if sql = temporarySql then .ok [.createTable]
    else if sql = insertTwo ∨ sql = insertThree ∨ sql = insertBoth then .ok [.insert none]
    else if sql = usersSql then .ok [.query (.mk false [] (.select (.mk false [] [.wildcard] none
      [.mk (.table [⟨"users", none⟩] none false []) []] none [] [])) [] [] [])]
    else .error "sql parser error"
  toUppercase text := String.ofList (text.toList.map Char.toUpper)
  fromStr _ := none

/-- The rows that an `INSERT` adds, and how many these are. -/
def inserted (sql : String) : Option (String × Int) :=
  if sql = countWrapped insertTwo then some (", 2", 1)
  else if sql = countWrapped insertThree then some (", 3", 1)
  else if sql = countWrapped insertBoth then some (", 2, 3", 2)
  else none

/-- An `INSERT` goes to the temporary relation of the name, if there is one. -/
def Scope.append (scope : Scope String) (rows : String) : Scope String :=
  match scope.connection.temporary "users" with
  | some old => { scope with connection := { scope.connection with
      temporary := Function.update scope.connection.temporary "users" (some (old ++ rows)) } }
  | none =>
    { scope with shared := Function.update scope.shared "users" (scope.shared "users" ++ rows) }

/-- `pgpaw_public` is no superuser, does not bypass row security, and does not own the database. -/
def publicRoleRow : DbRow := List.replicate 3 (.number (.integer 0))

/-- What PostgreSQL does with them; the contents of a table are its rows as text. -/
def usersPostgres : Postgres String where
  exec scope sql _ :=
    if sql = temporarySql then
      .ok ([], { scope with connection := { scope.connection with
        temporary := Function.update scope.connection.temporary "users" (some "") } })
    else if sql = wrapJson usersSql then
      .ok ([[.string ("[" ++ scope.relation "users" ++ "]")]], scope)
    else match inserted sql with
      | some (rows, count) => .ok ([[.number (.integer count)]], scope.append rows)
      | none => .ok (if sql = ownerRolesText then [publicRoleRow] else [], scope)

def users : Database String := fun _ => "1"

/-- A node for `pgpaw_public` that is no replica. -/
def node : SqlOperations := ⟨DEFAULT_PUBLIC_ROLE, false⟩

def createTemporary : Request := .sql temporarySql [] none none

def readUsers : Request := .read usersSql [] none none

/-- The first character of a text is that of its first part. -/
theorem head_append {s : String} {c : Char} (h : s.toList.head? = some c) (t : String) :
    (s ++ t).toList.head? = some c := by
  rw [String.toList_append, List.head?_append, h]
  rfl

/-- The texts that `run_sql_as` writes around a statement start alike. -/
theorem head_countWrapped (text : String) : (countWrapped text).toList.head? = some 'W' := by
  unfold countWrapped
  iterate 3 refine head_append ?_ _
  decide

theorem head_returningWrapped (text : String) :
    (returningWrapped text).toList.head? = some 'W' := by
  unfold returningWrapped
  iterate 4 refine head_append ?_ _
  decide

theorem head_selectWrapped (text : String) : (selectWrapped text).toList.head? = some 'W' := by
  unfold selectWrapped
  iterate 10 refine head_append ?_ _
  decide

theorem head_of_inserted {text : String} {rows : String × Int} (h : inserted text = some rows) :
    text.toList.head? = some 'W' := by
  unfold inserted at h
  split at h
  · rename_i he
    exact he ▸ head_countWrapped _
  · split at h
    · rename_i he
      exact he ▸ head_countWrapped _
    · split at h
      · rename_i he
        exact he ▸ head_countWrapped _
      · cases h

/-- Neither a `CREATE` nor what is written around a statement: nothing changes. -/
theorem usersPostgres_keeps {text : String} (htext : text.toList.head? = some 'S')
    {params : List Json} {scope scope' : Scope String} {rows : List DbRow}
    (h : usersPostgres.exec scope text params = .ok (rows, scope')) : scope' = scope := by
  have hcreate : text ≠ temporarySql := by
    rintro rfl
    cases htext
  have hinsert : inserted text = none := by
    rw [Option.eq_none_iff_forall_ne_some]
    intro rows hrows
    cases htext.symm.trans (head_of_inserted hrows)
  simp only [usersPostgres, if_neg hcreate, hinsert] at h
  split at h
  · cases h
    rfl
  · cases h
    rfl

theorem usersPostgres_own : OwnStatements usersPostgres where
  setLocal setting scope rows scope' h := by
    rw [usersPostgres_keeps (by simp) h]
    exact ⟨rfl, rfl⟩
  ownerRoles params scope rows scope' h := by
    have hhead : ownerRolesText.toList.head? = some 'S' := by
      unfold ownerRolesText
      iterate 2 refine head_append ?_ _
      decide
    rw [usersPostgres_keeps hhead h]
    exact ⟨rfl, rfl⟩

/-- Only `CREATE` leaves something on a fresh connection. -/
theorem usersPostgres_leavesFresh {text : String} (htext : text ≠ temporarySql)
    (shared : Database String) (params : List Json) :
    LeavesFresh usersPostgres shared text params := by
  intro scope rows scope' hfresh _ hexec
  simp only [usersPostgres, if_neg htext] at hexec
  split at hexec
  · cases hexec
    exact hfresh
  · split at hexec
    · cases hexec
      have hnone : scope.connection.temporary "users" = none := by
        rw [hfresh]
        rfl
      simp only [Scope.append, hnone]
      exact hfresh
    · cases hexec
      exact hfresh

theorem statementText_ne_temporary {text : String} (htext : text.toList.head? = some 'I')
    (validated : ValidatedSql) : statementText validated text ≠ temporarySql := by
  have hne {c : Char} {s : String} (hs : s.toList.head? = some c) (hc : c ≠ 'C') :
      s ≠ temporarySql := by
    rintro rfl
    exact hc (Option.some.inj hs).symm
  unfold statementText
  split
  · exact hne (head_selectWrapped text) (by decide)
  · split
    · exact hne (head_returningWrapped text) (by decide)
    · split
      · exact hne (head_countWrapped text) (by decide)
      · exact hne htext (by decide)

def insert (text : String) : Request := .sql text [] none none

/-- An `INSERT` that `pgpaw.sql` runs. -/
def inserting (text : String) (assigned : List Nat) (pool : Pool String) : Pool String :=
  (pool.respond usersCrates node usersPostgres (insert text) assigned).2

theorem reachable_inserting {text : String} (htext : text.toList.head? = some 'I')
    (assigned : List Nat) {pool : Pool String}
    (h : (pooled usersCrates node usersPostgres).Reachable (Stateless usersCrates usersPostgres)
      pool) :
    (pooled usersCrates node usersPostgres).Reachable (Stateless usersCrates usersPostgres)
      (inserting text assigned pool) := by
  refine Reachable.next (a := (insert text, assigned)) h ?_ rfl
  intro validated _
  exact usersPostgres_leavesFresh (statementText_ne_temporary htext validated) _ _

/-- Two rows are inserted by two requests, on two connections. -/
def afterTwo : Pool String :=
  inserting insertThree [1, 0] (inserting insertTwo [0, 1] (.start users))

/-- Or by one, on a third. -/
def afterBoth : Pool String := inserting insertBoth [2, 2] (.start users)

set_option maxRecDepth 2000 in
/-- Whoever comes next finds the rows, and cannot tell. -/
theorem outcomes_after_inserts :
    afterTwo.shared "users" = "1, 2, 3" ∧
      SameOutcomes usersCrates node usersPostgres afterTwo afterBoth := by
  have hstart : (pooled usersCrates node usersPostgres).Reachable
      (Stateless usersCrates usersPostgres) (Pool.start users) := Reachable.start ⟨users, rfl⟩
  have htwo : afterTwo.shared =
      Function.update (Function.update users "users" "1, 2") "users" "1, 2, 3" := by rfl
  have hboth : afterBoth.shared = Function.update users "users" "1, 2, 3" := by rfl
  refine ⟨?_, ?_⟩
  · rw [htwo, Function.update_self]
  · refine outcomes_from_shared usersPostgres_own ?_ ?_ ?_
    · exact reachable_inserting (by rfl) _ (reachable_inserting (by rfl) _ hstart)
    · exact reachable_inserting (by rfl) _ hstart
    · rw [htwo, hboth, Function.update_idem]

set_option maxRecDepth 2000 in
/-- **A temporary table outlives its request.**  The pools have the same tables, and the request
ran on connection 0 of the first; a read that gets this connection finds the temporary table. -/
theorem connection_keeps_state :
    ¬ ∀ pool pool', (pooled usersCrates node usersPostgres).Reachable free pool →
      (pooled usersCrates node usersPostgres).Reachable free pool' → pool.shared = pool'.shared →
        SameOutcomes usersCrates node usersPostgres pool pool' := by
  intro h
  have hstart : (pooled usersCrates node usersPostgres).Reachable free (Pool.start users) :=
    Reachable.start ⟨users, rfl⟩
  have hnext : (pooled usersCrates node usersPostgres).Reachable free
      ((Pool.start users).respond usersCrates node usersPostgres createTemporary [0, 0]).2 :=
    Reachable.next (a := (createTemporary, [0, 0])) hstart trivial rfl
  obtain ⟨houtcome, -⟩ := h _ _ hnext hstart rfl readUsers [0] [0]
  have hleft : (((Pool.start users).respond usersCrates node usersPostgres createTemporary
      [0, 0]).2.respond usersCrates node usersPostgres readUsers [0]).1 = .read (.ok "[]") := by
    rfl
  have hright : ((Pool.start users).respond usersCrates node usersPostgres readUsers [0]).1 =
      .read (.ok "[1]") := by
    rfl
  rw [hleft, hright] at houtcome
  simp at houtcome

end PgPaw.SqlOperations
