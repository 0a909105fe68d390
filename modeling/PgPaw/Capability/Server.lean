/-
# `prepare` and what follows it

A read comes in over `POST /query`, live or not, or over the `unb` binding.  `prepare` decides
once whether it is private; the handler then calls `materialize`, `subscribe` or
`execute_private` according to the answer.  The catalog may change at any moment.

`is_private` is cut where it is suspended: at the version of the security catalog, and at the
query for the verdicts.  An embedded primary has no `SecurityCache` and asks for the verdicts
every time; a replica reuses what it knows for the version it has just read.  The version is
the replica's own, and moves whenever the catalog does.
-/
import PgPaw.Capability.Live
import PgPaw.Capability.Security

namespace PgPaw.Server

variable {γ : Type}

/-! ## 1. The state -/

/-- How a read comes in: over HTTP, where no request headers are passed on, or over `unb`. -/
inductive Binding
  | http (live : Bool)
  | unb (headers : Option String)
  deriving DecidableEq, Repr

/-- The headers the handler gives to `prepare`. -/
def Binding.headers : Binding → Option String
  | http _ => none
  | unb headers => headers

/-- What a `prepare` call is asked, after `classify`. -/
structure Ask where
  binding : Binding
  query : CacheableQuery
  principal : Option Principal
  deriving DecidableEq, Repr

/-- How far a `prepare` call is. -/
inductive Prepare
  | classified (ask : Ask)
  /-- The security version is read. -/
  | versioned (version : Nat) (ask : Ask)
  /-- The verdicts of that version are not all known. -/
  | missed (version : Nat) (ask : Ask)
  /-- `classify_security` has returned. -/
  | answered (version : Nat) (ask : Ask) (verdicts : Verdicts)
  | prepared (ask : Ask) (priv : Bool)
  /-- An error, or the handler has gone on. -/
  | closed

/-- What the handler does with a prepared read. -/
inductive Serving
  | materialize (query : CacheableQuery)
  | subscribe (read : PreparedRead)
  | executePrivate

/-- `query` of `binding/http/query.rs`, and `live` of `binding/unb.rs`. -/
def serving (ask : Ask) (priv : Bool) : Serving :=
  match ask.binding, priv with
  | .http true, true => .subscribe ⟨ask.query, ask.principal, none, false⟩
  | .http false, true => .executePrivate
  | .http true, false => .subscribe ⟨ask.query, none, none, false⟩
  | .http false, false => .materialize ask.query
  | .unb headers, _ => .subscribe ⟨ask.query, ask.principal, headers, priv⟩

/-- The process and the catalog of its database. -/
structure State (γ : Type) where
  live : Live.State γ
  catalog : Catalog
  securityVersion : Nat
  /-- The `SecurityCache` of a replica. -/
  securityCache : Option (Nat × Verdicts)
  prepares : Nat → Option Prepare
  /-- The table list each subscription was opened with. -/
  tables : Nat → List String

inductive Action (γ : Type)
  /-- A step of the read core, the hub or the database. -/
  | live (action : Live.Action γ)
  | prepare (id : Nat) (ask : Ask)
  | isPrivate (id : Nat)
  | lookup (id : Nat)
  | classifySecurity (id : Nat)
  | store (id : Nat)
  /-- `prepare` fails otherwise, or its request goes away. -/
  | abandon (id : Nat)
  /-- The handler goes on, under the id its `materialize` or `subscribe` call gets. -/
  | serve (id call : Nat)
  | changeCatalog (catalog : Catalog)

/-- Calls of `materialize` and `subscribe` come from a handler. -/
def fromHandler : Live.Action γ → Bool
  | .subscribe _ _ | .core (.materialize _ _) => true
  | _ => false

namespace State

def setPrepare (s : State γ) (id : Nat) (p : Prepare) : State γ :=
  { s with prepares := Function.update s.prepares id (some p) }

/-- The table lists after a step of the hub: a subscription gets that of its query. -/
def recordTables (s : State γ) : Live.Action γ → Nat → List String
  | .register id => match s.live.requests id with
    | some (read, _) => Function.update s.tables s.live.nextId read.query.tables
    | none => s.tables
  | _ => s.tables

end State

/-! ## 2. The steps -/

/-- The end of `prepare`. -/
def conclude (ask : Ask) (priv : Bool) : Prepare :=
  if priv && ask.principal.isNone && ask.binding.headers.isNone then .closed
  else .prepared ask priv

/-- `cache.0 == version`, and the verdicts of all tables are there. -/
def cached (cache : Nat × Verdicts) (version : Nat) (tables : List String) : Bool :=
  cache.1 == version && tables.all fun table => (cache.2 table).isSome

/-- The second lock of `is_private`. -/
def storeVerdicts (cache : Nat × Verdicts) (version : Nat) (verdicts : Verdicts) : Nat × Verdicts :=
  let kept : Verdicts := if cache.1 = version then cache.2 else fun _ => none
  (version, fun table => (verdicts table).or (kept table))

def step (env : Live.Env γ) (s : State γ) : Action γ → Option (State γ)
  | .live a =>
    if fromHandler a then none
    else (Live.step env s.live a).map fun live => { s with live, tables := s.recordTables a }
  | .prepare id ask => match s.prepares id with
    | none => some (s.setPrepare id (.classified ask))
    | some _ => none
  | .isPrivate id => match s.prepares id with
    | some (.classified ask) => match s.securityCache with
      | none =>
        let verdicts := classifySecurity s.catalog ask.query.tables
        some (s.setPrepare id (conclude ask (mergeVerdicts ask.query.tables verdicts)))
      | some _ => some (s.setPrepare id (.versioned s.securityVersion ask))
    | _ => none
  | .lookup id => match s.prepares id, s.securityCache with
    | some (.versioned version ask), some cache =>
      if cached cache version ask.query.tables then
        some (s.setPrepare id (conclude ask (mergeVerdicts ask.query.tables cache.2)))
      else some (s.setPrepare id (.missed version ask))
    | _, _ => none
  | .classifySecurity id => match s.prepares id with
    | some (.missed version ask) =>
      let verdicts := classifySecurity s.catalog ask.query.tables
      some (s.setPrepare id (.answered version ask verdicts))
    | _ => none
  | .store id => match s.prepares id, s.securityCache with
    | some (.answered version ask verdicts), some cache =>
      some { s.setPrepare id (conclude ask (mergeVerdicts ask.query.tables verdicts)) with
        securityCache := some (storeVerdicts cache version verdicts) }
    | _, _ => none
  | .abandon id => (s.prepares id).map fun _ => s.setPrepare id .closed
  | .serve id call => match s.prepares id with
    | some (.prepared ask priv) => match serving ask priv with
      | .materialize query => (Live.step env s.live (.core (.materialize call query))).map
          fun live => { s.setPrepare id .closed with live }
      | .subscribe read => (Live.step env s.live (.subscribe call read)).map
          fun live => { s.setPrepare id .closed with live }
      | .executePrivate => some (s.setPrepare id .closed)
    | _ => none
  | .changeCatalog catalog =>
    some { s with catalog, securityVersion := s.securityVersion + 1 }

/-- The process starts on any catalog: an embedded primary without a `SecurityCache`, a replica
with an empty one. -/
structure Fresh (pk : List (String × String)) (full : List String) (s : State γ) : Prop where
  live : Live.Fresh pk full s.live
  securityCache : s.securityCache = none ∨ s.securityCache = some (0, fun _ => none)
  prepares : s.prepares = fun _ => none

def system (env : Live.Env γ) (pk : List (String × String)) (full : List String) :
    Transition.System (State γ) (Action γ) where
  init := Fresh pk full
  step := step env

/-- An embedded primary that has just started. -/
def State.start (pk : List (String × String)) (full : List String) (db : Database γ)
    (catalog : Catalog) : State γ where
  live := .start pk full db
  catalog := catalog
  securityVersion := 0
  securityCache := none
  prepares _ := none
  tables _ := []

theorem fresh_start (pk : List (String × String)) (full : List String) (db : Database γ)
    (catalog : Catalog) : Fresh pk full (State.start pk full db catalog) :=
  ⟨Live.fresh_start pk full db, Or.inl rfl, rfl⟩

/-! ## 3. What a step can do -/

/-- The step of the read core or the hub a handler makes, if it makes one. -/
def Serving.action (call : Nat) : Serving → Option (Live.Action γ)
  | materialize query => some (.core (.materialize call query))
  | subscribe read => some (.subscribe call read)
  | executePrivate => none

/-- **The ways a step can go**, one constructor for each branch of the code. -/
inductive Taken (env : Live.Env γ) (s : State γ) : Action γ → State γ → Prop
  | live {a : Live.Action γ} {live : Live.State γ} (hinternal : fromHandler a = false)
      (hlive : Live.step env s.live a = some live) :
      Taken env s (.live a) { s with live, tables := s.recordTables a }
  | prepare {id : Nat} {ask : Ask} (hfree : s.prepares id = none) :
      Taken env s (.prepare id ask) (s.setPrepare id (.classified ask))
  | decide {id : Nat} {ask : Ask} (hprepare : s.prepares id = some (.classified ask))
      (hprimary : s.securityCache = none) :
      Taken env s (.isPrivate id) (s.setPrepare id (conclude ask
        (mergeVerdicts ask.query.tables (classifySecurity s.catalog ask.query.tables))))
  | version {id : Nat} {ask : Ask} {cache : Nat × Verdicts}
      (hprepare : s.prepares id = some (.classified ask)) (hcache : s.securityCache = some cache) :
      Taken env s (.isPrivate id) (s.setPrepare id (.versioned s.securityVersion ask))
  | hit {id version : Nat} {ask : Ask} {cache : Nat × Verdicts}
      (hprepare : s.prepares id = some (.versioned version ask))
      (hcache : s.securityCache = some cache)
      (hhit : cached cache version ask.query.tables = true) :
      Taken env s (.lookup id)
        (s.setPrepare id (conclude ask (mergeVerdicts ask.query.tables cache.2)))
  | miss {id version : Nat} {ask : Ask} (hprepare : s.prepares id = some (.versioned version ask)) :
      Taken env s (.lookup id) (s.setPrepare id (.missed version ask))
  | classifySecurity {id version : Nat} {ask : Ask}
      (hprepare : s.prepares id = some (.missed version ask)) :
      Taken env s (.classifySecurity id) (s.setPrepare id
        (.answered version ask (classifySecurity s.catalog ask.query.tables)))
  | store {id version : Nat} {ask : Ask} {verdicts : Verdicts} {cache : Nat × Verdicts}
      (hprepare : s.prepares id = some (.answered version ask verdicts))
      (hcache : s.securityCache = some cache) :
      Taken env s (.store id)
        { s.setPrepare id (conclude ask (mergeVerdicts ask.query.tables verdicts)) with
          securityCache := some (storeVerdicts cache version verdicts) }
  | abandon {id : Nat} : Taken env s (.abandon id) (s.setPrepare id .closed)
  | serve {id call : Nat} {ask : Ask} {priv : Bool} {a : Live.Action γ} {live : Live.State γ}
      (hprepare : s.prepares id = some (.prepared ask priv))
      (haction : (serving ask priv).action call = some a)
      (hlive : Live.step env s.live a = some live) :
      Taken env s (.serve id call) { s.setPrepare id .closed with live }
  | executePrivate {id call : Nat} {ask : Ask} {priv : Bool}
      (hprepare : s.prepares id = some (.prepared ask priv))
      (haction : (serving ask priv).action call = (none : Option (Live.Action γ))) :
      Taken env s (.serve id call) (s.setPrepare id .closed)
  | changeCatalog {catalog : Catalog} : Taken env s (.changeCatalog catalog)
      { s with catalog, securityVersion := s.securityVersion + 1 }

/-- Every step of the code is one of these. -/
theorem taken_of_step {env : Live.Env γ} {s s' : State γ} {a : Action γ}
    (h : step env s a = some s') : Taken env s a s' := by
  cases a with
  | live a =>
    simp only [step] at h
    split at h
    · exact absurd h nofun
    · rename_i hinternal
      obtain ⟨live, hlive, rfl⟩ := Option.map_eq_some_iff.mp h
      exact .live (by simpa using hinternal) hlive
  | prepare id ask =>
    simp only [step] at h
    split at h
    · rename_i hfree
      obtain rfl := Option.some.inj h
      exact .prepare hfree
    · exact absurd h nofun
  | isPrivate id =>
    simp only [step] at h
    split at h
    · rename_i ask hprepare
      split at h
      · rename_i hprimary
        obtain rfl := Option.some.inj h
        exact .decide hprepare hprimary
      · rename_i cache hcache
        obtain rfl := Option.some.inj h
        exact .version hprepare hcache
    · exact absurd h nofun
  | lookup id =>
    simp only [step] at h
    split at h
    · rename_i version ask cache hprepare hcache
      split at h
      · rename_i hhit
        obtain rfl := Option.some.inj h
        exact .hit hprepare hcache hhit
      · obtain rfl := Option.some.inj h
        exact .miss hprepare
    · exact absurd h nofun
  | classifySecurity id =>
    simp only [step] at h
    split at h
    · rename_i version ask hprepare
      obtain rfl := Option.some.inj h
      exact .classifySecurity hprepare
    · exact absurd h nofun
  | store id =>
    simp only [step] at h
    split at h
    · rename_i version ask verdicts cache hprepare hcache
      obtain rfl := Option.some.inj h
      exact .store hprepare hcache
    · exact absurd h nofun
  | abandon id =>
    obtain ⟨p, -, rfl⟩ := Option.map_eq_some_iff.mp h
    exact .abandon
  | serve id call =>
    simp only [step] at h
    split at h
    · rename_i ask priv hprepare
      split at h
      · rename_i query hserving
        obtain ⟨live, hlive, rfl⟩ := Option.map_eq_some_iff.mp h
        exact .serve hprepare (by rw [hserving]; rfl) hlive
      · rename_i read hserving
        obtain ⟨live, hlive, rfl⟩ := Option.map_eq_some_iff.mp h
        exact .serve hprepare (by rw [hserving]; rfl) hlive
      · rename_i hserving
        obtain rfl := Option.some.inj h
        exact .executePrivate hprepare (by rw [hserving]; rfl)
    · exact absurd h nofun
  | changeCatalog catalog =>
    obtain rfl := Option.some.inj h
    exact .changeCatalog

end PgPaw.Server
