/-
# `capability/read.rs` and `capability/cache.rs`: concurrent snapshots

Any number of `materialize` calls run at once, against a database that commits arrive at in
two phases: a transaction is applied to the tables first and fed to the `VersionIndex` later,
in LSN order.  `materialize` is cut where it can be suspended: it reads the version of its
query, looks its key up in the cache, runs the query on a miss, inserts the body, replies.
Cursor requests read the cache in one step, and the cache may evict any entry at any time.

The state keeps, besides what the process holds, the whole history of the database and the
log of the queries that ran, so that what is served can be compared with what it is served
for.  Nothing the steps do depends on the log.
-/
import Mathlib.Logic.Function.Basic
import PgPaw.Capability.Classify
import PgPaw.Capability.Rows
import PgPaw.Capability.Version
import PgPaw.Lib.History
import PgPaw.Lib.Transition

namespace PgPaw

/-- `CachedResult`. -/
structure CachedResult where
  etag : String
  body : String
  deriving DecidableEq, Repr

namespace Read

/-! ## 1. The state -/

/-- How far a `materialize` call is. -/
inductive Stage
  /-- It has read the version of its query. -/
  | keyed (version : Nat)
  /-- Its key is not in the cache. -/
  | missed (version : Nat)
  /-- The query has run. -/
  | computed (version : Nat) (body : String)
  /-- It has its result. -/
  | finished (result : Except CacheError (Nat × CachedResult))
  /-- It has replied. -/
  | returned (result : Except CacheError (Nat × CachedResult))

/-- The version a call has read and has not run its query under yet. -/
def Stage.awaiting : Stage → Option Nat
  | keyed v | missed v => some v
  | _ => none

/-- A `materialize` call. -/
structure Call where
  query : CacheableQuery
  stage : Stage

/-- The query of a call ran: under which version it was computed, and on which snapshot. -/
structure Execution where
  query : CacheableQuery
  version : Nat
  snapshot : Nat

/-- The key the body of an execution is cached under. -/
def Execution.key (e : Execution) : String := snapshotKey e.query.fingerprint e.version

/-- The process and the database under it. -/
structure State (γ : Type) where
  history : History (Database γ) CommittedTransaction
  /-- The commits applied and not yet advanced. -/
  pending : List Nat
  /-- The LSN of the last transaction advanced. -/
  advancedTo : Nat
  versions : VersionIndex
  cache : String → Option CachedResult
  calls : Nat → Option Call
  /-- The bodies replied, each with the key of the cursor it was replied for. -/
  served : List (String × String)
  executions : List Execution

/-- What can happen next. -/
inductive Action (γ : Type)
  | materialize (id : Nat) (query : CacheableQuery)
  | lookup (id : Nat)
  | execute (id : Nat)
  | insert (id : Nat)
  | reply (id : Nat)
  | cursor (hash version : String)
  | evict (key : String)
  | apply (txn : CommittedTransaction) (writes : Writes γ)
  | advance (commit : Nat)

/-- Whether an action is one of the two phases of a commit. -/
def Action.isCommit {γ : Type} : Action γ → Bool
  | .apply _ _ | .advance _ => true
  | _ => false

variable {γ : Type}

/-- `execute_public`, and the future `materialize` hands to the cache. -/
def run (engine : Engine γ) (q : CacheableQuery) (db : Database γ) : Except CacheError String :=
  queryJsonScoped engine none none q.sql q.params db

namespace State

/-- `version_of` for a query. -/
def version (s : State γ) (q : CacheableQuery) : Nat := s.versions.versionOf q.tables q.eqFilters

def setCall (s : State γ) (id : Nat) (c : Call) : State γ :=
  { s with calls := Function.update s.calls id (some c) }

theorem setCall_calls (s : State γ) (id : Nat) (c : Call) (id' : Nat) :
    (s.setCall id c).calls id' = if id' = id then some c else s.calls id' :=
  Function.update_apply s.calls id (some c) id'

/-- The end LSN of a commit. -/
def endLsn (s : State γ) (m : Nat) : Nat := ((s.history.label m).map (·.endLsn)).getD 0

end State

/-! ## 2. The steps -/

/-- A step of the process or of the database. -/
def step (engine : Engine γ) (s : State γ) : Action γ → Option (State γ)
  | .materialize id q => match s.calls id with
    | none => some (s.setCall id ⟨q, .keyed (s.version q)⟩)
    | some _ => none
  | .lookup id => match s.calls id with
    | some ⟨q, .keyed v⟩ => match s.cache (snapshotKey q.fingerprint v) with
      | some hit => some (s.setCall id ⟨q, .finished (.ok (v, hit))⟩)
      | none => some (s.setCall id ⟨q, .missed v⟩)
    | _ => none
  | .execute id => match s.calls id with
    | some ⟨q, .missed v⟩ => match run engine q s.history.current with
      | .ok body => some { s.setCall id ⟨q, .computed v body⟩ with
          executions := s.executions ++ [⟨q, v, s.history.length⟩] }
      | .error e => some (s.setCall id ⟨q, .finished (.error e)⟩)
    | _ => none
  | .insert id => match s.calls id with
    | some ⟨q, .computed v body⟩ =>
      let key := snapshotKey q.fingerprint v
      some { s.setCall id ⟨q, .finished (.ok (v, ⟨key, body⟩))⟩ with
        cache := Function.update s.cache key (some ⟨key, body⟩) }
    | _ => none
  | .reply id => match s.calls id with
    | some ⟨q, .finished result⟩ => match result with
      | .ok (v, snapshot) => some { s.setCall id ⟨q, .returned (.ok (v, snapshot))⟩ with
          served := s.served ++ [(snapshotKey q.fingerprint v, snapshot.body)] }
      | .error e => some (s.setCall id ⟨q, .returned (.error e)⟩)
    | _ => none
  | .cursor hash version =>
    let key := cacheKey hash version
    some { s with served := s.served ++ (s.cache key).toList.map fun hit => (key, hit.body) }
  | .evict key => some { s with cache := Function.update s.cache key none }
  | .apply txn writes =>
    if s.advancedTo < txn.endLsn ∧ ∀ w ∈ writes, w.1 ∈ txn.touched then
      some { s with
        history := s.history.commit txn (s.history.current.write writes)
        pending := s.pending ++ [s.history.length] }
    else none
  | .advance m =>
    -- LSN order: no pending commit is before this one
    if m ∈ s.pending ∧ ∀ m' ∈ s.pending, s.endLsn m ≤ s.endLsn m' then
      (s.history.label m).map fun txn => { s with
        versions := s.versions.advance txn
        advancedTo := txn.endLsn
        pending := s.pending.filter (· != m) }
    else none

/-- The process starts on any database, with an empty cache and a fresh index. -/
structure Fresh (pk : List (String × String)) (full : List String) (s : State γ) : Prop where
  log : s.history.log = []
  pending : s.pending = []
  advancedTo : s.advancedTo = 0
  versions : s.versions = .new pk full
  cache : s.cache = fun _ => none
  calls : s.calls = fun _ => none
  served : s.served = []
  executions : s.executions = []

/-- The runs of a process: a table's primary key and replica identity are fixed at its start. -/
def system (engine : Engine γ) (pk : List (String × String)) (full : List String) :
    Transition.System (State γ) (Action γ) where
  init := Fresh pk full
  step := step engine

/-- A process that has just started on a database. -/
def State.start (pk : List (String × String)) (full : List String) (db : Database γ) : State γ where
  history := ⟨db, []⟩
  pending := []
  advancedTo := 0
  versions := .new pk full
  cache _ := none
  calls _ := none
  served := []
  executions := []

theorem fresh_start (pk : List (String × String)) (full : List String) (db : Database γ) :
    Fresh pk full (State.start pk full db) :=
  ⟨rfl, rfl, rfl, rfl, rfl, rfl, rfl, rfl⟩

/-! ## 3. What a step can do -/

/-- **The ways a step can go**, one constructor for each branch of the code. -/
inductive Taken (engine : Engine γ) (s : State γ) : Action γ → State γ → Prop
  | materialize {id : Nat} {q : CacheableQuery} (hfree : s.calls id = none) :
      Taken engine s (.materialize id q) (s.setCall id ⟨q, .keyed (s.version q)⟩)
  | hit {id v : Nat} {q : CacheableQuery} {r : CachedResult}
      (hcall : s.calls id = some ⟨q, .keyed v⟩)
      (hcache : s.cache (snapshotKey q.fingerprint v) = some r) :
      Taken engine s (.lookup id) (s.setCall id ⟨q, .finished (.ok (v, r))⟩)
  | miss {id v : Nat} {q : CacheableQuery} (hcall : s.calls id = some ⟨q, .keyed v⟩)
      (hcache : s.cache (snapshotKey q.fingerprint v) = none) :
      Taken engine s (.lookup id) (s.setCall id ⟨q, .missed v⟩)
  | execute {id v : Nat} {q : CacheableQuery} {body : String}
      (hcall : s.calls id = some ⟨q, .missed v⟩)
      (hrun : run engine q s.history.current = .ok body) :
      Taken engine s (.execute id) { s.setCall id ⟨q, .computed v body⟩ with
        executions := s.executions ++ [⟨q, v, s.history.length⟩] }
  | fail {id v : Nat} {q : CacheableQuery} {e : CacheError}
      (hcall : s.calls id = some ⟨q, .missed v⟩)
      (hrun : run engine q s.history.current = .error e) :
      Taken engine s (.execute id) (s.setCall id ⟨q, .finished (.error e)⟩)
  | insert {id v : Nat} {q : CacheableQuery} {body : String}
      (hcall : s.calls id = some ⟨q, .computed v body⟩) :
      Taken engine s (.insert id)
        { s.setCall id ⟨q, .finished (.ok (v, ⟨snapshotKey q.fingerprint v, body⟩))⟩ with
          cache := Function.update s.cache (snapshotKey q.fingerprint v)
            (some ⟨snapshotKey q.fingerprint v, body⟩) }
  | reply {id v : Nat} {q : CacheableQuery} {r : CachedResult}
      (hcall : s.calls id = some ⟨q, .finished (.ok (v, r))⟩) :
      Taken engine s (.reply id) { s.setCall id ⟨q, .returned (.ok (v, r))⟩ with
        served := s.served ++ [(snapshotKey q.fingerprint v, r.body)] }
  | replyError {id : Nat} {q : CacheableQuery} {e : CacheError}
      (hcall : s.calls id = some ⟨q, .finished (.error e)⟩) :
      Taken engine s (.reply id) (s.setCall id ⟨q, .returned (.error e)⟩)
  | cursor {hash version : String} :
      Taken engine s (.cursor hash version) { s with
        served := s.served ++ (s.cache (cacheKey hash version)).toList.map fun hit =>
          (cacheKey hash version, hit.body) }
  | evict {key : String} :
      Taken engine s (.evict key) { s with cache := Function.update s.cache key none }
  | apply {txn : CommittedTransaction} {writes : Writes γ} (hlsn : s.advancedTo < txn.endLsn)
      (hwrites : ∀ w ∈ writes, w.1 ∈ txn.touched) :
      Taken engine s (.apply txn writes) { s with
        history := s.history.commit txn (s.history.current.write writes)
        pending := s.pending ++ [s.history.length] }
  | advance {m : Nat} {txn : CommittedTransaction} (hm : m ∈ s.pending)
      (horder : ∀ m' ∈ s.pending, s.endLsn m ≤ s.endLsn m')
      (hlabel : s.history.label m = some txn) :
      Taken engine s (.advance m) { s with
        versions := s.versions.advance txn
        advancedTo := txn.endLsn
        pending := s.pending.filter (· != m) }

/-- Every step of the code is one of these. -/
theorem taken_of_step {engine : Engine γ} {s s' : State γ} {a : Action γ}
    (h : step engine s a = some s') : Taken engine s a s' := by
  cases a with
  | materialize id q =>
    simp only [step] at h
    split at h
    · rename_i hfree
      obtain rfl := Option.some.inj h
      exact .materialize hfree
    · exact absurd h nofun
  | lookup id =>
    simp only [step] at h
    split at h
    · rename_i q v hcall
      split at h
      · rename_i r hcache
        obtain rfl := Option.some.inj h
        exact .hit hcall hcache
      · rename_i hcache
        obtain rfl := Option.some.inj h
        exact .miss hcall hcache
    · exact absurd h nofun
  | execute id =>
    simp only [step] at h
    split at h
    · rename_i q v hcall
      split at h
      · rename_i body hrun
        obtain rfl := Option.some.inj h
        exact .execute hcall hrun
      · rename_i e hrun
        obtain rfl := Option.some.inj h
        exact .fail hcall hrun
    · exact absurd h nofun
  | insert id =>
    simp only [step] at h
    split at h
    · rename_i q v body hcall
      obtain rfl := Option.some.inj h
      exact .insert hcall
    · exact absurd h nofun
  | reply id =>
    simp only [step] at h
    split at h
    · rename_i q result hcall
      match result, hcall, h with
      | .ok (v, r), hcall, h =>
        obtain rfl := Option.some.inj h
        exact .reply hcall
      | .error e, hcall, h =>
        obtain rfl := Option.some.inj h
        exact .replyError hcall
    · exact absurd h nofun
  | cursor hash version =>
    obtain rfl := Option.some.inj h
    exact .cursor
  | evict key =>
    obtain rfl := Option.some.inj h
    exact .evict
  | apply txn writes =>
    simp only [step] at h
    split at h
    · rename_i hc
      obtain rfl := Option.some.inj h
      exact .apply hc.1 hc.2
    · exact absurd h nofun
  | advance m =>
    simp only [step] at h
    split at h
    · rename_i hc
      obtain ⟨txn, hlabel, rfl⟩ := Option.map_eq_some_iff.mp h
      exact .advance hc.1 hc.2 hlabel
    · exact absurd h nofun

end Read

end PgPaw
