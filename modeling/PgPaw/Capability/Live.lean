/-
# `capability/live.rs`: the hub and its subscribers

The bridge thread advances the index by one committed transaction and then sends it to a
broadcast channel; the hub's worker takes transactions from the channel one after the other.
`on_commit` selects the subscriptions whose tables the transaction touched, and for each of
them, in the order of a hash table, runs the query again and sends what changed.  If the
channel overflows, the worker drops every subscription with a reset instead.

Subscribing runs beside all this.  `ReadOperations::subscribe` first obtains a snapshot body,
from a `materialize` call or by running the query under the subscriber's role, and registers
the subscription afterwards.

A step is what happens between two points where the code can be suspended, or under one lock.
Sends never suspend: the channel of a subscriber is unbounded.
-/
import PgPaw.Capability.Diff
import PgPaw.Capability.Read

namespace PgPaw

open MapDiff

/-- `PreparedRead`. -/
structure PreparedRead where
  query : CacheableQuery
  principal : Option Principal
  headers : Option String
  priv : Bool
  deriving DecidableEq, Repr

/-- What a read returns to the one who asks it. -/
def PreparedRead.result {γ : Type} (engine : Engine γ) (read : PreparedRead) (db : Database γ) :
    Except CacheError String :=
  queryJsonScoped engine read.principal read.headers read.query.sql read.query.params db

namespace Live

/-! ## 1. The state -/

/-- `Subscription`. -/
structure Subscription where
  tables : List String
  pk : Option String
  sql : String
  last : RowMap
  principal : Option Principal
  headers : Option String
  params : List Json

/-- `LiveJob`. -/
structure LiveJob where
  id : Nat
  sql : String
  pk : Option String
  last : RowMap
  principal : Option Principal
  headers : Option String
  params : List Json

/-- What is sent to a subscriber. -/
inductive Event
  | snapshotRows (rows : Json) (version : Nat)
  | snapshotUrl (hash : String) (version : Nat)
  | delta (delta : Delta) (txid : Nat)
  | upToDate (txid : Nat)
  | reset
  deriving DecidableEq

/-- What the worker of the hub is doing. -/
inductive Worker
  | idle
  /-- `on_commit` of a commit: the jobs left, and the body of the first once it is there. -/
  | busy (commit : Nat) (jobs : List LiveJob) (fresh : Option (Except CacheError String))

/-- How far a `subscribe` call is. -/
inductive Request
  /-- Without a principal and headers: its `materialize` call is running, under its own id. -/
  | materializing
  /-- It has read the version. -/
  | versioned (version : Nat)
  /-- The query has run under the subscriber's role. -/
  | fetched (version : Nat) (body : String)
  /-- It has returned, with a subscription or an error. -/
  | done

/-- The process: the read core, the bridge, the channel, the hub, its subscribers. -/
structure State (γ : Type) where
  core : Read.State γ
  /-- The commit the bridge has advanced and not sent yet. -/
  sending : Option Nat
  /-- The broadcast channel, as its one receiver will read it. -/
  queue : List Nat
  /-- The channel has dropped a transaction its receiver has not read. -/
  lagged : Bool
  worker : Worker
  subs : Nat → Option Subscription
  nextId : Nat
  /-- The subscribers that still hold their end of the channel. -/
  receivers : Nat → Bool
  /-- What was sent to each subscriber so far. -/
  sent : Nat → List Event
  /-- The snapshot body each subscription was opened with. -/
  bodies : Nat → String
  requests : Nat → Option (PreparedRead × Request)
  /-- The commits `on_commit` was called for. -/
  delivered : List Nat

/-- What can happen next. -/
inductive Action (γ : Type)
  /-- A step of the read core, of the database or of the index. -/
  | core (action : Read.Action γ)
  | broadcast
  | receive (order : List Nat)
  | resetAll
  | requery
  | emit (prev next : RowIter)
  | discard
  | finish
  | subscribe (id : Nat) (read : PreparedRead)
  | fetch (id : Nat)
  | register (id : Nat)
  /-- `LiveSubscription::drop`, and then its receiver. -/
  | drop (id : Nat)
  | release (id : Nat)

/-- What the code takes from outside the hub. -/
structure Env (γ : Type) where
  engine : Engine γ
  serde : Serde
  /-- The hub's map of primary keys. -/
  pk : String → Option String

/-- `broadcast::channel(1024)`. -/
def CAPACITY : Nat := 1024

variable {γ : Type}

/-- The result a subscription is about. -/
def Subscription.result (engine : Engine γ) (sub : Subscription) (db : Database γ) :
    Except CacheError String :=
  queryJsonScoped engine sub.principal sub.headers sub.sql sub.params db

def LiveJob.result (engine : Engine γ) (job : LiveJob) (db : Database γ) :
    Except CacheError String :=
  queryJsonScoped engine job.principal job.headers job.sql job.params db

/-- The job `on_commit` makes of a subscription. -/
def Subscription.job (id : Nat) (sub : Subscription) : LiveJob :=
  { id, sql := sub.sql, pk := sub.pk, last := sub.last, principal := sub.principal,
    headers := sub.headers, params := sub.params }

/-- Whether a transaction touched one of the subscription's tables. -/
def Subscription.matched (changed : List String) (sub : Subscription) : Bool :=
  sub.tables.any fun table => changed.contains (toAsciiLowercase table)

namespace State

def setSub (s : State γ) (id : Nat) (sub : Option Subscription) : State γ :=
  { s with subs := Function.update s.subs id sub }

/-- `sender.send`, of several events: nothing arrives once the receiver is gone. -/
def send (s : State γ) (id : Nat) (events : List Event) : State γ :=
  if s.receivers id then { s with sent := Function.update s.sent id (s.sent id ++ events) } else s

def setRequest (s : State γ) (id : Nat) (read : PreparedRead) (request : Request) : State γ :=
  { s with requests := Function.update s.requests id (some (read, request)) }

/-- The ids of the subscriptions a transaction concerns. -/
def matching (s : State γ) (changed : List String) : List Nat :=
  (List.range s.nextId).filter fun id => ((s.subs id).map (·.matched changed)).getD false

end State

/-! ## 2. The hub's operations -/

/-- `LiveHub::subscribe`. -/
def hubSubscribe (env : Env γ) (s : State γ) (query : CacheableQuery) (hash : String)
    (version : Nat) (body : String) (principal : Option Principal) (headers : Option String) :
    State γ :=
  let pk := match query.tables with
    | [table] => env.pk (toAsciiLowercase table)
    | _ => none
  let first := if ownerScope principal headers then Event.snapshotUrl hash version
    else .snapshotRows ((env.serde.fromStr body).getD (.array [])) version
  let id := s.nextId
  { s with
    nextId := id + 1
    receivers := Function.update s.receivers id true
    bodies := Function.update s.bodies id body
    sent := Function.update s.sent id [first]
    subs := Function.update s.subs id (some
      { tables := query.tables, pk, sql := query.sql, last := keyedMap env.serde body pk,
        principal, headers, params := query.params }) }

/-- The first lock of `on_commit`: the jobs, in the order the hash table gives them. -/
def selectJobs (s : State γ) (order : List Nat) : List LiveJob :=
  order.filterMap fun id => (s.subs id).map (·.job id)

/-- The second lock of `on_commit`: the changes are sent, the up-to-date event after them, and
the map is stored.  A failed send stops the loop and leaves the map. -/
def emitDeltas (s : State γ) (job : LiveJob) (txid : Nat) (deltas : List Delta) (next : RowMap) :
    State γ :=
  match s.subs job.id with
  | none => s
  | some sub =>
    if s.receivers job.id || deltas.isEmpty then
      (s.setSub job.id (some { sub with last := next })).send job.id
        (deltas.map (fun d => .delta d txid) ++ [.upToDate txid])
    else s

/-- The lock taken when the query fails. -/
def discardSub (s : State γ) (job : LiveJob) : State γ :=
  match s.subs job.id with
  | none => s
  | some _ => (s.setSub job.id none).send job.id [.reset]

/-- `LiveHub::reset_all`. -/
def resetAll (s : State γ) : State γ :=
  { s with
    sent := fun id =>
      if (s.subs id).isSome && s.receivers id then s.sent id ++ [.reset] else s.sent id
    subs := fun _ => none }

/-- `subs.retain(|_, sub| !sub.sender.is_closed())`. -/
def retain (s : State γ) : State γ :=
  { s with subs := fun id => if s.receivers id then s.subs id else none }

/-! ## 3. The steps -/

def step (env : Env γ) (s : State γ) : Action γ → Option (State γ)
  | .core (.advance m) => match s.sending with
    | none => (Read.step env.engine s.core (.advance m)).map fun core =>
        { s with core, sending := some m }
    | some _ => none
  | .core a => (Read.step env.engine s.core a).map fun core => { s with core }
  | .broadcast => s.sending.map fun m =>
      let queue := s.queue ++ [m]
      let overflow := decide (CAPACITY < queue.length)
      { s with
        sending := none
        queue := if overflow then queue.tail else queue
        lagged := s.lagged || overflow }
  | .receive order => match s.worker, s.queue with
    | .idle, m :: queue =>
      (s.core.history.label m).bind fun txn =>
        if s.lagged = false ∧ order.Perm (s.matching txn.touched) then
          some { s with
            queue
            worker := .busy m (selectJobs s order) none
            delivered := s.delivered ++ [m] }
        else none
    | _, _ => none
  | .resetAll => match s.worker with
    | .idle => if s.lagged then some { resetAll s with lagged := false } else none
    | .busy _ _ _ => none
  | .requery => match s.worker with
    | .busy m (job :: jobs) none =>
      let fresh := job.result env.engine s.core.history.current
      some { s with worker := .busy m (job :: jobs) (some fresh) }
    | _ => none
  | .emit prev next => match s.worker with
    | .busy m (job :: jobs) (some (.ok body)) =>
      (s.core.history.label m).bind fun txn =>
        if prev.toFinmap = job.last ∧ next.toFinmap = keyedMap env.serde body job.pk then
          some { emitDeltas s job txn.xid (diff prev next) next.toFinmap with
            worker := .busy m jobs none }
        else none
    | _ => none
  | .discard => match s.worker with
    | .busy m (job :: jobs) (some (.error _)) =>
      some { discardSub s job with worker := .busy m jobs none }
    | _ => none
  | .finish => match s.worker with
    | .busy _ [] _ => some { retain s with worker := .idle }
    | _ => none
  | .subscribe id read => match s.requests id with
    | none =>
      if ownerScope read.principal read.headers then
        (Read.step env.engine s.core (.materialize id read.query)).map fun core =>
          { s.setRequest id read .materializing with core }
      else some (s.setRequest id read (.versioned (s.core.version read.query)))
    | some _ => none
  | .fetch id => match s.requests id with
    | some (read, .versioned v) =>
      match queryJsonScoped env.engine read.principal read.headers read.query.sql read.query.params
          s.core.history.current with
      | .ok body => some (s.setRequest id read (.fetched v body))
      | .error _ => some (s.setRequest id read .done)
    | _ => none
  | .register id => match s.requests id with
    | some (read, .materializing) => match s.core.calls id with
      | some ⟨_, .returned (.ok (version, snapshot))⟩ =>
        some ((hubSubscribe env s read.query (lowerHex read.query.fingerprint) version
          snapshot.body none none).setRequest id read .done)
      | some ⟨_, .returned (.error _)⟩ => some (s.setRequest id read .done)
      | _ => none
    | some (read, .fetched version body) =>
      some ((hubSubscribe env s read.query "" version body read.principal read.headers).setRequest
        id read .done)
    | _ => none
  | .drop id => if id < s.nextId then some (s.setSub id none) else none
  | .release id =>
    if id < s.nextId ∧ (s.subs id).isNone then
      some { s with receivers := Function.update s.receivers id false }
    else none

/-- The process starts on any database, with nobody subscribed. -/
structure Fresh (pk : List (String × String)) (full : List String) (s : State γ) : Prop where
  core : Read.Fresh pk full s.core
  sending : s.sending = none
  queue : s.queue = []
  lagged : s.lagged = false
  worker : s.worker = .idle
  subs : s.subs = fun _ => none
  nextId : s.nextId = 0
  requests : s.requests = fun _ => none
  delivered : s.delivered = []

def system (env : Env γ) (pk : List (String × String)) (full : List String) :
    Transition.System (State γ) (Action γ) where
  init := Fresh pk full
  step := step env

/-- A process that has just started on a database. -/
def State.start (pk : List (String × String)) (full : List String) (db : Database γ) : State γ where
  core := Read.State.start pk full db
  sending := none
  queue := []
  lagged := false
  worker := .idle
  subs _ := none
  nextId := 0
  receivers _ := false
  sent _ := []
  bodies _ := ""
  requests _ := none
  delivered := []

theorem fresh_start (pk : List (String × String)) (full : List String) (db : Database γ) :
    Fresh pk full (State.start pk full db) :=
  ⟨Read.fresh_start pk full db, rfl, rfl, rfl, rfl, rfl, rfl, rfl, rfl⟩

/-! ## 4. What a step can do -/

/-- **The ways a step can go**, one constructor for each branch of the code. -/
inductive Taken (env : Env γ) (s : State γ) : Action γ → State γ → Prop
  | core {a : Read.Action γ} {core : Read.State γ}
      (hcore : Read.step env.engine s.core a = some core) (hne : ∀ m, a ≠ .advance m) :
      Taken env s (.core a) { s with core }
  | advance {m : Nat} {core : Read.State γ} (hsending : s.sending = none)
      (hcore : Read.step env.engine s.core (.advance m) = some core) :
      Taken env s (.core (.advance m)) { s with core, sending := some m }
  | broadcast {m : Nat} (hsending : s.sending = some m) (hroom : s.queue.length < CAPACITY) :
      Taken env s .broadcast { s with sending := none, queue := s.queue ++ [m] }
  | overflow {m : Nat} (hsending : s.sending = some m) (hfull : CAPACITY ≤ s.queue.length) :
      Taken env s .broadcast
        { s with sending := none, queue := (s.queue ++ [m]).tail, lagged := true }
  | receive {m : Nat} {queue order : List Nat} {txn : CommittedTransaction}
      (hidle : s.worker = .idle) (hqueue : s.queue = m :: queue)
      (hlabel : s.core.history.label m = some txn) (hlagged : s.lagged = false)
      (horder : order.Perm (s.matching txn.touched)) :
      Taken env s (.receive order) { s with
        queue
        worker := .busy m (selectJobs s order) none
        delivered := s.delivered ++ [m] }
  | resetAll (hidle : s.worker = .idle) (hlagged : s.lagged = true) :
      Taken env s .resetAll { resetAll s with lagged := false }
  | requery {m : Nat} {job : LiveJob} {jobs : List LiveJob}
      (hbusy : s.worker = .busy m (job :: jobs) none) :
      Taken env s .requery { s with
        worker := .busy m (job :: jobs) (some (job.result env.engine s.core.history.current)) }
  | emit {m : Nat} {job : LiveJob} {jobs : List LiveJob} {body : String}
      {txn : CommittedTransaction} {prev next : RowIter}
      (hbusy : s.worker = .busy m (job :: jobs) (some (.ok body)))
      (hlabel : s.core.history.label m = some txn) (hprev : prev.toFinmap = job.last)
      (hnext : next.toFinmap = keyedMap env.serde body job.pk) :
      Taken env s (.emit prev next)
        { emitDeltas s job txn.xid (diff prev next) next.toFinmap with worker := .busy m jobs none }
  | discard {m : Nat} {job : LiveJob} {jobs : List LiveJob} {e : CacheError}
      (hbusy : s.worker = .busy m (job :: jobs) (some (.error e))) :
      Taken env s .discard { discardSub s job with worker := .busy m jobs none }
  | finish {m : Nat} {fresh : Option (Except CacheError String)}
      (hbusy : s.worker = .busy m [] fresh) : Taken env s .finish { retain s with worker := .idle }
  | subscribePublic {id : Nat} {read : PreparedRead} {core : Read.State γ}
      (hfree : s.requests id = none) (hscope : ownerScope read.principal read.headers = true)
      (hcore : Read.step env.engine s.core (.materialize id read.query) = some core) :
      Taken env s (.subscribe id read) { s.setRequest id read .materializing with core }
  | subscribeScoped {id : Nat} {read : PreparedRead} (hfree : s.requests id = none)
      (hscope : ownerScope read.principal read.headers = false) :
      Taken env s (.subscribe id read)
        (s.setRequest id read (.versioned (s.core.version read.query)))
  | fetch {id version : Nat} {read : PreparedRead} {body : String}
      (hrequest : s.requests id = some (read, .versioned version))
      (hrun : queryJsonScoped env.engine read.principal read.headers read.query.sql
        read.query.params s.core.history.current = .ok body) :
      Taken env s (.fetch id) (s.setRequest id read (.fetched version body))
  | fetchError {id version : Nat} {read : PreparedRead}
      (hrequest : s.requests id = some (read, .versioned version)) :
      Taken env s (.fetch id) (s.setRequest id read .done)
  | registerPublic {id version : Nat} {read : PreparedRead} {q : CacheableQuery}
      {snapshot : CachedResult} (hrequest : s.requests id = some (read, .materializing))
      (hcall : s.core.calls id = some ⟨q, .returned (.ok (version, snapshot))⟩) :
      Taken env s (.register id) ((hubSubscribe env s read.query (lowerHex read.query.fingerprint)
        version snapshot.body none none).setRequest id read .done)
  | registerScoped {id version : Nat} {read : PreparedRead} {body : String}
      (hrequest : s.requests id = some (read, .fetched version body)) :
      Taken env s (.register id) ((hubSubscribe env s read.query "" version body read.principal
        read.headers).setRequest id read .done)
  | registerError {id : Nat} {read : PreparedRead}
      (hrequest : s.requests id = some (read, .materializing)) :
      Taken env s (.register id) (s.setRequest id read .done)
  | drop {id : Nat} (hid : id < s.nextId) : Taken env s (.drop id) (s.setSub id none)
  | release {id : Nat} (hid : id < s.nextId) (hgone : s.subs id = none) :
      Taken env s (.release id) { s with receivers := Function.update s.receivers id false }

/-- All steps of the core but one leave the hub alone. -/
theorem step_core {env : Env γ} {s : State γ} {a : Read.Action γ} (hne : ∀ m, a ≠ .advance m) :
    step env s (.core a) = (Read.step env.engine s.core a).map fun core => { s with core } := by
  cases a with
  | advance m => exact absurd rfl (hne m)
  | materialize _ _ | lookup _ | execute _ | insert _ | reply _ | cursor _ _ | evict _
  | apply _ _ => rfl

/-- Every step of the code is one of these. -/
theorem taken_of_step {env : Env γ} {s s' : State γ} {a : Action γ}
    (h : step env s a = some s') : Taken env s a s' := by
  cases a with
  | core a =>
    by_cases hadvance : ∃ m, a = .advance m
    · obtain ⟨m, rfl⟩ := hadvance
      simp only [step] at h
      split at h
      · rename_i hsending
        obtain ⟨core, hcore, rfl⟩ := Option.map_eq_some_iff.mp h
        exact .advance hsending hcore
      · exact absurd h nofun
    · have hne : ∀ m, a ≠ .advance m := fun m hm => hadvance ⟨m, hm⟩
      rw [step_core hne] at h
      obtain ⟨core, hcore, rfl⟩ := Option.map_eq_some_iff.mp h
      exact .core hcore hne
  | broadcast =>
    obtain ⟨m, hsending, rfl⟩ := Option.map_eq_some_iff.mp h
    by_cases hfull : CAPACITY ≤ s.queue.length
    · have hover : CAPACITY < s.queue.length + 1 := Nat.lt_succ_of_le hfull
      have htaken : Taken env s .broadcast _ := .overflow hsending hfull
      simpa [hover] using htaken
    · have hroom : s.queue.length < CAPACITY := Nat.lt_of_not_le hfull
      have hover : ¬ CAPACITY < s.queue.length + 1 := by omega
      have htaken : Taken env s .broadcast _ := .broadcast hsending hroom
      simpa [hover] using htaken
  | receive order =>
    simp only [step] at h
    split at h
    · rename_i m queue hidle hqueue
      obtain ⟨txn, hlabel, h⟩ := Option.bind_eq_some_iff.mp h
      split at h
      · rename_i hc
        obtain rfl := Option.some.inj h
        exact .receive hidle hqueue hlabel hc.1 hc.2
      · exact absurd h nofun
    · exact absurd h nofun
  | resetAll =>
    simp only [step] at h
    split at h
    · rename_i hidle
      split at h
      · rename_i hlagged
        obtain rfl := Option.some.inj h
        exact .resetAll hidle hlagged
      · exact absurd h nofun
    · exact absurd h nofun
  | requery =>
    simp only [step] at h
    split at h
    · rename_i m job jobs hbusy
      obtain rfl := Option.some.inj h
      exact .requery hbusy
    · exact absurd h nofun
  | emit prev next =>
    simp only [step] at h
    split at h
    · rename_i m job jobs body hbusy
      obtain ⟨txn, hlabel, h⟩ := Option.bind_eq_some_iff.mp h
      split at h
      · rename_i hc
        obtain rfl := Option.some.inj h
        exact .emit hbusy hlabel hc.1 hc.2
      · exact absurd h nofun
    · exact absurd h nofun
  | discard =>
    simp only [step] at h
    split at h
    · rename_i m job jobs e hbusy
      obtain rfl := Option.some.inj h
      exact .discard hbusy
    · exact absurd h nofun
  | finish =>
    simp only [step] at h
    split at h
    · rename_i m fresh hbusy
      obtain rfl := Option.some.inj h
      exact .finish hbusy
    · exact absurd h nofun
  | subscribe id read =>
    simp only [step] at h
    split at h
    · rename_i hfree
      split at h
      · rename_i hscope
        obtain ⟨core, hcore, rfl⟩ := Option.map_eq_some_iff.mp h
        exact .subscribePublic hfree hscope hcore
      · rename_i hscope
        obtain rfl := Option.some.inj h
        exact .subscribeScoped hfree (by simpa using hscope)
    · exact absurd h nofun
  | fetch id =>
    simp only [step] at h
    split at h
    · rename_i read v hrequest
      split at h
      · rename_i body hrun
        obtain rfl := Option.some.inj h
        exact .fetch hrequest hrun
      · obtain rfl := Option.some.inj h
        exact .fetchError hrequest
    · exact absurd h nofun
  | register id =>
    simp only [step] at h
    split at h
    · rename_i read hrequest
      split at h
      · rename_i hcall
        obtain rfl := Option.some.inj h
        exact .registerPublic hrequest hcall
      · obtain rfl := Option.some.inj h
        exact .registerError hrequest
      · exact absurd h nofun
    · rename_i read version body hrequest
      obtain rfl := Option.some.inj h
      exact .registerScoped hrequest
    · exact absurd h nofun
  | drop id =>
    simp only [step] at h
    split at h
    · rename_i hid
      obtain rfl := Option.some.inj h
      exact .drop hid
    · exact absurd h nofun
  | release id =>
    simp only [step] at h
    split at h
    · rename_i hc
      obtain rfl := Option.some.inj h
      exact .release hc.1 (by simpa using hc.2)
    · exact absurd h nofun

end Live

end PgPaw
