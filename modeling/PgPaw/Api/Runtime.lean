/-
# `api/`: a `PgPaw`, from `open` to `shutdown`

`PgPawBuilder::open` with what it takes back when a step fails, `attach_unb`, `wait`, and
`shutdown`, which goes on past failures and reports the first.

In any run, a call is made only with handles that are held; an `open` that fails has given
everything back, and so has `shutdown`, whatever failed before or in it.
-/
import PgPaw.Source.Build

namespace PgPaw.Lifecycle

open Program

/-! ## 1. `shutdown` -/

/-- `PgPaw`. -/
structure Opened where
  core : Core
  httpHandle : Option Nat
  httpTask : Option Nat
  unb : List Nat

/-- The error that is reported: the first. -/
def keepFirst (result step : Except OpenError Unit) : Except OpenError Unit :=
  match result with
  | .ok () => step
  | .error error => .error error

/-- What its task says. -/
def joinServer : Option Nat → Life (Except OpenError Unit)
  | none => pure (.ok ())
  | some server => Life.attempt (discard (Life.call (.joinServer server) .io))

/-- The step for the server. -/
def shutdownHttp (handle task : Option Nat) : Life (Except OpenError Unit) := do
  handle.forM fun server => Life.ignore (.stopServer server)
  joinServer task

/-- The loop over the topologies. -/
def shutdownTopologies : List Nat → Except OpenError Unit → Life (Except OpenError Unit)
  | [], result => pure result
  | topology :: unb, result => do
    let step ← Life.attempt
      (discard (Life.call (.shutdownTopology topology) (lifecycle .shutdown)))
    shutdownTopologies unb (keepFirst result step)

/-- The step for the source. -/
def shutdownSource (db : Nat) :
    SourceShutdown → Except OpenError Unit → Life (Except OpenError Unit)
  | .replica replica, result => do
    Life.ignore (.stopReplica replica)
    Life.ignore .stopCdc
    Life.ignore (.shutdown db)
    return result
  | .primary observer, result => do
    let step ← Life.attempt (shutdownObserver db observer)
    let result := keepFirst result step
    let step ← Life.attempt (discard (Life.call (.close db) (lifecycle .shutdown)))
    return keepFirst result step

/-- `shutdown`. -/
def shutdown (p : Opened) : Life Unit := do
  let result ← shutdownHttp p.httpHandle p.httpTask
  let result ← shutdownTopologies p.unb result
  let result ← shutdownSource p.core.db p.core.state result
  Life.orError result

/-! ## 2. `open` -/

/-- `abort_open`, and returning its error. -/
def abortOpen {α : Type} (p : Opened) (error : OpenError) : Life α := do
  discard (Life.attempt (shutdown p))
  throw error

/-- A node, and its topology. -/
def startNode (config : Nat) : Life Nat := do
  discard (Life.call (.buildNode config) (lifecycle .topology))
  let answer ← Life.call (.startTopology config) (lifecycle .topology)
  return answer.handle

/-- The loop over the nodes. -/
def openUnb : List Nat → Opened → Life Opened
  | [], p => pure p
  | config :: unb, p => do
    match ← Life.attempt (startNode config) with
    | .ok topology => openUnb unb { p with unb := p.unb ++ [topology] }
    | .error error => abortOpen p error

/-- The ledgers of earlier versions, of a primary. -/
def openLedgers (p : Opened) : Life Unit :=
  match p.core.state with
  | .replica _ => pure ()
  | .primary _ => do
    match ← Life.attempt (Life.call (.handoffLegacyLedgers p.core.db) .pglite) with
    | .ok _ => return
    | .error error => abortOpen p error

/-- The server. -/
def openHttp (http : Bool) (p : Opened) : Life Opened :=
  if http then do
    match ← Life.attempt (Life.call .bind .io) with
    | .ok answer =>
      return { p with httpHandle := some answer.handle, httpTask := some answer.handle }
    | .error error => abortOpen p error
  else pure p

/-- `PgPawBuilder`: a source, whether there is a server, and the nodes. -/
structure Builder where
  source : Option PgSource
  http : Bool
  unb : List Nat

section Open

variable (pid : Nat) (verifier : Except CacheError Unit)

/-- `PgPawBuilder::open`. -/
def openPgPaw (builder : Builder) : Life Opened :=
  match builder.source with
  | none => throw (.cache (.config "PgPaw requires a source"))
  | some source => do
    let core ← buildReadCore pid verifier source
    let p : Opened := ⟨core, none, none, []⟩
    openLedgers p
    let p ← openHttp builder.http p
    openUnb builder.unb p

/-! ## 3. In use -/

/-- `attach_unb`: what there is then, and the result. -/
def attachUnb (p : Opened) (config : Nat) : Life (Opened × Except OpenError Unit) := do
  match ← Life.attempt (startNode config) with
  | .ok topology => return ({ p with unb := p.unb ++ [topology] }, .ok ())
  | .error error => return (p, .error error)

/-- The first topology that has finished, and its result. -/
def waitTopologies : List Nat → Life (Option (Except OpenError Unit))
  | [] => pure none
  | topology :: unb => do
    if ← Life.asks (.topologyFinished topology) then
      let result ← Life.attempt
        (discard (Life.call (.waitTopology topology) (lifecycle .topology)))
      return some result
    else waitTopologies unb

/-- Whether the server has. -/
def serverFinished : Option Nat → Life Bool
  | none => pure false
  | some server => Life.asks (.serverFinished server)

/-- A round of `wait`: what there is then, and the result if something has finished. -/
def waitRound (p : Opened) : Life (Opened × Option (Except OpenError Unit)) := do
  if ← serverFinished p.httpTask then
    let result ← joinServer p.httpTask
    return ({ p with httpTask := none }, some result)
  else
    let result ← waitTopologies p.unb
    return (p, result)

/-- `wait`, for so many rounds.  With no binding there is nothing to wait for. -/
def wait : Nat → Opened → Life (Opened × Option (Except OpenError Unit))
  | 0, p => pure (p, none)
  | rounds + 1, p =>
    if p.httpTask.isNone && p.unb.isEmpty then pure (p, none)
    else do
      match ← waitRound p with
      | (p, some result) => return (p, some result)
      | (p, none) => wait rounds p

/-- What a caller may do with a `PgPaw`. -/
inductive Use
  | attachUnb (config : Nat)
  | wait (rounds : Nat)

/-- And does, whatever comes of it. -/
def useAll : List Use → Opened → Life Opened
  | [], p => pure p
  | .attachUnb config :: uses, p => do
    let (p, _) ← attachUnb p config
    useAll uses p
  | .wait rounds :: uses, p => do
    let (p, _) ← wait rounds p
    useAll uses p

/-- From `open` to `shutdown`. -/
def session (builder : Builder) (uses : List Use) : Life Unit := do
  let p ← openPgPaw pid verifier builder
  let p ← useAll uses p
  shutdown p

end Open

/-! ## 4. What they own -/

namespace Opened

/-- What the server holds. -/
def server (handle task : Option Nat) : Multiset Handle :=
  handle.elim 0 (fun n => {.server n}) + task.elim 0 fun n => {.serverTask n}

/-- And the topologies. -/
def topologies (unb : List Nat) : Multiset Handle := (unb.map Handle.topology : List Handle)

def owned (p : Opened) : Multiset Handle :=
  p.core.owned + topologies p.unb + server p.httpHandle p.httpTask

@[simp] theorem topologies_nil : topologies [] = 0 := rfl

theorem topologies_cons (topology : Nat) (unb : List Nat) :
    topologies (topology :: unb) = topologies unb + {.topology topology} :=
  add_comm {Handle.topology topology} (topologies unb)

theorem topologies_snoc (topology : Nat) (unb : List Nat) :
    topologies (unb ++ [topology]) = topologies unb + {.topology topology} := by
  rw [topologies, List.map_append, ← Multiset.coe_add]
  rfl

end Opened

open Opened

theorem leaves_joinServer (task : Option Nat) (rest failed : Multiset Handle) :
    handles.Leaves (rest + server none task) (joinServer task) (fun _ => rest) failed := by
  cases task with
  | none => exact Ownership.Leaves.pure (add_zero rest)
  | some n =>
    have howned : rest + server none (some n) = rest + {.serverTask n} := by simp [server]
    exact leaves_attempt_release (howned ▸ Multiset.le_add_left _ _) howned rfl fun _ => rfl

theorem leaves_shutdownHttp (handle task : Option Nat) (rest failed : Multiset Handle) :
    handles.Leaves (rest + server handle task) (shutdownHttp handle task) (fun _ => rest)
      failed := by
  have hstop : handles.Leaves (rest + server handle task)
      (handle.forM fun server => Life.ignore (.stopServer server))
      (fun _ => rest + server none task) failed := by
    cases handle with
    | none => exact Ownership.Leaves.pure rfl
    | some n =>
      have howned : rest + server (some n) task = rest + server none task + {.server n} := by
        rw [server, server, add_comm _ (Option.elim task _ _), ← add_assoc]
        simp
      exact leaves_ignore (howned ▸ Multiset.le_add_left _ _) howned rfl fun _ => rfl
  exact Ownership.Leaves.bind hstop fun _ => leaves_joinServer task rest failed

theorem leaves_shutdownTopologies (unb : List Nat) (result : Except OpenError Unit)
    (rest failed : Multiset Handle) :
    handles.Leaves (rest + topologies unb) (shutdownTopologies unb result) (fun _ => rest)
      failed := by
  induction unb generalizing result with
  | nil => exact Ownership.Leaves.pure (add_zero rest)
  | cons topology unb ih =>
    rw [topologies_cons, ← add_assoc]
    exact Ownership.Leaves.bind
      (leaves_attempt_release (Multiset.le_add_left _ _) rfl rfl fun _ => rfl) fun step =>
        ih (keepFirst result step)

theorem leaves_shutdownSource (db : Nat) (state : SourceShutdown)
    (result : Except OpenError Unit) (failed : Multiset Handle) :
    handles.Leaves ({.database db} + state.owned) (shutdownSource db state result)
      (fun _ => 0) failed := by
  cases state with
  | replica replica =>
    refine Ownership.Leaves.bind
      (leaves_ignore (Multiset.le_add_left _ _) rfl rfl fun _ => rfl) fun _ => ?_
    refine Ownership.Leaves.bind (leaves_skip (Multiset.zero_le _) rfl fun _ => rfl) fun _ => ?_
    refine Ownership.Leaves.bind
      (leaves_ignore le_rfl (zero_add _).symm rfl fun _ => rfl) fun _ => ?_
    exact Ownership.Leaves.pure rfl
  | primary observer =>
    refine Ownership.Leaves.bind
      (Ownership.Leaves.settle (leaves_shutdownObserver db observer)) fun unlistened => ?_
    refine Ownership.Leaves.bind
      (leaves_attempt_release le_rfl (zero_add _).symm rfl fun _ => rfl) fun closed => ?_
    exact Ownership.Leaves.pure rfl

/-- **`shutdown` gives back all that there is.** -/
theorem leaves_shutdown (p : Opened) :
    handles.Leaves p.owned (shutdown p) (fun _ => 0) 0 := by
  unfold shutdown
  refine Ownership.Leaves.bind (leaves_shutdownHttp p.httpHandle p.httpTask _ 0) fun _ => ?_
  refine Ownership.Leaves.bind (leaves_shutdownTopologies p.unb _ p.core.owned 0) fun _ => ?_
  refine Ownership.Leaves.bind (leaves_shutdownSource p.core.db p.core.state _ 0) fun _ => ?_
  exact borrows_orError _ 0 le_rfl

theorem leaves_abortOpen {α : Type} {left : α → Multiset Handle} (p : Opened)
    (error : OpenError) : handles.Leaves p.owned (abortOpen p error) left 0 :=
  Ownership.Leaves.bind
    (Ownership.Leaves.discard (Ownership.Leaves.settle (leaves_shutdown p))) fun _ =>
      Ownership.Leaves.throw rfl

/-! ## 5. What `open` leaves -/

theorem leaves_startNode (config : Nat) (rest : Multiset Handle) :
    handles.Leaves rest (startNode config) (fun topology => rest + {.topology topology}) rest := by
  have hbuild : handles.Borrows 0
      (discard (Life.call (.buildNode config) (lifecycle .topology))) :=
    Ownership.Borrows.discard (borrows_call le_rfl rfl fun _ => rfl)
  unfold startNode
  refine Ownership.Leaves.bind (hbuild rest (Multiset.zero_le _)) fun _ => ?_
  refine Ownership.Leaves.bind (leaves_acquire (Multiset.zero_le _) rfl) fun answer => ?_
  exact Ownership.Leaves.pure rfl

/-- One more topology. -/
theorem owned_attach (p : Opened) (topology : Nat) :
    ({ p with unb := p.unb ++ [topology] } : Opened).owned = p.owned + {.topology topology} := by
  rw [owned, owned, topologies_snoc, ← add_assoc, add_right_comm]

theorem leaves_openUnb (unb : List Nat) (p : Opened) :
    handles.Leaves p.owned (openUnb unb p) owned 0 := by
  induction unb generalizing p with
  | nil => exact Ownership.Leaves.pure rfl
  | cons config unb ih =>
    unfold openUnb
    refine Ownership.Leaves.bind (leaves_attempt (leaves_startNode config p.owned))
      fun result => ?_
    cases result with
    | ok topology =>
      have hattach := ih { p with unb := p.unb ++ [topology] }
      rwa [owned_attach] at hattach
    | error error => exact leaves_abortOpen p error

theorem leaves_openLedgers (p : Opened) :
    handles.Leaves p.owned (openLedgers p) (fun _ => p.owned) 0 := by
  have hdb : {.database p.core.db} ≤ p.owned := by
    rw [owned, Core.owned, add_assoc, add_assoc]
    exact Multiset.le_add_right _ _
  unfold openLedgers
  split
  · exact Ownership.Leaves.pure rfl
  refine Ownership.Leaves.bind
    (leaves_attempt (borrows_call hdb rfl (fun _ => rfl) _ le_rfl)) fun result => ?_
  cases result with
  | ok answer => exact Ownership.Leaves.pure rfl
  | error error => exact leaves_abortOpen p error

/-- With a server. -/
theorem owned_serve (core : Core) (n : Nat) :
    Opened.owned ⟨core, none, none, []⟩ + LifeOp.bind.brings n =
      Opened.owned ⟨core, some n, some n, []⟩ := by
  rw [owned, owned, add_assoc]
  exact congrArg (_ + ·) (zero_add _)

theorem leaves_openHttp (http : Bool) (core : Core) :
    handles.Leaves (Opened.owned ⟨core, none, none, []⟩) (openHttp http ⟨core, none, none, []⟩)
      owned 0 := by
  unfold openHttp
  split
  · refine Ownership.Leaves.bind
      (leaves_attempt (leaves_acquire (Multiset.zero_le _) rfl)) fun result => ?_
    cases result with
    | ok answer => exact Ownership.Leaves.pure (owned_serve core answer.handle)
    | error error => exact leaves_abortOpen _ error
  · exact Ownership.Leaves.pure rfl

section Open

variable {pid : Nat} {verifier : Except CacheError Unit}

/-- **`open` leaves what the `PgPaw` holds, or nothing.** -/
theorem leaves_openPgPaw (builder : Builder) :
    handles.Leaves 0 (openPgPaw pid verifier builder) owned 0 := by
  unfold openPgPaw
  split
  · exact Ownership.Leaves.throw rfl
  next source _ =>
    refine Ownership.Leaves.bind (leaves_buildReadCore source) fun core => ?_
    have hcore : core.owned = Opened.owned ⟨core, none, none, []⟩ := by
      simp [Opened.owned, server]
    rw [hcore]
    refine Ownership.Leaves.bind (leaves_openLedgers _) fun _ => ?_
    refine Ownership.Leaves.bind (leaves_openHttp builder.http core) fun p => ?_
    exact leaves_openUnb builder.unb p

/-! ## 6. In use -/

theorem leaves_attachUnb (p : Opened) (config : Nat) :
    handles.Leaves p.owned (attachUnb p config) (fun after => after.1.owned) 0 := by
  unfold attachUnb
  refine Ownership.Leaves.bind (leaves_attempt (leaves_startNode config p.owned))
    fun result => ?_
  cases result with
  | ok topology => exact Ownership.Leaves.pure (owned_attach p topology).symm
  | error error => exact Ownership.Leaves.pure rfl

theorem leaves_waitTopologies (unb : List Nat) {owned failed : Multiset Handle}
    (hunb : topologies unb ≤ owned) :
    handles.Leaves owned (waitTopologies unb) (fun _ => owned) failed := by
  induction unb with
  | nil => exact Ownership.Leaves.pure rfl
  | cons topology unb ih =>
    rw [topologies_cons] at hunb
    have htopology : {.topology topology} ≤ owned := (Multiset.le_add_left _ _).trans hunb
    unfold waitTopologies
    refine Ownership.Leaves.bind (leaves_asks htopology rfl fun _ => rfl) fun finished => ?_
    split
    · have hwait : handles.Borrows {.topology topology}
          (discard (Life.call (.waitTopology topology) (lifecycle .topology))) :=
        Ownership.Borrows.discard (borrows_call le_rfl rfl fun _ => rfl)
      exact Ownership.Leaves.bind (Ownership.Leaves.settle (hwait owned htopology)) fun _ =>
        Ownership.Leaves.pure rfl
    · exact ih ((Multiset.le_add_right _ _).trans hunb)

theorem leaves_waitRound (p : Opened) :
    handles.Leaves p.owned (waitRound p) (fun after => after.1.owned) 0 := by
  have hasks : handles.Leaves p.owned (serverFinished p.httpTask) (fun _ => p.owned) 0 := by
    cases htask : p.httpTask with
    | none => exact Ownership.Leaves.pure rfl
    | some server =>
      have htask : {.serverTask server} ≤ p.owned := by
        rw [owned, Opened.server, htask, ← add_assoc]
        exact Multiset.le_add_left _ _
      exact leaves_asks htask rfl fun _ => rfl
  unfold waitRound
  refine Ownership.Leaves.bind hasks fun finished => ?_
  split
  · have howned : p.owned = ({ p with httpTask := none } : Opened).owned +
        server none p.httpTask := by
      simp [owned, server, add_assoc]
    rw [howned]
    exact Ownership.Leaves.bind (leaves_joinServer p.httpTask _ 0) fun _ =>
      Ownership.Leaves.pure rfl
  · have hunb : topologies p.unb ≤ p.owned :=
      (Multiset.le_add_left _ _).trans (Multiset.le_add_right _ _)
    exact Ownership.Leaves.bind (leaves_waitTopologies p.unb hunb) fun _ =>
      Ownership.Leaves.pure rfl

theorem leaves_wait (rounds : Nat) (p : Opened) :
    handles.Leaves p.owned (wait rounds p) (fun after => after.1.owned) 0 := by
  induction rounds generalizing p with
  | zero => exact Ownership.Leaves.pure rfl
  | succ rounds ih =>
    unfold wait
    split
    · exact Ownership.Leaves.pure rfl
    refine Ownership.Leaves.bind (leaves_waitRound p) fun after => ?_
    obtain ⟨p, result⟩ := after
    cases result with
    | some result => exact Ownership.Leaves.pure rfl
    | none => exact ih p

theorem leaves_useAll (uses : List Use) (p : Opened) :
    handles.Leaves p.owned (useAll uses p) owned 0 := by
  induction uses generalizing p with
  | nil => exact Ownership.Leaves.pure rfl
  | cons use uses ih =>
    cases use with
    | attachUnb config =>
      exact Ownership.Leaves.bind (leaves_attachUnb p config) fun after => ih after.1
    | wait rounds =>
      exact Ownership.Leaves.bind (leaves_wait rounds p) fun after => ih after.1

/-! ## 7. In any run -/

variable (pid verifier)

/-- **`open` is all or nothing**: in any run of it, with whatever failures, each call has the
handles that it needs; when it returns, just the handles of the `PgPaw` are held, and none if it
returns an error. -/
theorem open_all_or_nothing (builder : Builder) (script : List (Await (Except Fault Answer))) :
    (∀ before op await after,
      ((openPgPaw pid verifier builder).run.play script).2 = before ++ (op, await) :: after →
        op.uses ≤ handles.held before) ∧
    ∀ result, ((openPgPaw pid verifier builder).run.play script).1 = some result →
      handles.held ((openPgPaw pid verifier builder).run.play script).2 =
        match result with
        | .ok p => p.owned
        | .error _ => 0 := by
  obtain ⟨huses, hheld⟩ := Ownership.Owns.run (leaves_openPgPaw builder) script
  refine ⟨huses, fun result hresult => ?_⟩
  rw [hheld result hresult]
  cases result <;> rfl

/-- **Nothing is lost and nothing given up twice**: of whatever is done with a `PgPaw` between
`open` and `shutdown`, each call has the handles that it needs, and in the end none is held. -/
theorem session_gives_back (builder : Builder) (uses : List Use)
    (script : List (Await (Except Fault Answer))) :
    (∀ before op await after,
      ((session pid verifier builder uses).run.play script).2 = before ++ (op, await) :: after →
        op.uses ≤ handles.held before) ∧
    ∀ result, ((session pid verifier builder uses).run.play script).1 = some result →
      handles.held ((session pid verifier builder uses).run.play script).2 = 0 := by
  have hsession : handles.Leaves 0 (session pid verifier builder uses) (fun _ => 0) 0 :=
    Ownership.Leaves.bind (leaves_openPgPaw builder) fun p =>
      Ownership.Leaves.bind (leaves_useAll uses p) fun p => leaves_shutdown p
  obtain ⟨huses, hheld⟩ := Ownership.Owns.run hsession script
  refine ⟨huses, fun result hresult => ?_⟩
  rw [hheld result hresult]
  cases result <;> rfl

end Open

/-! ## 8. What `shutdown` reports -/

/-- The calls of `shutdown` for its source. -/
def sourceOps (db : Nat) : SourceShutdown → List LifeOp
  | .replica replica => [.stopReplica replica, .stopCdc, .shutdown db]
  | .primary observer => [.stopCdc, .unlistenToken db observer.1 observer.2, .close db]

/-- The calls of `shutdown`. -/
def shutdownOps (p : Opened) : List LifeOp :=
  p.httpHandle.toList.map .stopServer ++ p.httpTask.toList.map .joinServer ++
    p.unb.map .shutdownTopology ++ sourceOps p.core.db p.core.state

/-- What is said of the failure of one of them: of some, nothing. -/
def reported : LifeOp → Fault → Option OpenError
  | .joinServer _, fault => some (.io fault)
  | .shutdownTopology _, fault | .close _, fault => some (lifecycle .shutdown fault)
  | .unlistenToken .., fault => some (.pglite fault)
  | _, _ => none

/-- And so of a call that was answered. -/
def reportedOf : LifeOp × Await (Except Fault Answer) → Option OpenError
  | (op, ⟨_, some (.error fault)⟩) => reported op fault
  | _ => none

/-- The first that is reported. -/
def firstReported (trace : Trace LifeOp (Except Fault Answer)) : Except OpenError Unit :=
  match trace.findSome? reportedOf with
  | some error => .error error
  | none => .ok ()

/-- A call more. -/
theorem firstReported_snoc (trace : Trace LifeOp (Except Fault Answer))
    (e : LifeOp × Await (Except Fault Answer)) :
    firstReported (trace ++ [e]) = keepFirst (firstReported trace)
      (match reportedOf e with | some error => .error error | none => .ok ()) := by
  unfold firstReported
  rw [List.findSome?_append]
  cases trace.findSome? reportedOf with
  | some error => rfl
  | none => cases h : reportedOf e <;> simp [h, keepFirst]

/-- The result so far is that of the calls so far. -/
def Reports (result : Except OpenError Unit) (trace : Trace LifeOp (Except Fault Answer)) : Prop :=
  result = firstReported trace

/-- What a call adds to the result. -/
def outcome (op : LifeOp) : Except Fault Answer → Except OpenError Unit
  | .ok _ => .ok ()
  | .error fault => (reported op fault).elim (.ok ()) .error

theorem Reports.snoc {result : Except OpenError Unit}
    {trace : Trace LifeOp (Except Fault Answer)} (h : Reports result trace) (op : LifeOp)
    {await : Await (Except Fault Answer)} {reply : Except Fault Answer}
    (hreply : await.reply = some reply) :
    Reports (keepFirst result (outcome op reply)) (trace ++ [(op, await)]) := by
  obtain ⟨performed, answer⟩ := await
  obtain rfl : answer = some reply := hreply
  rw [Reports, firstReported_snoc, ← h]
  cases reply with
  | ok answer => rfl
  | error fault => cases hreported : reported op fault <;> simp [reportedOf, outcome, hreported]

/-- A part of `shutdown`: it performs these calls whatever they are answered, and the result that
it returns is that of the calls so far. -/
def Sweeps (result : Except OpenError Unit) (p : Life (Except OpenError Unit))
    (ops : List LifeOp) : Prop :=
  Contract.Completes (Reports result) p.run ops
    (Contract.goingOn Reports fun (_ : Except OpenError (Except OpenError Unit)) _ => False)

section Report

variable {result : Except OpenError Unit} {op : LifeOp} {ops : List LifeOp}

theorem sweeps_pure : Sweeps result (pure result) [] := Contract.Completes.done fun _ h => h

/-- A call that goes into the result. -/
theorem completes_attempt {failure : Fault → OpenError}
    (hreported : ∀ fault, reported op fault = some (failure fault)) :
    Contract.Completes (Reports result) (Life.attempt (discard (Life.call op failure))).run [op]
      (Contract.goingOn (fun step => Reports (keepFirst result step))
        fun (_ : Except OpenError (Except OpenError Unit)) _ => False) := by
  have hcall : (Life.attempt (discard (Life.call op failure))).run =
      (fun reply => .ok (outcome op reply)) <$> Program.perform op := by
    refine congrArg (Program.call op) (funext fun reply => ?_)
    cases reply with
    | ok answer => rfl
    | error fault =>
      have houtcome : outcome op (.error fault) = .error (failure fault) := by
        rw [outcome, hreported]
        rfl
      exact congrArg (fun step => Program.done (Except.ok step)) houtcome.symm
  rw [hcall]
  exact Contract.Completes.map (Contract.Completes.perform
    fun before await reply h hreply => h.snoc op hreply)

theorem sweeps_attempt {failure : Fault → OpenError}
    {next : Except OpenError Unit → Life (Except OpenError Unit)}
    (hreported : ∀ fault, reported op fault = some (failure fault))
    (hnext : ∀ step, Sweeps (keepFirst result step) (next step) ops) :
    Sweeps result (Life.attempt (discard (Life.call op failure)) >>= next) (op :: ops) :=
  Contract.Completes.fallible_bind (completes_attempt hreported) hnext

/-- A call that does not. -/
theorem sweeps_ignore {next : Life (Except OpenError Unit)}
    (hreported : ∀ fault, reported op fault = none) (hnext : Sweeps result next ops) :
    Sweeps result (Life.ignore op >>= fun _ => next) (op :: ops) := by
  have hkeep (reply : Except Fault Answer) : keepFirst result (outcome op reply) = result := by
    cases reply with
    | ok answer => cases result <;> rfl
    | error fault =>
      rw [outcome, hreported]
      cases result <;> rfl
  have hfirst : Contract.Completes (Reports result) (Life.ignore op).run [op]
      (Contract.goingOn (fun _ => Reports result)
        fun (_ : Except OpenError Unit) _ => False) :=
    Contract.Completes.map (Contract.Completes.perform
      fun before await reply h hreply => hkeep reply ▸ h.snoc op hreply)
  exact Contract.Completes.fallible_bind hfirst fun _ => hnext

/-- The parts one after the other. -/
theorem Sweeps.bind {p : Life (Except OpenError Unit)} {ops' : List LifeOp}
    {next : Except OpenError Unit → Life (Except OpenError Unit)} (hp : Sweeps result p ops)
    (hnext : ∀ result, Sweeps result (next result) ops') :
    Sweeps result (p >>= next) (ops ++ ops') :=
  Contract.Completes.fallible_bind hp hnext

theorem sweeps_shutdownHttp (handle task : Option Nat) :
    Sweeps (.ok ()) (shutdownHttp handle task)
      (handle.toList.map .stopServer ++ task.toList.map .joinServer) := by
  have hjoin : Sweeps (.ok ()) (joinServer task) (task.toList.map .joinServer) := by
    cases task with
    | none => exact sweeps_pure
    | some server => exact completes_attempt fun _ => rfl
  cases handle with
  | none => exact hjoin
  | some server => exact sweeps_ignore (fun _ => rfl) hjoin

theorem sweeps_shutdownTopologies (unb : List Nat) (result : Except OpenError Unit) :
    Sweeps result (shutdownTopologies unb result) (unb.map .shutdownTopology) := by
  induction unb generalizing result with
  | nil => exact sweeps_pure
  | cons topology unb ih =>
    refine sweeps_attempt ?_ fun step => ih _
    exact fun _ => rfl

theorem sweeps_shutdownSource (db : Nat) (state : SourceShutdown)
    (result : Except OpenError Unit) :
    Sweeps result (shutdownSource db state result) (sourceOps db state) := by
  cases state with
  | replica replica =>
    exact sweeps_ignore (fun _ => rfl)
      (sweeps_ignore (fun _ => rfl) (sweeps_ignore (fun _ => rfl) sweeps_pure))
  | primary observer =>
    -- the two calls of the observer's `shutdown` are a block of their own
    have hsource : shutdownSource db (.primary observer) result = (do
        Life.ignore .stopCdc
        let step ← Life.attempt (discard
          (Life.call (.unlistenToken db observer.1 observer.2) .pglite))
        let step' ← Life.attempt (discard (Life.call (.close db) (lifecycle .shutdown)))
        return keepFirst (keepFirst result step) step') := by
      refine congrArg (Program.call _) (funext fun _ => congrArg (Program.call _) (funext ?_))
      rintro (_ | _) <;> rfl
    rw [hsource]
    refine sweeps_ignore (fun _ => rfl) (sweeps_attempt (fun _ => rfl) fun step => ?_)
    exact sweeps_attempt (fun _ => rfl) fun step => sweeps_pure

end Report

/-- **`shutdown` goes on past every failure**: however its calls are answered, it makes all of
them, and returns the error of the first that is reported. -/
theorem shutdown_goes_on (p : Opened) (awaits : List (Await (Except Fault Answer)))
    (hlength : awaits.length = (shutdownOps p).length)
    (hanswered : ∀ await ∈ awaits, await.reply.isSome) :
    (shutdown p).run.play awaits =
      (some (firstReported ((shutdownOps p).zip awaits)), (shutdownOps p).zip awaits) := by
  have hcompletes : Contract.Completes (Reports (.ok ())) (shutdown p).run
      (p.httpHandle.toList.map .stopServer ++ p.httpTask.toList.map .joinServer ++
        (p.unb.map .shutdownTopology ++ (sourceOps p.core.db p.core.state ++ [])))
      (fun (result : Except OpenError Unit) trace => result = firstReported trace) := by
    refine Contract.Completes.fallible_bind (sweeps_shutdownHttp p.httpHandle p.httpTask)
      fun result => ?_
    refine Contract.Completes.fallible_bind (sweeps_shutdownTopologies p.unb result)
      fun result => ?_
    refine Contract.Completes.fallible_bind
      (sweeps_shutdownSource p.core.db p.core.state result) fun result => ?_
    exact Contract.Completes.done fun _ h => h
  rw [List.append_nil, ← List.append_assoc] at hcompletes
  obtain ⟨result, hplay, rfl⟩ := hcompletes [] rfl awaits [] hlength hanswered
  rw [List.append_nil] at hplay
  exact hplay

/-- Where everything fails, the server's failure is what is reported. -/
theorem server_failure_reported :
    ((shutdown ⟨⟨⟨[], [], []⟩, 0, none, .primary ("", 1)⟩, some 2, some 2, [3, 4]⟩).run.play
      (List.replicate 7 ⟨true, some (.error ⟨.other, "broken pipe"⟩)⟩)).1 =
        some (.error (.io ⟨.other, "broken pipe"⟩)) := by
  rw [shutdown_goes_on _ _ rfl (by simp)]
  rfl

end PgPaw.Lifecycle
