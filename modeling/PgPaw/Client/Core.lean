/-
# `tanstack-db/src/core.ts`

`collectionOptionsFromSource` drives a collection from a source of frames.  `connect` consumes
one connection, `run` reconnects when it ends, and everything that reaches the collection is a
call of the five functions TanStack DB hands to `sync`.

The model keeps the calls in the order they are made; the rows of the collection are what the
calls make of them (`Sync.collection`).  A row is a finite map of fields, since nothing in
the file depends on their order.  `getKey` may throw, and so may the iteration over the rows of
a snapshot, which come out of a response body unchecked.
-/
import Mathlib.Data.Finmap
import PgPaw.Json
import PgPaw.Lib.Transition

namespace PgPaw.Client

/-! ## 1. Frames and calls -/

/-- `Record<string, any>`. -/
abbrev Row := Finmap fun _ : String => Json

/-- The rows of a collection, by key. -/
abbrev Rows := Finmap fun _ : String => Row

/-- `op` of a change. -/
inductive ChangeOp
  | insert
  | update
  | delete
  deriving DecidableEq, Repr

/-- `SyncFrame`.  The rows of a snapshot are absent when they are not an array. -/
inductive SyncFrame
  | snapshot (rows : Option (List Row)) (txid : Option Int)
  | change (op : ChangeOp) (row : Option Row) (key : Option String) (txid : Option Int)
  | upToDate (txid : Option Int)
  | reset (txid : Option Int)

def SyncFrame.txid : SyncFrame → Option Int
  | snapshot _ txid | change _ _ _ txid | upToDate txid | reset txid => txid

/-- `rowUpdateMode`: an update carries a row, or the fields to patch. -/
inductive RowUpdateMode
  | full
  | patch
  deriving DecidableEq, Repr

/-- `DriverCoreConfig`, without the source and the write handlers. -/
structure Config where
  /-- `String(config.getKey(row))`; absent when it throws. -/
  getKey : Row → Option String
  rowUpdateMode : RowUpdateMode

/-- `{ ...a, ...b }`. -/
def spread (a b : Row) : Row := b ∪ a

/-- The argument of `write`. -/
inductive Write
  | insert (value : Row)
  | update (value : Row)
  | delete (key : String)

/-- A call to the collection, or to the tracker of transaction ids. -/
inductive Call
  | record (txid : Int)
  | begin
  | write (message : Write)
  | commit
  | truncate
  | markReady

/-- What a write makes of the rows. -/
def Write.apply (config : Config) (rows : Rows) : Write → Rows
  | insert value => match config.getKey value with
    | some key => rows.insert key value
    | none => rows
  | update value => match config.getKey value with
    | some key => rows.insert key (match config.rowUpdateMode, rows.lookup key with
      | .patch, some old => spread old value
      | _, _ => value)
    | none => rows
  | delete key => rows.erase key

/-- What a call makes of the rows. -/
def Call.apply (config : Config) (rows : Rows) : Call → Rows
  | write message => message.apply config rows
  | truncate => ∅
  | record _ | begin | commit | markReady => rows

/-- And a sequence of calls. -/
def applyCalls (config : Config) (calls : List Call) (rows : Rows) : Rows :=
  calls.foldl (Call.apply config) rows

theorem applyCalls_append (config : Config) (calls calls' : List Call) (rows : Rows) :
    applyCalls config (calls ++ calls') rows =
      applyCalls config calls' (applyCalls config calls rows) :=
  List.foldl_append

/-! ## 2. `sync` -/

/-- A value of `pending`. -/
inductive PendingOp
  | upsert (value : Row)
  | delete

/-- A `Map` in insertion order. -/
abbrev Pending := List (String × PendingOp)

/-- `pending.set(key, op)`: a key that is there keeps its place. -/
def setPending : Pending → String → PendingOp → Pending
  | [], key, op => [(key, op)]
  | (key', op') :: pending, key, op =>
    if key' = key then (key, op) :: pending else (key', op') :: setPending pending key op

/-- The variables of `sync`, and `pending` of the connection. -/
structure Driver where
  seen : Finset String
  signalledReady : Bool
  pending : Pending

/-- How the body of the loop over the frames is left. -/
inductive Exit
  | next
  | returned
  | threw
  deriving DecidableEq, Repr

/-- What the body of the loop does. -/
structure Handled where
  driver : Driver
  calls : List Call
  exit : Exit

/-- `ready`. -/
def ready (driver : Driver) : Driver × List Call :=
  if driver.signalledReady then (driver, [])
  else ({ driver with signalledReady := true }, [.markReady])

/-- The loop of `applyRows`: the keys added to `seen`, the writes, and whether it finished. -/
def writeRows (config : Config) : List Row → Finset String → Finset String × List Call × Bool
  | [], seen => (seen, [], true)
  | row :: rows, seen => match config.getKey row with
    | some key =>
      let (seen, calls, done) := writeRows config rows (insert key seen)
      (seen, .write (.insert row) :: calls, done)
    | none => (seen, [.write (.insert row)], false)

/-- `applyRows`, and `ready` after it. -/
def applyRows (config : Config) (driver : Driver) (rows : Option (List Row)) : Handled :=
  match rows with
  | none => ⟨{ driver with seen := ∅ }, [.begin], .threw⟩
  | some rows => match writeRows config rows ∅ with
    | (seen, calls, true) =>
      let (driver, readyCalls) := ready { driver with seen := seen }
      ⟨driver, .begin :: calls ++ [.commit] ++ readyCalls, .next⟩
    | (seen, calls, false) => ⟨{ driver with seen := seen }, .begin :: calls, .threw⟩

/-- The loop of `flush`. -/
def flushPending : Pending → Finset String → Finset String × List Call
  | [], seen => (seen, [])
  | (key, .upsert value) :: pending, seen =>
    let (seen', calls) := flushPending pending (insert key seen)
    (seen', .write (if key ∈ seen then .update value else .insert value) :: calls)
  | (key, .delete) :: pending, seen =>
    if key ∈ seen then
      let (seen', calls) := flushPending pending (seen.erase key)
      (seen', .write (.delete key) :: calls)
    else flushPending pending seen

/-- `flush`. -/
def flush (driver : Driver) : Driver × List Call :=
  if driver.pending.isEmpty then (driver, [])
  else
    let (seen, calls) := flushPending driver.pending driver.seen
    ({ driver with seen := seen, pending := [] }, .begin :: calls ++ [.commit])

/-- `String(frame.key)`. -/
def keyText (key : Option String) : String := key.getD "undefined"

/-- The key of an insert or an update; absent when `getKey` throws. -/
def upsertKey (config : Config) (row : Option Row) (key : Option String) : Option String :=
  match row with
  | some row => config.getKey row
  | none => some (keyText key)

/-- The case of an insert or an update. -/
def mergeUpsert (pending : Pending) (key : String) (row : Option Row) : Pending :=
  setPending pending key (.upsert (match pending.lookup key with
    | some (.upsert value) => spread value (row.getD ∅)
    | _ => row.getD ∅))

/-- A delete that carries the row: it gives way to an upsert of the same batch. -/
def mergeDelete (pending : Pending) (key : String) : Pending :=
  match pending.lookup key with
  | some (.upsert _) => pending
  | _ => setPending pending key .delete

/-- The `switch` on `frame.op`. -/
def handleChange (config : Config) (driver : Driver) (op : ChangeOp) (row : Option Row)
    (key : Option String) : Handled :=
  match op, row with
  | .insert, row | .update, row => match upsertKey config row key with
    | some key => ⟨{ driver with pending := mergeUpsert driver.pending key row }, [], .next⟩
    | none => ⟨driver, [], .threw⟩
  | .delete, none =>
    ⟨{ driver with pending := setPending driver.pending (keyText key) .delete }, [], .next⟩
  | .delete, some row => match config.getKey row with
    | some key => ⟨{ driver with pending := mergeDelete driver.pending key }, [], .next⟩
    | none => ⟨driver, [], .threw⟩

/-- The body of the loop, after the transaction id is recorded. -/
def handleFrame (config : Config) (driver : Driver) : SyncFrame → Handled
  | .snapshot rows _ => applyRows config driver rows
  | .upToDate _ => let (driver, calls) := flush driver; ⟨driver, calls, .next⟩
  | .reset _ =>
    ⟨{ driver with pending := [], seen := ∅ }, [.begin, .truncate, .commit], .returned⟩
  | .change op row key _ => handleChange config driver op row key

/-! ## 3. `run` -/

/-- A call of `sync`: its variables, whether it is in `connect`, and the calls it has made. -/
structure Sync where
  driver : Driver
  connected : Bool
  stopped : Bool
  calls : List Call

namespace Sync

/-- What the collection holds. -/
def collection (config : Config) (sync : Sync) : Rows := applyCalls config sync.calls ∅

/-- Before the first connection. -/
def new : Sync := ⟨⟨∅, false, []⟩, false, false, []⟩

end Sync

/-- What can happen next. -/
inductive Action
  /-- `connect` is called. -/
  | connect
  /-- The source yields a frame. -/
  | frame (frame : SyncFrame)
  /-- The source is exhausted. -/
  | done
  /-- The source throws. -/
  | fail
  /-- The cleanup function is called. -/
  | stop

/-- Leaving `connect` by an exception: the `catch` of `run`. -/
def Sync.caught (sync : Sync) : Sync :=
  let (driver, calls) := ready sync.driver
  { sync with driver := driver, connected := false, calls := sync.calls ++ calls }

/-- The loop body on a frame. -/
def Sync.onFrame (config : Config) (sync : Sync) (frame : SyncFrame) : Sync :=
  let handled := handleFrame config sync.driver frame
  let sync := { sync with
    driver := handled.driver
    calls := sync.calls ++ frame.txid.toList.map Call.record ++ handled.calls }
  match handled.exit with
  | .next => sync
  | .returned => { sync with connected := false }
  | .threw => sync.caught

/-- `connect` and `run`, action by action. -/
def step (config : Config) (sync : Sync) : Action → Option Sync
  | .connect =>
    if sync.connected || sync.stopped then none
    else some { sync with connected := true, driver := { sync.driver with pending := [] } }
  | .frame frame => if sync.connected then some (sync.onFrame config frame) else none
  | .done => if sync.connected then some { sync with connected := false } else none
  | .fail => if sync.connected then some sync.caught else none
  | .stop => some { sync with stopped := true }

end PgPaw.Client
