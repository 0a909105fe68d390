/-
# `tanstack-db/src/index.ts`: the source of a PgPaw collection

`source` turns the events `readSse` yields into the frames `connect` consumes.  An event is what
`JSON.parse` returned, so its fields are looked at without a check.
-/
import PgPaw.Capability.Frame
import PgPaw.Client.Core

namespace PgPaw.Client

open Transition

/-- What `source` calls. -/
structure Source where
  /-- The rows behind the URL of a public snapshot; absent when the request or its body throws. -/
  fetch : Json → Option Json
  /-- `String(value)`, of a value that is no string. -/
  text : Json → String

/-- The fields of a row.  A value that is no object has none. -/
def toRow : Json → Row
  | .object fields => (fields.map fun field => (⟨field.1, field.2⟩ : (_ : String) × Json)).toFinmap
  | _ => ∅

/-- The iteration over `rows ?? []`. -/
def toRows : Option Json → Option (List Row)
  | none | some .null => some []
  | some (.array items) => some (items.map toRow)
  | some (.string text) => some (text.toList.map fun _ => toRow (.string text))
  | some _ => none

/-- Whether a value counts as true. -/
def truthy : Json → Bool
  | .null => false
  | .bool b => b
  | .number (.integer n) => n != 0
  | .number (.float text) => !(["0.0", "-0.0"].contains text)
  | .string text => text != ""
  | .array _ | .object _ => true

/-- `String(value)`. -/
def Source.string (source : Source) : Json → String
  | .string text => text
  | other => source.text other

/-- `typeof event.txid === "number" ? event.txid : undefined`. -/
def txidOf (event : Json) : Option Int :=
  match event.get "txid" with
  | some (.number (.integer n)) => some n
  | _ => none

/-- The `op` of a change frame. -/
def changeOp : String → Option ChangeOp
  | "insert" => some .insert
  | "update" => some .update
  | "delete" => some .delete
  | _ => none

/-- The body of the loop of `source`: what it yields, or nothing where it throws. -/
def sourceFrames (source : Source) (event : Json) : Option (List SyncFrame) :=
  let txid := txidOf event
  if event.get "type" = some (.string "snapshot") then
    match (event.get "url").filter truthy with
    | some url => (source.fetch url).map fun rows => [.snapshot (toRows (some rows)) txid]
    | none => some [.snapshot (toRows (event.get "rows")) txid]
  else match event.get "op" with
    | some (.string name) => match changeOp name with
      | some op => some
          [.change op ((event.get "row").map toRow) ((event.get "key").map source.string) txid]
      | none =>
        if name = "up-to-date" then some [.upToDate txid]
        else if name = "reset" then some [.reset txid]
        else some []
    | _ => some []

/-- What an event does to `connect`. -/
def actions (source : Source) (event : Json) : List Action :=
  match sourceFrames source event with
  | some frames => frames.map .frame
  | none => [.fail]

/-- The calls of `sync`. -/
def system (config : Config) : System Sync Action where
  init := (· = Sync.new)
  step := step config

/-- The client, given some events one after the other. -/
def receive (config : Config) (source : Source) (sync : Sync) (events : List Json) : Option Sync :=
  (system config).run sync (events.flatMap (actions source))

/-- The operation of a change. -/
def opOf : Delta → ChangeOp
  | .insert _ _ => .insert
  | .update _ _ => .update
  | .delete _ _ => .delete

/-- A change the hub encoded, as `connect` sees it. -/
theorem actions_delta (source : Source) (d : Delta) (txid : Nat) :
    actions source (Live.Event.delta d txid).payload =
      [.frame (.change (opOf d) (some (toRow d.carried)) (some d.key) (some txid))] := by
  cases d <;> rfl

end PgPaw.Client
