/-
# The frames of `capability/live.rs`

What the hub sends to a subscriber is text: a `data:` field with a JSON object in it, and an
empty line.  `json!` builds the objects, whose keys `serde_json` keeps in order; the object of a
reset is written out in the source.
-/
import PgPaw.Capability.Live

namespace PgPaw.Live

open MapDiff

/-- The `op` of a change. -/
def op : Delta → String
  | .insert _ _ => "insert"
  | .update _ _ => "update"
  | .delete _ _ => "delete"

/-- A transaction id or a version. -/
def number (n : Nat) : Json := .number (.integer n)

/-- The object in the frame of an event. -/
def Event.payload : Event → Json
  | .snapshotRows rows version =>
    .object [("rows", rows), ("type", .string "snapshot"), ("version", number version)]
  | .snapshotUrl hash version => .object
      [("type", .string "snapshot"), ("url", .string ("/q/" ++ hash ++ "/" ++ decimal version)),
        ("version", number version)]
  | .delta d txid => .object
      [("key", .string d.key), ("op", .string (op d)), ("row", d.carried), ("txid", number txid)]
  | .upToDate txid => .object [("op", .string "up-to-date"), ("txid", number txid)]
  | .reset => .object [("op", .string "reset")]

/-- What `on_commit` sends to a subscriber: the changes, and that they are all. -/
def batch (deltas : List Delta) (txid : Nat) : List Event :=
  deltas.map (fun d => .delta d txid) ++ [.upToDate txid]

/-- The first frame of `LiveHub::subscribe`. -/
def first (serde : Serde) (snapshot : Json) : String :=
  "data: " ++ serde.toString snapshot ++ "\n\n"

/-- `encode`. -/
def encode (serde : Serde) (delta : Delta) (txid : Nat) : String :=
  "data: " ++ serde.toString (Event.delta delta txid).payload ++ "\n\n"

/-- `up_to_date`. -/
def upToDate (serde : Serde) (txid : Nat) : String :=
  "data: " ++ serde.toString (Event.upToDate txid).payload ++ "\n\n"

/-- `reset`. -/
def reset : String := "data: \x7b\"op\":\"reset\"\x7d\n\n"

/-- The frame of an event. -/
def Event.frame (serde : Serde) : Event → String
  | .snapshotRows rows version => first serde (Event.snapshotRows rows version).payload
  | .snapshotUrl hash version => first serde (Event.snapshotUrl hash version).payload
  | .delta d txid => encode serde d txid
  | .upToDate txid => Live.upToDate serde txid
  | .reset => Live.reset

/-- The text of the object in a frame. -/
def Event.text (serde : Serde) : Event → String
  | .reset => "\x7b\"op\":\"reset\"\x7d"
  | event => serde.toString event.payload

theorem frame_eq (serde : Serde) (event : Event) :
    event.frame serde = "data: " ++ event.text serde ++ "\n\n" := by
  cases event <;> rfl

end PgPaw.Live
