/-
# `capability/diff.rs`

`keyed_map` turns a result body into a map from row keys to rows; `diff` compares two such
maps.  A `HashMap` is a finite map, and one walk over it an iteration in an order the hasher
picks: `diff` takes the two iterations the code happens to make.

`serde_json` and the standard hasher are a parameter.
-/
import PgPaw.Json
import PgPaw.Lib.MapDiff
import PgPaw.Text

namespace PgPaw

open MapDiff

/-- What `diff.rs` calls outside the repository. -/
structure Serde where
  /-- `serde_json::from_str::<Value>`. -/
  fromStr : String → Option Json
  /-- `Value::to_string`. -/
  toString : Json → String
  /-- `DefaultHasher` after one string was hashed into it. -/
  finish : String → Nat

/-- `HashMap<String, Value>`. -/
abbrev RowMap := Finmap fun _ : String => Json

/-- One walk over a `HashMap<String, Value>`. -/
abbrev RowIter := AList fun _ : String => Json

/-- `Delta`. -/
abbrev Delta := MapDiff.Delta String Json

/-- `value_key`. -/
def valueKey (serde : Serde) : Json → String
  | .string text => text
  | other => serde.toString other

/-- `row_hash`. -/
def rowHash (serde : Serde) (row : Json) : String := lowerHex (serde.finish (serde.toString row))

/-- The key `keyed_map` gives a row. -/
def rowKey (serde : Serde) (pk : Option String) (row : Json) : String :=
  match pk.bind row.get with
  | some value => valueKey serde value
  | none => rowHash serde row

/-- `keyed_map`. -/
def keyedMap (serde : Serde) (jsonArray : String) (pk : Option String) : RowMap :=
  match serde.fromStr jsonArray with
  | some (.array rows) => rows.foldl (fun map row => map.insert (rowKey serde pk row) row) ∅
  | _ => ∅

/-- `diff`: the loop over `next`, then the loop over `prev`. -/
def diff (prev next : RowIter) : List Delta := MapDiff.diff prev next

/-- **The changes `diff` lists turn one map into the other.** -/
theorem replay_diff (prev next : RowIter) :
    replay prev.toFinmap (diff prev next) = next.toFinmap := MapDiff.replay_diff prev next

end PgPaw
