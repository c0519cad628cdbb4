import Dataflow.Value.Text

/-!
# Tags

A tag attaches a property map to one sample of a stream. Its index is relative: to the chunk it
travels with, or, inside a stream, to the first sample ever written.
-/

namespace Dataflow

/-- Metadata attached to the sample at `index`. -/
structure Tag where
  index : Int
  map : PropertyMap

namespace Tag

/-- The value of a key that must be present. -/
def get (t : Tag) (key : String) : Except ValueError Value := t.map.require key

/-- The value of a key, if it is present. -/
def get? (t : Tag) (key : String) : Option Value := Dictionary.get? t.map key

/-- Give a key a value, replacing an earlier one. -/
def insert (t : Tag) (key : String) (value : Value) : Tag :=
  { t with map := Dictionary.insert t.map key value }

/-- The same tag moved by `offset` samples. -/
def shift (t : Tag) (offset : Int) : Tag := { t with index := t.index + offset }

/-- Whether a tag may come before another in the order of indices. -/
def precedes (t u : Tag) : Bool := t.index ≤ u.index

/-- Equality of tags, numbers in the map being compared as numbers. -/
def same (t u : Tag) : Bool := t.index = u.index && t.map.same u.map

/-- A tag as a value: a map of its index and its map. -/
def toValue (t : Tag) : Value :=
  .map [("index", .int .i64 t.index), ("map", .map t.map)]

/-- Read a tag back from a value; keys other than those of `toValue` are passed over. -/
def ofValue (v : Value) : Except ValueError Tag := do
  let fields ← v.asMap
  let index ← (← fields.require "index").asInt .i64
  let map ← (← fields.require "map").asMap
  return ⟨index, map⟩

/-- Text of a tag, such as `Tag[2] {a: 1}`. -/
def text (t : Tag) : String := "Tag[" ++ toString t.index ++ "] " ++ t.map.text

end Tag

end Dataflow
