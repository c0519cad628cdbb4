import Dataflow.Text.Quoted
import Dataflow.Value

/-!
# Values as text

Strings are quoted; vectors stand in square brackets and maps in braces, with their items
separated by a comma and a space.
-/

namespace Dataflow

mutual

/-- Text of a value. -/
def Value.text : Value → String
  | .null => "null"
  | .bool b => if b then "true" else "false"
  | .int _ n => toString n
  | .float kind bits => kind.text bits
  | .complex kind re im => kind.complexText re im
  | .string s => Text.quoted s
  | .vector items => "[" ++ ", ".intercalate (Value.itemTexts items) ++ "]"
  | .map entries => "\x7b" ++ ", ".intercalate (Value.entryTexts entries) ++ "\x7d"

/-- Texts of the items of a vector. -/
def Value.itemTexts : List Value → List String
  | [] => []
  | v :: rest => v.text :: Value.itemTexts rest

/-- Texts of the entries of a map, each a key, a colon and a value. -/
def Value.entryTexts : List (String × Value) → List String
  | [] => []
  | (k, v) :: rest => (k ++ ": " ++ v.text) :: Value.entryTexts rest

end

/-- Text of a property map. -/
def PropertyMap.text (m : PropertyMap) : String := (Value.map m).text

end Dataflow
