import Aggregation.Value
import Aggregation.Json.Reader

/-! Reading a value from JSON.

A number that denotes a 64-bit integer is one, any other number is a double. Of a repeated name in
an object the last value counts, at the first position. A number too large for a double, a string
that is no Unicode text and nesting beyond the limit are refused. -/
namespace Aggregation.Value

mutual
def ofJson? : Json → Option Value
  | .null => some .null
  | .bool b => some (.bool b)
  | .number n =>
    match n.toInt64? with
    | some i => some (.int i)
    | none => n.toFloat?.map .float
  | .string s => s.map .str
  | .array items => (ofItems? items).map .array
  | .object fields => (ofFields? fields).map ofEntries

def ofItems? : List Json → Option (List Value)
  | [] => some []
  | item :: rest =>
    match ofJson? item, ofItems? rest with
    | some v, some vs => some (v :: vs)
    | _, _ => none

def ofFields? : List (Option String × Json) → Option (List (String × Value))
  | [] => some []
  | (name, value) :: rest =>
    match name, ofJson? value, ofFields? rest with
    | some name, some v, some vs => some ((name, v) :: vs)
    | _, _, _ => none
end

/-- The value a JSON text spells. -/
def parse? (text : String) : Option Value :=
  match Json.parse? text with
  | some tree => if tree.depth ≤ Json.depthLimit then ofJson? tree else none
  | none => none

end Aggregation.Value
