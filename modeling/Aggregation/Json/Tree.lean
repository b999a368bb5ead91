import Aggregation.Json.Numeral

/-! JSON values as a text spells them.

Fields keep their written order and repeated names are kept. A string is `none` where its escapes
spell no Unicode text, that is, where half of a surrogate pair stands alone: such a text is still
grammatical, and it is for whoever reads the value to refuse it. -/
namespace Aggregation

inductive Json where
  | null
  | bool (b : Bool)
  | number (n : Json.Numeral)
  | string (s : Option String)
  | array (items : List Json)
  | object (fields : List (Option String × Json))

namespace Json

/-! ### Nesting -/

mutual
/-- How many arrays and objects stand around the innermost value. -/
def depth : Json → Nat
  | .array items => depthItems items + 1
  | .object fields => depthFields fields + 1
  | .null => 0
  | .bool _ => 0
  | .number _ => 0
  | .string _ => 0

def depthItems : List Json → Nat
  | [] => 0
  | item :: rest => Nat.max item.depth (depthItems rest)

def depthFields : List (Option String × Json) → Nat
  | [] => 0
  | (_, value) :: rest => Nat.max value.depth (depthFields rest)
end

/-- The deepest nesting that a text may have. -/
def depthLimit : Nat := 127

/-! ### Views -/

def text? : Json → Option String
  | .string s => s
  | _ => none

def items? : Json → Option (List Json)
  | .array items => some items
  | _ => none

/-- The fields of an object, if every name is Unicode text. -/
def fields? : Json → Option (List (String × Json))
  | .object fields => fields.mapM fun (name, value) => name.map fun name => (name, value)
  | _ => none

end Json

end Aggregation
