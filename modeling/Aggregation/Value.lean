import Aggregation.Bag
import Aggregation.Decimal.Layout
import Aggregation.Json.Writer

/-! Values carried in a message's properties and payload.

A value is null, a truth value, a 64-bit integer, a double, a string, an array or a map. The
entries of a map are kept in order; `Distinct` says that no map at any depth repeats a name, which
holds of every value that `ofEntries` and the reader build. -/
namespace Aggregation

inductive Value where
  | null
  | bool (b : Bool)
  | int (n : Int64)
  | float (x : Float)
  | str (s : String)
  | array (items : List Value)
  | map (entries : List (String × Value))

namespace Value

/-- A map from entries set one after the other. -/
def ofEntries (entries : List (String × Value)) : Value :=
  .map (Entries.ofList entries)

/-! ### Views -/

def typeName : Value → String
  | .null => "null"
  | .bool _ => "bool"
  | .int _ => "int"
  | .float _ => "float"
  | .str _ => "str"
  | .array _ => "array"
  | .map _ => "map"

def isNull : Value → Bool
  | .null => true
  | _ => false

/-- An integer, or the integer part of a double. -/
def int? : Value → Option Int64
  | .int n => some n
  | .float x => some (Decimal.truncated x)
  | _ => none

/-- A double, or the double nearest to an integer. -/
def float? : Value → Option Float
  | .float x => some x
  | .int n => some n.toFloat
  | _ => none

def str? : Value → Option String
  | .str s => some s
  | _ => none

def bool? : Value → Option Bool
  | .bool b => some b
  | _ => none

/-- The value a map holds under a name. -/
def get? (v : Value) (name : String) : Option Value :=
  match v with
  | .map entries => Entries.get? name entries
  | _ => none

/-! ### Equality

Values of different kinds are never equal, doubles are compared as numbers (so a NaN differs from
itself), arrays item by item and maps without regard to order. -/

mutual
def eq : Value → Value → Bool
  | .null, .null => true
  | .bool a, .bool b => a == b
  | .int a, .int b => a == b
  | .float a, .float b => a == b
  | .str a, .str b => a == b
  | .array as, .array bs => eqItems as bs
  | .map as, .map bs => as.length == bs.length && eqEntries as bs
  | _, _ => false

def eqItems : List Value → List Value → Bool
  | [], [] => true
  | a :: as, b :: bs => a.eq b && eqItems as bs
  | _, _ => false

/-- Whether each entry is found with an equal value among other entries. -/
def eqEntries : List (String × Value) → List (String × Value) → Bool
  | [], _ => true
  | (name, a) :: as, bs =>
    (match Entries.get? name bs with
      | some b => a.eq b
      | none => false) && eqEntries as bs
end

/-! ### Text -/

mutual
/-- Plain text: strings stand in quotes without escapes, the names of a map stand bare. -/
def plain : Value → List Char
  | .null => ['n', 'u', 'l', 'l']
  | .bool b => Json.Writer.bool b
  | .int n => (Text.intText n.toInt).toList
  | .float x => (Decimal.Layout.plain.text x).toList
  | .str s => '"' :: s.toList ++ ['"']
  | .array items => '[' :: plainItems items ++ [']']
  | .map entries => '\x7b' :: plainEntries entries ++ ['\x7d']

def plainItems : List Value → List Char
  | [] => []
  | item :: rest =>
    match rest with
    | [] => item.plain
    | _ :: _ => item.plain ++ ',' :: ' ' :: plainItems rest

def plainEntries : List (String × Value) → List Char
  | [] => []
  | (name, value) :: rest =>
    match rest with
    | [] => name.toList ++ ':' :: ' ' :: value.plain
    | _ :: _ => name.toList ++ ':' :: ' ' :: value.plain ++ ',' :: ' ' :: plainEntries rest
end

def text (v : Value) : String :=
  String.ofList v.plain

mutual
/-- JSON text; a double that is not finite is `null`. -/
def written : Value → List Char
  | .null => ['n', 'u', 'l', 'l']
  | .bool b => Json.Writer.bool b
  | .int n => (Text.intText n.toInt).toList
  | .float x => (Decimal.Layout.json.text x).toList
  | .str s => Json.Writer.string s
  | .array items => Json.Writer.bracketed (writtenItems items)
  | .map entries => Json.Writer.braced (writtenEntries entries)

def writtenItems : List Value → List (List Char)
  | [] => []
  | item :: rest => item.written :: writtenItems rest

def writtenEntries : List (String × Value) → List (String × List Char)
  | [] => []
  | (name, value) :: rest => (name, value.written) :: writtenEntries rest
end

def json (v : Value) : String :=
  String.ofList v.written

/-! ### Distinct names -/

mutual
/-- No map at any depth repeats a name. -/
def Distinct : Value → Prop
  | .array items => DistinctItems items
  | .map entries => (Entries.names entries).Nodup ∧ DistinctEntries entries
  | _ => True

def DistinctItems : List Value → Prop
  | [] => True
  | item :: rest => item.Distinct ∧ DistinctItems rest

def DistinctEntries : List (String × Value) → Prop
  | [] => True
  | (_, value) :: rest => value.Distinct ∧ DistinctEntries rest
end

end Value

end Aggregation
