import Aggregation.Text.Digits

/-! JSON text, written without blanks.

Strings keep every character that needs no escape as it is. What must be escaped is the quote, the
backslash and the characters below U+0020, which have a two-character escape where JSON names one
and four hexadecimal digits otherwise. -/
namespace Aggregation.Json.Writer

/-- The escape of a character, where it needs one. -/
def escape? (c : Char) : Option (List Char) :=
  if c = '"' then some ['\\', '"']
  else if c = '\\' then some ['\\', '\\']
  else if Nat.ble 32 c.toNat then none
  else if c = '\n' then some ['\\', 'n']
  else if c = '\r' then some ['\\', 'r']
  else if c = '\t' then some ['\\', 't']
  else if c.toNat = 8 then some ['\\', 'b']
  else if c.toNat = 12 then some ['\\', 'f']
  else some ['\\', 'u', '0', '0', Text.hexDigit (c.toNat / 16), Text.hexDigit (c.toNat % 16)]

/-- A character as it stands inside a string. -/
def inString (c : Char) : List Char :=
  (escape? c).getD [c]

def quoted (cs : List Char) : List Char :=
  '"' :: cs.flatMap inString ++ ['"']

/-- Written values separated by commas. -/
def separated : List (List Char) → List Char
  | [] => []
  | item :: [] => item
  | item :: rest => item ++ ',' :: separated rest

/-- An array of written values. -/
def bracketed (items : List (List Char)) : List Char :=
  '[' :: separated items ++ [']']

/-- An object of named written values. -/
def braced (fields : List (String × List Char)) : List Char :=
  '\x7b' :: separated (fields.map fun (name, value) => quoted name.toList ++ ':' :: value) ++ ['\x7d']

/-- A string. -/
def string (s : String) : List Char :=
  quoted s.toList

/-- A string or `null`. -/
def stringOrNull : Option String → List Char
  | some s => string s
  | none => ['n', 'u', 'l', 'l']

/-- A truth value. -/
def bool : Bool → List Char
  | true => ['t', 'r', 'u', 'e']
  | false => ['f', 'a', 'l', 's', 'e']

end Aggregation.Json.Writer
