import Aggregation.Json.Tree

/-! Reading JSON text.

The reader follows the grammar: blanks are space, tab, line feed and carriage return; a string
holds no unescaped control character; a number has no leading zero. Nothing may follow the value
but blanks. How deep a text may nest, how large a number may be and whether a string must be
Unicode text is not the grammar's concern. -/
namespace Aggregation.Json.Reader
open Text (isDigit spanDigits)

def isBlank (c : Char) : Bool :=
  c == ' ' || c == '\n' || c == '\t' || c == '\r'

def skip (cs : List Char) : List Char :=
  cs.dropWhile isBlank

/-! ### Strings -/

/-- What one place of a string spells: a character, or one half of a surrogate pair. -/
inductive Piece where
  | char (c : Char)
  | high (bits : Nat)
  | low (bits : Nat)

/-- The piece of a four-digit escape. -/
def Piece.ofUnit (unit : Nat) : Piece :=
  if 0xD800 ≤ unit && unit < 0xDC00 then .high (unit - 0xD800)
  else if 0xDC00 ≤ unit && unit < 0xE000 then .low (unit - 0xDC00)
  else .char (Char.ofNat unit)

/-- The characters of a string, a high half directly followed by a low half being one. -/
def joined? : List Piece → Option (List Char)
  | [] => some []
  | .char c :: rest => (joined? rest).map (c :: ·)
  | .high h :: .low l :: rest =>
    (joined? rest).map (Char.ofNat (0x10000 + 1024 * h + l) :: ·)
  | .high _ :: _ => none
  | .low _ :: _ => none

/-- The character of a two-character escape. -/
def escaped? (c : Char) : Option Char :=
  if c == '"' || c == '\\' || c == '/' then some c
  else if c == 'n' then some '\n'
  else if c == 't' then some '\t'
  else if c == 'r' then some '\r'
  else if c == 'b' then some (Char.ofNat 8)
  else if c == 'f' then some (Char.ofNat 12)
  else none

def unit? (a b c d : Char) : Option Nat :=
  match Text.hexValue? a, Text.hexValue? b, Text.hexValue? c, Text.hexValue? d with
  | some a, some b, some c, some d => some (((a * 16 + b) * 16 + c) * 16 + d)
  | _, _, _, _ => none

/-- The pieces up to the closing quote, and what follows it. -/
def pieces : List Char → Option (List Piece × List Char)
  | [] => none
  | '"' :: rest => some ([], rest)
  | '\\' :: 'u' :: a :: b :: c :: d :: rest =>
    match unit? a b c d, pieces rest with
    | some unit, some (ps, rest) => some (Piece.ofUnit unit :: ps, rest)
    | _, _ => none
  | '\\' :: e :: rest =>
    match escaped? e, pieces rest with
    | some c, some (ps, rest) => some (.char c :: ps, rest)
    | _, _ => none
  | c :: rest =>
    if c == '\\' || c.toNat < 32 then none
    else
      match pieces rest with
      | some (ps, rest) => some (.char c :: ps, rest)
      | none => none

/-- The rest of a string after its opening quote. -/
def string (cs : List Char) : Option (Option String × List Char) :=
  match pieces cs with
  | some (ps, rest) => some ((joined? ps).map String.ofList, rest)
  | none => none

/-! ### Numbers -/

/-- The digits before the point: a single zero, or a run that starts with no zero. -/
def whole (cs : List Char) : Option (List Char × List Char) :=
  match spanDigits cs with
  | ([], _) => none
  | ('0' :: _ :: _, _) => none
  | found => some found

/-- A point and at least one digit, if there is a point. -/
def fraction : List Char → Option (List Char × List Char)
  | '.' :: rest =>
    match spanDigits rest with
    | ([], _) => none
    | found => some found
  | cs => some ([], cs)

/-- The digits of an exponent after its letter and sign. -/
def power (negative : Bool) (cs : List Char) : Option (Option Int × List Char) :=
  match spanDigits cs with
  | ([], _) => none
  | (ds, rest) =>
    let size := Text.continued 0 ds
    some (some (if negative then -(size : Int) else size), rest)

/-- A letter, an optional sign and at least one digit, if there is a letter. -/
def exponent : List Char → Option (Option Int × List Char)
  | [] => some (none, [])
  | c :: rest =>
    if c == 'e' || c == 'E' then
      match rest with
      | '-' :: rest => power true rest
      | '+' :: rest => power false rest
      | _ => power false rest
    else some (none, c :: rest)

def unsigned (negative : Bool) (cs : List Char) : Option (Numeral × List Char) := do
  let (whole, rest) ← whole cs
  let (fraction, rest) ← fraction rest
  let (exponent, rest) ← exponent rest
  return (⟨negative, whole, fraction, exponent⟩, rest)

def number : List Char → Option (Numeral × List Char)
  | '-' :: rest => unsigned true rest
  | cs => unsigned false cs

/-! ### Values -/

mutual
/-- One value after blanks. Each level of nesting and each further item or field takes one unit
of fuel; twice the length of the text always suffices. -/
def value : (fuel : Nat) → List Char → Option (Json × List Char)
  | 0, _ => none
  | fuel + 1, cs =>
    match skip cs with
    | 'n' :: 'u' :: 'l' :: 'l' :: rest => some (.null, rest)
    | 't' :: 'r' :: 'u' :: 'e' :: rest => some (.bool true, rest)
    | 'f' :: 'a' :: 'l' :: 's' :: 'e' :: rest => some (.bool false, rest)
    | '"' :: rest =>
      match string rest with
      | some (s, rest) => some (.string s, rest)
      | none => none
    | '[' :: rest =>
      match skip rest with
      | ']' :: rest => some (.array [], rest)
      | rest =>
        match items fuel rest with
        | some (vs, rest) => some (.array vs, rest)
        | none => none
    | '\x7b' :: rest =>
      match skip rest with
      | '\x7d' :: rest => some (.object [], rest)
      | rest =>
        match fields fuel rest with
        | some (fs, rest) => some (.object fs, rest)
        | none => none
    | rest =>
      match number rest with
      | some (n, rest) => some (.number n, rest)
      | none => none

/-- The items of an array up to its closing bracket. -/
def items : (fuel : Nat) → List Char → Option (List Json × List Char)
  | 0, _ => none
  | fuel + 1, cs =>
    match value fuel cs with
    | none => none
    | some (v, rest) =>
      match skip rest with
      | ']' :: rest => some ([v], rest)
      | ',' :: rest =>
        match items fuel rest with
        | some (vs, rest) => some (v :: vs, rest)
        | none => none
      | _ => none

/-- The fields of an object up to its closing brace. -/
def fields : (fuel : Nat) → List Char → Option (List (Option String × Json) × List Char)
  | 0, _ => none
  | fuel + 1, cs =>
    match skip cs with
    | '"' :: rest =>
      match string rest with
      | none => none
      | some (name, rest) =>
        match skip rest with
        | ':' :: rest =>
          match value fuel rest with
          | none => none
          | some (v, rest) =>
            match skip rest with
            | '\x7d' :: rest => some ([(name, v)], rest)
            | ',' :: rest =>
              match fields fuel rest with
              | some (fs, rest) => some ((name, v) :: fs, rest)
              | none => none
            | _ => none
        | _ => none
    | _ => none
end

/-- The value of a whole text. -/
def document (cs : List Char) : Option Json :=
  match value (2 * cs.length + 2) cs with
  | some (v, rest) => if (skip rest).isEmpty then some v else none
  | none => none

end Reader

/-- The value a text spells, if it is JSON. -/
def parse? (text : String) : Option Json :=
  Reader.document text.toList

end Aggregation.Json
