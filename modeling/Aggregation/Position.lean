import Aggregation.Fault
import Aggregation.Text.Blank
import Aggregation.Text.Digits

/-! A message's place among the siblings of a fan-out, written `2/3`.

Only the total must be readable. The text is cut at its slashes: the second piece is the total,
the first the place, which is zero if it is no number, and further pieces do not count. -/
namespace Aggregation

structure Position where
  current : Nat
  total : Nat
  deriving DecidableEq

namespace Position

/-- The largest place and total. -/
def limit : Nat := 4294967295

def text (p : Position) : String :=
  String.ofList (Text.decimal p.current ++ '/' :: Text.decimal p.total)

/-- A number between blanks, after an optional plus sign. -/
def number? (cs : List Char) : Option Nat :=
  Text.unsigned? limit (Text.trim cs)

/-- The characters before the first slash. -/
def upToSlash (cs : List Char) : List Char :=
  cs.takeWhile (· != '/')

/-- The characters after the first slash, if there is one. -/
def afterSlash? (cs : List Char) : Option (List Char) :=
  match cs.dropWhile (· != '/') with
  | [] => none
  | _ :: rest => some rest

def parse? (text : String) : Option Position :=
  match afterSlash? text.toList with
  | none => none
  | some rest =>
    match number? (upToSlash rest) with
    | some total => some ⟨(number? (upToSlash text.toList)).getD 0, total⟩
    | none => none

/-- The position that a text spells. A text that spells none is at fault. -/
def read (text : String) : Except Fault Position :=
  match parse? text with
  | some p => .ok p
  | none => .error (.malformedSequence text)

end Position

end Aggregation
