import Aggregation.Text.Digits

/-! Numbers as JSON text spells them, and what they denote.

A numeral without fraction and exponent that fits a signed 64-bit integer denotes that integer;
`-0` and every other numeral denote a double. The double is the first digits that fit 64 bits,
scaled by a power of ten; a numeral too large for a double denotes nothing. -/
namespace Aggregation.Json

/-- Sign, digits before the point, digits after it (none if there is no point) and the exponent. -/
structure Numeral where
  negative : Bool
  whole : List Char
  fraction : List Char
  exponent : Option Int
  deriving DecidableEq

namespace Numeral

/-- The integer spelled by a numeral without fraction and exponent. -/
def toInt? (n : Numeral) : Option Int :=
  if n.fraction.isEmpty && n.exponent.isNone then
    let size := Text.continued 0 n.whole
    some (if n.negative then -(size : Int) else size)
  else none

/-- The integer a numeral denotes, if it is one: `-0` is not. -/
def toInt64? (n : Numeral) : Option Int64 :=
  match n.toInt? with
  | some i =>
    if n.negative && i == 0 then none
    else if -9223372036854775808 ≤ i && i ≤ 9223372036854775807 then some (Int64.ofInt i)
    else none
  | none => none

/-! ### Doubles -/

/-- Take digits into a significand of at most 64 bits; the digits that do not fit are left. -/
def gather (significand : Nat) : List Char → Nat × List Char
  | [] => (significand, [])
  | c :: rest =>
    let next := 10 * significand + Text.digitValue c
    if next ≤ 18446744073709551615 then gather next rest else (significand, c :: rest)

/-- The significand of a numeral and the power of ten it is scaled by: digits before the point
that do not fit raise the power, digits after the point that do not fit are dropped. -/
def scaled (n : Numeral) : Nat × Int :=
  let (whole, beyond) := gather 0 n.whole
  let (significand, dropped) := gather whole n.fraction
  let taken := n.fraction.length - dropped.length
  (significand, (beyond.length : Int) - (taken : Int) + n.exponent.getD 0)

/-- A double times a power of ten, in one multiplication or division where the power is a double
itself, and by steps of `10 ^ 308` downward otherwise. `none` if the result is too large. -/
def scale : (steps : Nat) → Float → Int → Option Float
  | 0, x, _ => some x
  | steps + 1, x, power =>
    if power.natAbs ≤ 308 then
      if 0 ≤ power then
        let y := x * Float.ofScientific 1 false power.toNat
        if y.isInf then none else some y
      else some (x / Float.ofScientific 1 false (-power).toNat)
    else if x == 0 then some x
    else if 0 ≤ power then none
    else scale steps (x / Float.ofScientific 1 false 308) (power + 308)

/-- The double a numeral denotes. A significand of 64 bits is zero after three steps down. -/
def toFloat? (n : Numeral) : Option Float :=
  let (significand, power) := n.scaled
  match scale 8 (Float.ofNat significand) power with
  | some x => some (if n.negative then -x else x)
  | none => none

end Numeral

end Aggregation.Json
