import Aggregation.Decimal.Shortest

/-! How a floating-point number is written.

The digits come from `shortest`; a `Layout` holds the choices a format makes about them. Two
formats are used: `Layout.json`, which falls back to an exponent for very large and very small
numbers and always shows that the number is a float, and `Layout.plain`, which writes every digit
positionally and drops an empty fraction. -/
namespace Aggregation.Decimal

/-- A format's choices. -/
structure Layout where
  /-- The powers of ten of the leading digit that are written positionally: from the first up to
  but not including the second. `none` writes every number positionally. -/
  positional : Option (Int × Int)
  /-- Whether an integral number keeps `.0` in positional notation. -/
  keepPoint : Bool
  /-- Which digits are taken if two choices are equally near. -/
  tie : Tie
  /-- What a NaN, a positive and a negative infinity are written as. -/
  nan : String
  infinity : String
  negativeInfinity : String

/-- JSON: positional from `1e-5` up to but not including `1e16`; a tie goes to the even digit; no
text for what is not finite. -/
def Layout.json : Layout := ⟨some (-5, 16), true, .toEven, "null", "null", "null"⟩

/-- Plain text: never an exponent; a tie goes up. -/
def Layout.plain : Layout := ⟨none, false, .up, "NaN", "inf", "-inf"⟩

/-- A decimal written positionally. -/
def positionalText (keepPoint : Bool) (s : Scaled) : List Char :=
  let ds := Text.decimal s.digits
  if 0 ≤ s.exponent then
    let whole := if s.digits = 0 then ds else ds ++ List.replicate s.exponent.toNat '0'
    if keepPoint then whole ++ ['.', '0'] else whole
  else
    let places := (-s.exponent).toNat
    let ds := Text.padded (places + 1) ds
    ds.take (ds.length - places) ++ '.' :: ds.drop (ds.length - places)

/-- A decimal written with one digit before the point and an explicitly signed exponent. -/
def exponentText (s : Scaled) : List Char :=
  let ds := Text.decimal s.digits
  let power := s.exponent + (ds.length : Int) - 1
  let mantissa := match ds with
    | d :: [] => [d]
    | d :: rest => d :: '.' :: rest
    | [] => []
  let sign := if power < 0 then '-' else '+'
  mantissa ++ 'e' :: sign :: Text.decimal power.natAbs

/-- The digits of a nonnegative finite double in a layout. -/
def Layout.binary (l : Layout) (b : Binary) : List Char :=
  let s := shortest l.tie b
  let power := s.exponent + ((Text.decimal s.digits).length : Int) - 1
  match l.positional with
  | none => positionalText l.keepPoint s
  | some (least, bound) =>
    if s.digits = 0 || least ≤ power && power < bound then positionalText l.keepPoint s
    else exponentText s

/-- The text of a double in a layout. -/
def Layout.text (l : Layout) (x : Float) : String :=
  match Parts.ofBits x.toBits with
  | .nan => l.nan
  | .infinite false => l.infinity
  | .infinite true => l.negativeInfinity
  | .finite false b => String.ofList (l.binary b)
  | .finite true b => String.ofList ('-' :: l.binary b)

/-- The integer part of a double, held to the range of a signed 64-bit integer; a NaN has none
and counts as zero. -/
def truncated (x : Float) : Int64 :=
  match Parts.ofBits x.toBits with
  | .nan => 0
  | .infinite false => Int64.maxValue
  | .infinite true => Int64.minValue
  | .finite negative b =>
    let size :=
      if 0 ≤ b.exponent then b.mantissa * Nat.pow 2 b.exponent.toNat
      else b.mantissa / Nat.pow 2 (-b.exponent).toNat
    if negative then
      if 9223372036854775808 ≤ size then Int64.minValue else Int64.ofInt (-(size : Int))
    else
      if 9223372036854775807 ≤ size then Int64.maxValue else Int64.ofInt size

end Aggregation.Decimal
