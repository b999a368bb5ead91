import Aggregation.Text.Digits

/-! The fewest decimal digits that read back as a given double.

A finite double is `mantissa * 2 ^ exponent`. The reals that round to it form an interval around
it, whose ends belong to it exactly when the mantissa is even. `shortest` looks for a decimal in
that interval on grids of one, two, ... seventeen digits: the first grid with a hit has the fewest
digits, and of two hits on it the nearer one is taken. Where both are equally near, the caller
chooses by a `Tie`. All arithmetic is exact. -/
namespace Aggregation.Decimal

/-- A nonnegative finite double, taken apart. `narrow` marks a power of two whose lower
neighbour is only half as far away as its upper one. -/
structure Binary where
  mantissa : Nat
  exponent : Int
  narrow : Bool

/-- What the bits of a double say. -/
inductive Parts where
  | nan
  | infinite (negative : Bool)
  | finite (negative : Bool) (value : Binary)

/-- Sign, exponent and fraction fields of the interchange format. -/
def Parts.ofBits (bits : UInt64) : Parts :=
  let n := bits.toNat
  let negative := n / 9223372036854775808 == 1
  let field := n / 4503599627370496 % 2048
  let fraction := n % 4503599627370496
  if field == 2047 then
    if fraction == 0 then .infinite negative else .nan
  else if field == 0 then
    .finite negative ⟨fraction, -1074, false⟩
  else
    .finite negative
      ⟨4503599627370496 + fraction, (field : Int) - 1075, fraction == 0 && field != 1⟩

/-- A decimal `digits * 10 ^ exponent`. -/
structure Scaled where
  digits : Nat
  exponent : Int
  deriving DecidableEq

/-- Which of two equally near decimals is taken. -/
inductive Tie where
  | toEven
  | up
  deriving DecidableEq

/-- How many decimal digits a number has, zero having none. -/
def width (n : Nat) : Nat :=
  if n = 0 then 0 else (Text.decimal n).length

/-- The power of ten at or just below `mantissa * 2 ^ exponent`, for a positive mantissa. -/
def magnitude (b : Binary) : Int :=
  if 0 ≤ b.exponent then (width (b.mantissa * Nat.pow 2 b.exponent.toNat) : Int) - 1
  else
    let scale := Nat.pow 2 (-b.exponent).toNat
    if scale ≤ b.mantissa then (width (b.mantissa / scale) : Int) - 1
    else -(width ((scale + b.mantissa - 1) / b.mantissa - 1) : Int)

/-- The nearest decimal to `b` on the grid of multiples of `10 ^ grid`, if one of the two
neighbours of `b` on that grid reads back as `b`. -/
def onGrid (tie : Tie) (b : Binary) (grid : Int) : Option Nat :=
  let up := Nat.pow 2 (b.exponent - 2).toNat * Nat.pow 10 (-grid).toNat
  let unit := Nat.pow 2 (2 - b.exponent).toNat * Nat.pow 10 grid.toNat
  let middle := 4 * b.mantissa * up
  let low := (4 * b.mantissa - if b.narrow then 1 else 2) * up
  let high := (4 * b.mantissa + 2) * up
  let closed := b.mantissa % 2 == 0
  let inside (n : Nat) : Bool :=
    (low < n * unit || closed && low == n * unit) && (n * unit < high || closed && n * unit == high)
  let below := middle / unit
  let rest := middle - below * unit
  if inside below then
    if inside (below + 1) then
      if unit < 2 * rest || unit == 2 * rest && (tie == .up || below % 2 == 1) then some (below + 1)
      else some below
    else some below
  else if inside (below + 1) then some (below + 1)
  else none

/-- Trailing zeros of the digits moved into the exponent. -/
def trimmed : Nat → Nat → Int → Scaled
  | 0, digits, exponent => ⟨digits, exponent⟩
  | fuel + 1, digits, exponent =>
    if digits % 10 == 0 && digits != 0 then trimmed fuel (digits / 10) (exponent + 1)
    else ⟨digits, exponent⟩

/-- The first grid with a hit, from `digits` digits on, trying `tries` grids. -/
def search (tie : Tie) (b : Binary) (top : Int) : (tries : Nat) → (digits : Nat) → Scaled
  | 0, _ => ⟨b.mantissa, 0⟩
  | tries + 1, digits =>
    let grid := top - (digits : Int) + 1
    match onGrid tie b grid with
    | some n => trimmed 20 n grid
    | none => search tie b top tries (digits + 1)

/-- The decimal with the fewest digits that reads back as `b`. Seventeen always suffice. -/
def shortest (tie : Tie) (b : Binary) : Scaled :=
  if b.mantissa = 0 then ⟨0, 0⟩ else search tie b (magnitude b) 17 1

end Aggregation.Decimal
