import Aggregation.Text.Digits

/-! Reading the decimal text of a double.

The text is an optional sign, digits with at most one point among them, and an optional exponent;
or a sign and the name of an infinity or of a NaN, in any case of letters. The double is the one
nearest to what the text says. -/
namespace Aggregation.Decimal
open Text (spanDigits)

/-- The double nearest to `digits * 10 ^ power`. -/
def nearest (digits : Nat) (power : Int) : Float :=
  let reach := power + ((Text.decimal digits).length : Int)
  if digits = 0 || reach < -400 then 0
  else if 400 < reach then 1 / 0
  else if 0 ≤ power then Float.ofScientific (digits * Nat.pow 10 power.toNat) false 0
  else Float.ofScientific digits true (-power).toNat

/-- An exponent and nothing else; none at all counts as zero. -/
def exponent? (cs : List Char) : Option Int :=
  match cs with
  | [] => some 0
  | c :: rest =>
    if c == 'e' || c == 'E' then
      match rest with
      | '-' :: ds => (Text.natural? ds).map fun n => -(n : Int)
      | '+' :: ds => (Text.natural? ds).map fun n => (n : Int)
      | ds => (Text.natural? ds).map fun n => (n : Int)
    else none

/-- Digits around an optional point, then an exponent. -/
def magnitude? (cs : List Char) : Option Float :=
  let (whole, rest) := spanDigits cs
  let (fraction, rest) := match rest with
    | '.' :: rest => spanDigits rest
    | _ => ([], rest)
  if whole.isEmpty && fraction.isEmpty then none
  else (exponent? rest).map fun e =>
    nearest (Text.continued 0 (whole ++ fraction)) (e - (fraction.length : Int))

/-- The double that a text says. -/
def ofText? (text : String) : Option Float :=
  let (negative, cs) := match text.toList with
    | '-' :: rest => (true, rest)
    | '+' :: rest => (false, rest)
    | cs => (false, cs)
  let name := String.ofList (cs.map Char.toLower)
  let size :=
    if name == "inf" || name == "infinity" then some (1 / 0)
    else if name == "nan" then some (0 / 0)
    else magnitude? cs
  size.map fun x => if negative then -x else x

end Aggregation.Decimal
