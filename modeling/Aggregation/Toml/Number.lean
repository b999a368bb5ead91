import Aggregation.Decimal.Reading
import Aggregation.Toml.Text

/-! Numbers and dates in TOML.

Digits may be separated by single underscores, and a decimal integer has no leading zero. A number
that starts like a date is one, and then the date must exist. -/
namespace Aggregation.Toml
open Text (isDigit)

/-! ### Digits -/

/-- More digits, each perhaps after an underscore; an underscore must be followed by one. -/
def moreDigits (p : Char → Bool) : List Char → Option (List Char × List Char)
  | '_' :: c :: rest =>
    if p c then (moreDigits p rest).map fun (ds, rest) => (c :: ds, rest) else none
  | '_' :: [] => none
  | c :: rest =>
    if p c then (moreDigits p rest).map fun (ds, rest) => (c :: ds, rest) else some ([], c :: rest)
  | [] => some ([], [])

/-- At least one digit. -/
def someDigits (p : Char → Bool) : List Char → Option (List Char × List Char)
  | c :: rest =>
    if p c then (moreDigits p rest).map fun (ds, rest) => (c :: ds, rest) else none
  | [] => none

/-- A zero alone, or digits that start with no zero. -/
def wholeDigits : List Char → Option (List Char × List Char)
  | '0' :: rest => some (['0'], rest)
  | cs => someDigits isDigit cs

/-- An optional sign. -/
def sign : List Char → Bool × List Char
  | '-' :: rest => (true, rest)
  | '+' :: rest => (false, rest)
  | cs => (false, cs)

/-! ### Integers -/

/-- The value of digits in a base, if it is at most a signed 64-bit integer. -/
def inBase (base : Nat) (ds : List Char) : Option Int :=
  let n := (ds.filterMap Text.hexValue?).foldl (fun n v => base * n + v) 0
  if n ≤ 9223372036854775807 then some n else none

def isHex (c : Char) : Bool :=
  (Text.hexValue? c).isSome

def isOctal (c : Char) : Bool :=
  isDigit c && Nat.blt c.toNat 56

def isBinary (c : Char) : Bool :=
  c == '0' || c == '1'

def marked (base : Nat) (p : Char → Bool) (cs : List Char) : Option (Int × List Char) :=
  match someDigits p cs with
  | some (ds, rest) => (inBase base ds).map fun n => (n, rest)
  | none => none

def integer (cs : List Char) : Option (Int × List Char) :=
  match cs with
  | '0' :: 'x' :: rest => marked 16 isHex rest
  | '0' :: 'o' :: rest => marked 8 isOctal rest
  | '0' :: 'b' :: rest => marked 2 isBinary rest
  | _ =>
    let (negative, rest) := sign cs
    match wholeDigits rest with
    | none => none
    | some (ds, rest) =>
      let size : Int := Text.continued 0 ds
      let n := if negative then -size else size
      if -9223372036854775808 ≤ n && n ≤ 9223372036854775807 then some (n, rest) else none

/-! ### Floats -/

/-- The exponent after its letter. -/
def exponent (cs : List Char) : Option (Int × List Char) :=
  let (negative, rest) := sign cs
  (someDigits isDigit rest).map fun (ds, rest) =>
    let size : Int := Text.continued 0 ds
    (if negative then -size else size, rest)

def startsExponent : List Char → Bool
  | c :: _ => c == 'e' || c == 'E'
  | [] => false

/-- What a float that is not a number word says, if it is one at all; inside, nothing if it is
malformed or too large. -/
def float? (cs : List Char) : Option (Option (List Char)) :=
  let (negative, rest) := sign cs
  match wholeDigits rest with
  | none => none
  | some (whole, rest) =>
    let finish (fraction : List Char) (power : Int) (rest : List Char) : Option (List Char) :=
      let x := Decimal.nearest (Text.continued 0 (whole ++ fraction)) (power - (fraction.length : Int))
      if x.isInf && !negative then none else some rest
    let tail (fraction rest : List Char) : Option (List Char) :=
      if startsExponent rest then
        (exponent (rest.drop 1)).bind fun (power, rest) => finish fraction power rest
      else finish fraction 0 rest
    match rest with
    | '.' :: rest =>
      some ((someDigits isDigit rest).bind fun (fraction, rest) => tail fraction rest)
    | _ => if startsExponent rest then some (tail [] rest) else none

/-- What follows an infinity or a NaN. -/
def floatWord? (cs : List Char) : Option (List Char) :=
  match (sign cs).2 with
  | 'i' :: 'n' :: 'f' :: rest => some rest
  | 'n' :: 'a' :: 'n' :: rest => some rest
  | _ => none

/-! ### Dates and times -/

/-- A number of exactly so many digits. -/
def fixed (width : Nat) (cs : List Char) : Option (Nat × List Char) :=
  let ds := cs.take width
  if ds.length == width && ds.all isDigit then some (Text.continued 0 ds, cs.drop width) else none

def expect (mark : Char) : List Char → Option (List Char)
  | c :: rest => if c == mark then some rest else none
  | [] => none

/-- The days of a month, none if there is no such month. -/
def monthDays (year month : Nat) : Nat :=
  match month with
  | 2 => if year % 4 == 0 && (year % 100 != 0 || year % 400 == 0) then 29 else 28
  | 4 => 30
  | 6 => 30
  | 9 => 30
  | 11 => 30
  | n => if 1 ≤ n && n ≤ 12 then 31 else 0

/-- Whether a date starts here: four digits and a hyphen. -/
def startsDate (cs : List Char) : Bool :=
  match fixed 4 cs with
  | some (_, '-' :: _) => true
  | _ => false

/-- Whether a time starts here: two digits and a colon. -/
def startsTime (cs : List Char) : Bool :=
  match fixed 2 cs with
  | some (hour, ':' :: _) => decide (hour ≤ 23)
  | _ => false

/-- What follows a date that exists. -/
def date (cs : List Char) : Option (List Char) := do
  let (year, cs) ← fixed 4 cs
  let (month, cs) ← fixed 2 (← expect '-' cs)
  let (day, cs) ← fixed 2 (← expect '-' cs)
  if 1 ≤ day && day ≤ monthDays year month then some cs else none

/-- What follows a time of day. -/
def time (cs : List Char) : Option (List Char) := do
  let (hour, cs) ← fixed 2 cs
  let (minute, cs) ← fixed 2 (← expect ':' cs)
  let (second, cs) ← fixed 2 (← expect ':' cs)
  if 23 < hour || 59 < minute || 60 < second then none
  else
    match cs with
    | '.' :: rest =>
      let ds := rest.takeWhile isDigit
      if ds.isEmpty then some cs else some (rest.drop ds.length)
    | _ => some cs

/-- What follows an optional offset. -/
def offset (cs : List Char) : Option (List Char) :=
  match cs with
  | 'Z' :: rest => some rest
  | 'z' :: rest => some rest
  | c :: rest =>
    if c == '+' || c == '-' then do
      let (hour, rest) ← fixed 2 rest
      let (minute, rest) ← fixed 2 (← expect ':' rest)
      if hour ≤ 23 && minute ≤ 59 then some rest else none
    else some cs
  | [] => some cs

/-- What follows a date, a time or both, if one starts here; inside, nothing if it is malformed. -/
def moment? (cs : List Char) : Option (Option (List Char)) :=
  if startsDate cs then
    some ((date cs).bind fun rest =>
      match rest with
      | c :: after =>
        if (c == 'T' || c == 't' || c == ' ') && startsTime after then (time after).bind offset
        else some rest
      | [] => some rest)
  else if startsTime cs then some (time cs)
  else none

end Aggregation.Toml
