/-! Decimal digits: writing a natural number and reading one back.

`decimal` writes the shortest digit string of a number; `natural?` reads any nonempty run of
digits, leading zeros included, and `unsigned?` adds an optional plus sign and an upper limit. -/
namespace Aggregation.Text

/-! ### Single digits -/

def isDigit (c : Char) : Bool :=
  Nat.ble 48 c.toNat && Nat.ble c.toNat 57

/-- What a digit counts; only meant for digits. -/
def digitValue (c : Char) : Nat :=
  c.toNat - 48

/-- The digit of a number below ten. -/
def digit (n : Nat) : Char :=
  Char.ofNat (48 + n)

/-- What a hexadecimal digit counts, in either case of letter. -/
def hexValue? (c : Char) : Option Nat :=
  if isDigit c then some (c.toNat - 48)
  else if Nat.ble 97 c.toNat && Nat.ble c.toNat 102 then some (c.toNat - 87)
  else if Nat.ble 65 c.toNat && Nat.ble c.toNat 70 then some (c.toNat - 55)
  else none

/-- The lower-case hexadecimal digit of a number below sixteen. -/
def hexDigit (n : Nat) : Char :=
  if n < 10 then Char.ofNat (48 + n) else Char.ofNat (87 + n)

/-! ### Numbers -/

/-- The decimal digits of a number, most significant first. -/
def decimal (n : Nat) : List Char :=
  if n < 10 then [digit n] else decimal (n / 10) ++ [digit (n % 10)]

/-- The decimal text of a number. -/
def natText (n : Nat) : String :=
  String.ofList (decimal n)

/-- The decimal text of an integer. -/
def intText (n : Int) : String :=
  if n < 0 then "-" ++ natText n.natAbs else natText n.natAbs

/-- The lower-case hexadecimal digits of a number, most significant first. -/
def hexadecimal (n : Nat) : List Char :=
  if n < 16 then [hexDigit n] else hexadecimal (n / 16) ++ [hexDigit (n % 16)]

/-- Digits padded with zeros on the left to a width. -/
def padded (width : Nat) (cs : List Char) : List Char :=
  List.replicate (width - cs.length) '0' ++ cs

/-- The number that a run of digits continues, `n` being what was read before. -/
def continued (n : Nat) (cs : List Char) : Nat :=
  cs.foldl (fun n c => 10 * n + digitValue c) n

/-- A nonempty run of digits and nothing else. -/
def natural? (cs : List Char) : Option Nat :=
  if cs.isEmpty || !cs.all isDigit then none else some (continued 0 cs)

/-- A number of at most `limit`, after an optional plus sign. -/
def unsigned? (limit : Nat) (cs : List Char) : Option Nat :=
  let body := match cs with
    | '+' :: rest => rest
    | _ => cs
  match natural? body with
  | some n => if n ≤ limit then some n else none
  | none => none

/-- The leading digits of a text and what follows them. -/
def spanDigits (cs : List Char) : List Char × List Char :=
  (cs.takeWhile isDigit, cs.dropWhile isDigit)

end Aggregation.Text
