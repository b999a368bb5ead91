import Aggregation.Clock.Timestamp
import Aggregation.Text.Blank

/-! Reading the text of an instant.

The reader takes more than it is written: blanks may stand before numbers, before separators and
at the end, months to seconds may have one digit, the date and the time may be separated by a
space, and the offset may be `Z`, `UTC` or signed hours and minutes. What it names must exist: a
date of the calendar, an hour below 24, minutes below 60, seconds up to 60 and an offset of less
than a day. -/
namespace Aggregation.Timestamp.Reader
open Clock
open Text (isBlank isDigit trimStart)

/-- A run of one to `width` digits after blanks. -/
def number (width : Nat) (cs : List Char) : Option (Nat × List Char) :=
  let cs := trimStart cs
  let digits := (cs.take width).takeWhile isDigit
  if digits.isEmpty then none else some (Text.continued 0 digits, cs.drop digits.length)

/-- A year: any number of digits after a sign, four at most without one. -/
def year (cs : List Char) : Option (Int × List Char) :=
  match trimStart cs with
  | '-' :: c :: rest =>
    if isDigit c then
      (number (rest.length + 1) (c :: rest)).map fun (n, rest) => (-(n : Int), rest)
    else none
  | '+' :: c :: rest =>
    if isDigit c then
      (number (rest.length + 1) (c :: rest)).map fun (n, rest) => ((n : Int), rest)
    else none
  | cs => (number 4 cs).map fun (n, rest) => ((n : Int), rest)

/-- A separator after blanks. -/
def separator (mark : Char) (cs : List Char) : Option (List Char) :=
  match trimStart cs with
  | c :: rest => if c = mark then some rest else none
  | [] => none

/-- The nanoseconds after a point, if there is one; digits beyond the ninth are skipped. -/
def fraction : List Char → Option (Nat × List Char)
  | '.' :: rest =>
    let digits := rest.takeWhile isDigit
    if digits.isEmpty then none
    else
      let kept := digits.take 9
      some (Text.continued 0 kept * Nat.pow 10 (9 - kept.length), rest.dropWhile isDigit)
  | cs => some (0, cs)

/-- Signed hours and minutes, in seconds. -/
def signedOffset (negative : Bool) : List Char → Option (Int × List Char)
  | h1 :: h2 :: rest =>
    match rest.dropWhile fun c => c == ':' || isBlank c with
    | m1 :: m2 :: rest =>
      if isDigit h1 && isDigit h2 && isDigit m1 && isDigit m2 then
        let hours := Text.continued 0 [h1, h2]
        let minutes := Text.continued 0 [m1, m2]
        if hours < 24 && minutes < 60 then
          let size : Int := (hours * 3600 + minutes * 60 : Nat)
          some (if negative then -size else size, rest)
        else none
      else none
    | _ => none
  | _ => none

/-- The offset from UTC in seconds. -/
def offset (cs : List Char) : Option (Int × List Char) :=
  match trimStart cs with
  | 'Z' :: rest => some (0, rest)
  | 'z' :: rest => some (0, rest)
  | '+' :: rest => signedOffset false rest
  | '-' :: rest => signedOffset true rest
  | '\u2212' :: rest => signedOffset true rest
  | u :: t :: c :: rest =>
    if u.toUpper == 'U' && t.toUpper == 'T' && c.toUpper == 'C' then some (0, rest) else none
  | _ => none

/-- The years that instants lie in, the last one excluded. -/
def years : Int × Int := (-262143, 262143)

/-- The instant of a date and a time of day at an offset, if there is one. -/
def instant? (date : Date) (hour minute second nanos : Nat) (offset : Int) : Option Timestamp := do
  let day ← dayOf? date
  guard (years.1 ≤ date.year && date.year < years.2)
  guard (hour < 24 && minute < 60 && second ≤ 60)
  let leap := second == 60
  let clock : Int := (hour * 3600 + minute * 60 + (if leap then 59 else second) : Nat)
  let civil := (day - epochDay) * 86400 + clock
  let seconds := civil - offset
  let first := (daysBefore years.1 - epochDay) * 86400
  let last := (daysBefore years.2 - epochDay) * 86400
  guard (first ≤ seconds && seconds < last)
  return ⟨seconds, if leap then nanos + 1000000000 else nanos⟩

/-- A date, a time of day and an offset. -/
def read (cs : List Char) : Option Timestamp := do
  let (year, cs) ← year cs
  let (month, cs) ← number 2 (← separator '-' cs)
  let (day, cs) ← number 2 (← separator '-' cs)
  let cs ← match cs with
    | c :: rest => if c == 'T' || c == 't' || c == ' ' then some rest else none
    | [] => none
  let (hour, cs) ← number 2 cs
  let (minute, cs) ← number 2 (← separator ':' cs)
  let (second, cs) ← number 2 (← separator ':' cs)
  let (nanos, cs) ← fraction cs
  let (offset, cs) ← offset cs
  guard (trimStart cs).isEmpty
  instant? ⟨year, month, day⟩ hour minute second nanos offset

end Reader

/-- The instant that a text names. -/
def parse? (text : String) : Option Timestamp :=
  Reader.read text.toList

end Aggregation.Timestamp
