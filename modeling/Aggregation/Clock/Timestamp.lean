import Aggregation.Clock.Calendar
import Aggregation.Text.Digits

/-! Instants of civil time in UTC, and their RFC 3339 text.

A leap second is kept as the second before it with a thousand million nanoseconds or more, and
written as second 60. -/
namespace Aggregation

/-- Seconds since the start of 1970 and nanoseconds within the second. -/
structure Timestamp where
  seconds : Int
  nanos : Nat
  deriving DecidableEq

namespace Timestamp
open Clock

/-- The number of the first day of 1970. -/
def epochDay : Int := 719528

/-- The instant a number of milliseconds after the start of 2024. -/
def ofMillis (ms : Int) : Timestamp :=
  ⟨1704067200 + ms / 1000, (ms % 1000).toNat * 1000000⟩

/-! ### Text -/

/-- Four digits at least, signed outside the years 0 to 9999. -/
def yearText (year : Int) : List Char :=
  let digits := Text.padded 4 (Text.decimal year.natAbs)
  if 0 ≤ year && year ≤ 9999 then digits
  else (if year < 0 then '-' else '+') :: digits

def twoDigits (n : Nat) : List Char :=
  Text.padded 2 (Text.decimal n)

/-- The fraction of a second in no, three, six or nine digits: the fewest that lose nothing. -/
def fractionText (nanos : Nat) : List Char :=
  if nanos = 0 then []
  else if nanos % 1000000 = 0 then '.' :: Text.padded 3 (Text.decimal (nanos / 1000000))
  else if nanos % 1000 = 0 then '.' :: Text.padded 6 (Text.decimal (nanos / 1000))
  else '.' :: Text.padded 9 (Text.decimal nanos)

/-- Date, time of day and fraction, the fraction written by a given rule. -/
def civilText (fraction : Nat → List Char) (t : Timestamp) : List Char :=
  let date := dateOf (t.seconds / 86400 + epochDay)
  let clock := (t.seconds % 86400).toNat
  let second := clock % 60 + (if 1000000000 ≤ t.nanos then 1 else 0)
  yearText date.year ++ '-' :: twoDigits date.month ++ '-' :: twoDigits date.day ++
    'T' :: twoDigits (clock / 3600) ++ ':' :: twoDigits (clock / 60 % 60) ++
    ':' :: twoDigits second ++ fraction (t.nanos % 1000000000)

/-- The text that ends in `Z`. -/
def zulu (t : Timestamp) : List Char :=
  t.civilText fractionText ++ ['Z']

/-- The text that ends in the offset. -/
def rfc3339 (t : Timestamp) : List Char :=
  t.civilText fractionText ++ ['+', '0', '0', ':', '0', '0']

/-- The text with six digits of fraction, whatever they are. -/
def micros (t : Timestamp) : List Char :=
  t.civilText (fun nanos => '.' :: Text.padded 6 (Text.decimal (nanos / 1000))) ++ ['Z']

end Timestamp

end Aggregation
