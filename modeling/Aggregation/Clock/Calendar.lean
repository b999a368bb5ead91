/-! The Gregorian calendar, extended to all years.

Days are numbered from the first of January of year 0. `daysBefore` counts the days before a year
in closed form; the year of a day is guessed from the mean length of a year and corrected by at
most one. -/
namespace Aggregation.Clock

/-- A calendar date; months and days of the month count from one. -/
structure Date where
  year : Int
  month : Nat
  day : Nat
  deriving DecidableEq

def isLeap (year : Int) : Bool :=
  year % 4 == 0 && (year % 100 != 0 || year % 400 == 0)

/-- The lengths of the months of a year. -/
def monthLengths (leap : Bool) : List Nat :=
  [31, if leap then 29 else 28, 31, 30, 31, 30, 31, 31, 30, 31, 30, 31]

/-- The number of days before the first day of a year. -/
def daysBefore (year : Int) : Int :=
  365 * year + (year - 1) / 4 - (year - 1) / 100 + (year - 1) / 400 + 1

/-- The year that a day lies in. -/
def yearOf (day : Int) : Int :=
  let guess := day * 400 / 146097
  if day < daysBefore guess then guess - 1
  else if daysBefore (guess + 1) ≤ day then guess + 1
  else guess

/-- The month, from `month` on, and the day of the month that a count of days leads to. -/
def walkMonths (month : Nat) (days : Nat) : List Nat → Nat × Nat
  | [] => (month, days)
  | length :: rest => if days < length then (month, days) else walkMonths (month + 1) (days - length) rest

/-- The date of a day. -/
def dateOf (day : Int) : Date :=
  let year := yearOf day
  let (month, rest) := walkMonths 1 (day - daysBefore year).toNat (monthLengths (isLeap year))
  ⟨year, month, rest + 1⟩

/-- The number of a date's day, if the date exists. -/
def dayOf? (date : Date) : Option Int :=
  let lengths := monthLengths (isLeap date.year)
  match date.month with
  | 0 => none
  | month + 1 =>
    match lengths.drop month with
    | [] => none
    | length :: _ =>
      if 1 ≤ date.day && date.day ≤ length then
        some (daysBefore date.year + ((lengths.take month).foldl (· + ·) 0 : Nat) + (date.day : Int) - 1)
      else none

end Aggregation.Clock
