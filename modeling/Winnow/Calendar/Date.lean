import Winnow.Text.Blank

/-!
# Calendar dates

A date is the number of days since 1970-01-01 in the Gregorian calendar,
extended to all years; so dates are ordered and shifted like whole numbers.
`yearStart` and `monthStart` say where years and months begin, and the fields
of a date are read off by looking for the last beginning that is not after it.
Dates that are read from text or computed by a checked operation lie between
-262143-01-01 and +262142-12-31.
-/

namespace Winnow

/-- A calendar date: days since 1970-01-01. -/
structure Date where
  dayNumber : Int
  deriving DecidableEq, Repr, Inhabited

namespace Date

open Winnow.Text

/-! ## Years and months -/

/-- Leap years among the years 1 to `y`, counted downwards for earlier ones. -/
def leapYearsTo (y : Int) : Int := y / 4 - y / 100 + y / 400

/-- Whether the year has a 29th of February. -/
def isLeap (y : Int) : Bool := (y % 4 = 0 && y % 100 ≠ 0) || y % 400 = 0

/-- Day number of the first of January. -/
def yearStart (y : Int) : Int := 365 * (y - 1970) + leapYearsTo (y - 1) - 477

/-- Days of a month of a common year. -/
def commonMonthLength (m : Nat) : Nat :=
  [31, 28, 31, 30, 31, 30, 31, 31, 30, 31, 30, 31].getD (m - 1) 31

/-- Days of a month. -/
def monthLength (y : Int) (m : Nat) : Nat :=
  if m = 2 ∧ isLeap y then 29 else commonMonthLength m

/-- Days of a year before a month, months counted from 1. -/
def daysBeforeMonth (y : Int) (m : Nat) : Nat :=
  [0, 31, 59, 90, 120, 151, 181, 212, 243, 273, 304, 334].getD (m - 1) 334 +
    (if 2 < m ∧ isLeap y then 1 else 0)

/-- Day number of the first of a month. -/
def monthStart (y : Int) (m : Nat) : Int := yearStart y + daysBeforeMonth y m

/-- Day number of a day of a month. -/
def dayNumberOf (y : Int) (m d : Nat) : Int := monthStart y m + d - 1

/-! ## Fields -/

/-- The year of a date. -/
def year (date : Date) : Int :=
  let guess := 1970 + date.dayNumber * 400 / 146097
  if yearStart (guess + 1) ≤ date.dayNumber then guess + 1
  else if date.dayNumber < yearStart guess then guess - 1
  else guess

/-- The month of a date, from 1. -/
def month (date : Date) : Nat :=
  let y := date.year
  ((List.range 12).filter fun i => monthStart y (i + 1) ≤ date.dayNumber).length

/-- The day of the month of a date, from 1. -/
def day (date : Date) : Nat := (date.dayNumber - monthStart date.year date.month + 1).toNat

/-- Days since the last Monday. -/
def daysSinceMonday (date : Date) : Int := (date.dayNumber + 3) % 7

/-! ## Range -/

/-- First representable year. -/
def minYear : Int := -262143

/-- Last representable year. -/
def maxYear : Int := 262142

/-- Whether the date is representable. -/
def inRange (date : Date) : Bool :=
  decide (yearStart minYear ≤ date.dayNumber) && decide (date.dayNumber < yearStart (maxYear + 1))

/-- The date when it is representable. -/
def check (date : Date) : Option Date := if date.inRange then some date else none

/-- The date with the given fields, if there is one. -/
def ofFields? (y : Int) (m d : Nat) : Option Date :=
  if minYear ≤ y ∧ y ≤ maxYear ∧ 1 ≤ m ∧ m ≤ 12 ∧ 1 ≤ d ∧ d ≤ monthLength y m then
    some ⟨dayNumberOf y m d⟩
  else none

/-! ## Shifting -/

/-- The date some days later. -/
def shift (date : Date) (days : Int) : Date := ⟨date.dayNumber + days⟩

/-- The date some days later, if it is representable. -/
def addDays? (date : Date) (days : Int) : Option Date := (date.shift days).check

/-- The date some months later, at the end of the month when that month is shorter. -/
def addMonths? (date : Date) (months : Int) : Option Date :=
  let index := date.year * 12 + (date.month - 1 : Nat) + months
  let y := index / 12
  let m := (index % 12).toNat + 1
  ofFields? y m (min date.day (monthLength y m))

/-- The day after, if it is representable. -/
def next? (date : Date) : Option Date := date.addDays? 1

/-- The Monday of the week. -/
def weekStart (date : Date) : Date := date.shift (-date.daysSinceMonday)

/-! ## Text -/

/-- A year: four digits, or a sign and at least four digits outside 0 to 9999. -/
def yearText (y : Int) : String :=
  if 0 ≤ y ∧ y ≤ 9999 then padZeros 4 (natText y.toNat)
  else (if y < 0 then "-" else "+") ++ padZeros 4 (natText y.natAbs)

/-- Two digits. -/
def twoDigits (n : Nat) : String := padZeros 2 (natText n)

/-- The date as year, month and day. -/
def text (date : Date) : String :=
  yearText date.year ++ "-" ++ twoDigits date.month ++ "-" ++ twoDigits date.day

end Date
end Winnow
