import Winnow.Calendar.Date

/-!
# Instants

An instant of Coordinated Universal Time: whole seconds since
1970-01-01T00:00:00 and nanoseconds.  A leap second is the second before it
with 1 000 000 000 nanoseconds or more.
-/

namespace Winnow

/-- A time of day: seconds after midnight and nanoseconds. -/
structure Clock where
  seconds : Nat
  nanos : Nat
  deriving DecidableEq, Repr, Inhabited

/-- An instant in UTC. -/
structure Instant where
  seconds : Int
  nanos : Nat
  deriving DecidableEq, Repr, Inhabited

/-- Midnight. -/
def Clock.midnight : Clock := ⟨0, 0⟩

namespace Instant

open Winnow.Text

/-- Seconds of a day. -/
def dayLength : Int := 86400

/-- The instant of a date and a time of day. -/
def ofDateClock (date : Date) (clock : Clock) : Instant :=
  ⟨date.dayNumber * dayLength + clock.seconds, clock.nanos⟩

/-- Midnight at the start of a date. -/
def startOf (date : Date) : Instant := ofDateClock date Clock.midnight

/-- The date of the instant. -/
def date (t : Instant) : Date := ⟨t.seconds / dayLength⟩

/-- The time of day of the instant. -/
def clock (t : Instant) : Clock := ⟨(t.seconds % dayLength).toNat, t.nanos⟩

/-- Nanoseconds from which on a second is a leap second. -/
def leapNanos : Nat := 1000000000

/-- Order in time. -/
def order (a b : Instant) : Ordering :=
  match compare a.seconds b.seconds with
  | .eq => compare a.nanos b.nanos
  | o => o

/-- The clock reading moved by an offset; a leap second stays one. -/
def atOffset (t : Instant) (seconds : Int) : Instant := ⟨t.seconds + seconds, t.nanos⟩

/-- The instant some seconds later; moving away from a leap second leaves it. -/
def addSeconds (t : Instant) (seconds : Int) : Instant :=
  if t.nanos < leapNanos then ⟨t.seconds + seconds, t.nanos⟩
  else if 0 < seconds then ⟨t.seconds + seconds, t.nanos - leapNanos⟩
  else if seconds < 0 then ⟨t.seconds + 1 + seconds, t.nanos - leapNanos⟩
  else t

/-! ## Text -/

/-- Hours, minutes and seconds of the time of day; a leap second has second 60. -/
def clockText (t : Instant) : String :=
  let s := t.clock.seconds
  let leap := if t.nanos < leapNanos then 0 else 1
  Date.twoDigits (s / 3600) ++ ":" ++ Date.twoDigits (s / 60 % 60) ++ ":" ++
    Date.twoDigits (s % 60 + leap)

/-- The fraction of a second with 0, 3, 6 or 9 digits. -/
def fractionText (t : Instant) : String :=
  let n := t.nanos % leapNanos
  if n = 0 then ""
  else if n % 1000000 = 0 then "." ++ padZeros 3 (natText (n / 1000000))
  else if n % 1000 = 0 then "." ++ padZeros 6 (natText (n / 1000))
  else "." ++ padZeros 9 (natText n)

/-- Date and time of day in the interchange form, ending in `Z`. -/
def text (t : Instant) : String :=
  t.date.text ++ "T" ++ t.clockText ++ t.fractionText ++ "Z"

/-- Date and time of day to the second with a blank between them. -/
def plainText (t : Instant) : String := t.date.text ++ " " ++ t.clockText

end Instant
end Winnow
