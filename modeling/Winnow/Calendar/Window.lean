import Winnow.Text.Case
import Winnow.Text.Integer
import Winnow.Calendar.Date
import Winnow.Operator

/-!
# Relative windows

A window is a stretch of days named relative to today, such as this week or
the last 30 days.  `Window.days?` resolves it to the first day and the first
day after it.  Weeks begin on Monday and quarters in January, April, July and
October.
-/

namespace Winnow

/-- A calendar unit that windows are counted in. -/
inductive CalendarUnit where
  | week
  | month
  | quarter
  | year
  deriving DecidableEq, Repr

/-- A window relative to today. -/
inductive Window where
  | today
  | tomorrow
  | yesterday
  | this (unit : CalendarUnit)
  | next (unit : CalendarUnit)
  | last (unit : CalendarUnit)
  | nextDays (days : Nat)
  | lastDays (days : Nat)
  deriving DecidableEq, Repr

namespace CalendarUnit

/-- Name of the unit. -/
def name : CalendarUnit → String
  | .week => "week"
  | .month => "month"
  | .quarter => "quarter"
  | .year => "year"

/-- The first day of the unit a date lies in. -/
def start (unit : CalendarUnit) (date : Date) : Date :=
  match unit with
  | .week => date.weekStart
  | .month => ⟨Date.monthStart date.year date.month⟩
  | .quarter => ⟨Date.monthStart date.year ((date.month - 1) / 3 * 3 + 1)⟩
  | .year => ⟨Date.yearStart date.year⟩

/-- The day some units after a first day, if it is representable. -/
def move? (unit : CalendarUnit) (date : Date) (n : Int) : Option Date :=
  match unit with
  | .week => date.addDays? (7 * n)
  | .month => date.addMonths? n
  | .quarter => date.addMonths? (3 * n)
  | .year => date.addMonths? (12 * n)

end CalendarUnit

namespace Window

open Winnow.Text

/-! ## Tokens -/

/-- Lengths of the windows counted in days. -/
def spans : List Nat := [7, 14, 30, 60, 90, 365]

/-- Windows of the present and future, in the order they are offered. -/
def upcoming : List Window := [
  .today, .tomorrow, .this .week, .next .week, .this .month, .next .month,
  .this .quarter, .next .quarter, .this .year, .next .year
] ++ spans.map .nextDays

/-- Windows of the past, in the order they are offered. -/
def past : List Window := [
  .yesterday, .last .week, .last .month, .last .quarter, .last .year
] ++ spans.map .lastDays

/-- The token of a window. -/
def token : Window → String
  | .today => "today"
  | .tomorrow => "next_day"
  | .yesterday => "yesterday"
  | .this unit => "this_" ++ unit.name
  | .next unit => "next_" ++ unit.name
  | .last unit => "last_" ++ unit.name
  | .nextDays n => "next_" ++ natText n ++ "_days"
  | .lastDays n => "last_" ++ natText n ++ "_days"

/-- The label shown for a window. -/
def label (w : Window) : String := labelOf w.token

/-- A number of days between a lead and `_days`, if windows of that length exist. -/
def readSpan? (lead : String) (cs : List Char) : Option Nat := do
  let rest ← dropLead? lead.toList cs
  let digits ← dropTail? "_days".toList rest
  match readNat32 digits with
  | .ok n => if n ∈ spans then some n else none
  | .error _ => none

/-- The window a token names, in any case. -/
def ofToken? (s : String) : Option Window :=
  let s := lowerAscii (trim s)
  if s = "tomorrow" then some .tomorrow
  else match (upcoming ++ past).find? (fun w => w.token == s) with
    | some w => some w
    | none =>
      match readSpan? "next_" s.toList with
      | some n => some (.nextDays n)
      | none => (readSpan? "last_" s.toList).map .lastDays

/-- The window a token names, or the error that it names none. -/
def read (s : String) : Except CompileError Window :=
  match ofToken? s with
  | some w => .ok w
  | none =>
    .error (.invalidValue "" Operator.is.token ("unknown relative date '" ++ s ++ "'"))

/-! ## Families -/

/-- Whether the window lies in the past. -/
def isPast : Window → Bool
  | .yesterday | .last _ | .lastDays _ => true
  | _ => false

/-- The operator the window is a value of. -/
def operator (w : Window) : Operator := if w.isPast then .was else .is

/-- The windows that are values of an operator. -/
def ofOperator : Operator → List Window
  | .is => upcoming
  | .was => past
  | _ => []

/-! ## Days -/

/-- The first day of the window and the first day after it, if both are representable. -/
def days? (w : Window) (today : Date) : Option (Date × Date) :=
  let units (unit : CalendarUnit) (first last : Int) : Option (Date × Date) := do
    let start := unit.start today
    some (← unit.move? start first, ← unit.move? start last)
  let around (first last : Int) : Option (Date × Date) := do
    some (← today.addDays? first, ← today.addDays? last)
  match w with
  | .today => around 0 1
  | .tomorrow => around 1 2
  | .yesterday => around (-1) 0
  | .this unit => units unit 0 1
  | .next unit => units unit 1 2
  | .last unit => units unit (-1) 0
  | .nextDays n => around 0 (n + 1)
  | .lastDays n => around (-n) 1

end Window
end Winnow
