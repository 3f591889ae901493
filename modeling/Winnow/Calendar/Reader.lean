import Winnow.Bounds
import Winnow.Calendar.Instant

/-!
# Reading dates and times

A form is a list of items, each a number, a fixed character or any run of
blanks.  Blanks may stand before every number and numbers may have fewer
digits than usual; a year has at most four digits unless it has a sign.  The
interchange form of instants is read by a stricter grammar: fixed numbers of
digits, an optional fraction and an offset from UTC.
-/

namespace Winnow.Calendar

open Winnow.Text

/-! ## Numbers -/

/-- At most `most` digits in front as a number, at least one, and what follows. -/
def takeNumber? (most : Nat) (cs : List Char) : Option (Nat × List Char) :=
  let digits := (cs.takeWhile isDigit).take most
  if digits.isEmpty then none else some (natOfDigits digits, cs.drop digits.length)

/-- Exactly `count` digits in front as a number, and what follows. -/
def takeExactly? (count : Nat) (cs : List Char) : Option (Nat × List Char) :=
  let digits := (cs.takeWhile isDigit).take count
  if digits.length = count then some (natOfDigits digits, cs.drop count) else none

/-- A number of any length after its sign; its size is limited to 63 bits. -/
def takeLongNumber? (cs : List Char) : Option (Int × List Char) := do
  let (n, rest) ← takeNumber? cs.length cs
  if n ≤ Bounds.int64Max then some ((n : Int), rest) else none

/-- A year: up to four digits, or any number of them after a sign. -/
def takeYear? : List Char → Option (Int × List Char)
  | '-' :: rest => (takeLongNumber? rest).map fun (n, rest) => (-n, rest)
  | '+' :: rest => takeLongNumber? rest
  | cs => (takeNumber? 4 cs).map fun (n, rest) => ((n : Int), rest)

/-! ## Forms -/

/-- An item of a form. -/
inductive Item where
  | year
  | month
  | day
  | hour
  | minute
  | second
  | fixed (c : Char)
  | blanks
  deriving DecidableEq, Repr

/-- Fields read so far. -/
structure Fields where
  year : Int := 0
  month : Nat := 0
  day : Nat := 0
  hour : Nat := 0
  minute : Nat := 0
  second : Nat := 0
  nanos : Nat := 0
  deriving Repr

/-- Reads one item. -/
def takeItem? (item : Item) (f : Fields) (cs : List Char) : Option (Fields × List Char) :=
  let short := takeNumber? 2 (trimStartChars cs)
  match item with
  | .year => (takeYear? (trimStartChars cs)).map fun (n, rest) => ({ f with year := n }, rest)
  | .month => short.map fun (n, rest) => ({ f with month := n }, rest)
  | .day => short.map fun (n, rest) => ({ f with day := n }, rest)
  | .hour => short.map fun (n, rest) => ({ f with hour := n }, rest)
  | .minute => short.map fun (n, rest) => ({ f with minute := n }, rest)
  | .second => short.map fun (n, rest) => ({ f with second := n }, rest)
  | .fixed c => match cs with
    | x :: rest => if x = c then some (f, rest) else none
    | [] => none
  | .blanks => some (f, trimStartChars cs)

/-- Reads the items of a form one after another. -/
def takeItems? : List Item → Fields → List Char → Option (Fields × List Char)
  | [], f, cs => some (f, cs)
  | item :: items, f, cs => do
    let (f, cs) ← takeItem? item f cs
    takeItems? items f cs

/-- Reads a form that takes the whole text. -/
def readForm? (items : List Item) (cs : List Char) : Option Fields :=
  match takeItems? items {} cs with
  | some (f, []) => some f
  | _ => none

/-- The date of the fields. -/
def Fields.date? (f : Fields) : Option Date := Date.ofFields? f.year f.month f.day

/-- The time of day of the fields; second 60 is a leap second. -/
def Fields.clock? (f : Fields) : Option Clock :=
  if f.hour ≤ 23 ∧ f.minute ≤ 59 ∧ f.second ≤ 60 then
    let leap := f.second = 60
    some ⟨f.hour * 3600 + f.minute * 60 + (if leap then 59 else f.second),
      f.nanos + (if leap then Instant.leapNanos else 0)⟩
  else none

/-- The clock reading of the fields, taken as UTC. -/
def Fields.instant? (f : Fields) : Option Instant := do
  let date ← f.date?
  let clock ← f.clock?
  some (Instant.ofDateClock date clock)

/-- Year, month and day. -/
def dateForm : List Item := [.year, .fixed '-', .month, .fixed '-', .day]

/-- Hour and minute. -/
def minuteForm : List Item := [.hour, .fixed ':', .minute]

/-- Hour, minute and second. -/
def secondForm : List Item := minuteForm ++ [.fixed ':', .second]

/-! ## Dates and clock readings -/

/-- The characters that take the first `n` bytes of a text, if a character ends there. -/
def takeBytes? (n : Nat) : List Char → Option (List Char)
  | [] => if n = 0 then some [] else none
  | c :: rest =>
    if n = 0 then some []
    else if c.utf8Size ≤ n then (takeBytes? (n - c.utf8Size) rest).map (c :: ·)
    else none

/-- A date that takes the whole text. -/
def readWholeDate? (cs : List Char) : Option Date := (readForm? dateForm cs).bind Fields.date?

/-- A date alone, or one that takes the first ten bytes of the text. -/
def readDate? (s : String) : Option Date :=
  let cs := trimChars s.toList
  match readWholeDate? cs with
  | some date => some date
  | none => (takeBytes? 10 cs).bind readWholeDate?

/-- A time of day with or without seconds. -/
def readClock? (s : String) : Option Clock :=
  let read (items : List Item) := (readForm? items s.toList).bind Fields.clock?
  match read secondForm with
  | some clock => some clock
  | none => read minuteForm

/-- Forms of a date and a time of day, in the order they are tried. -/
def clockReadingForms : List (List Item) := [
  dateForm ++ [.blanks] ++ secondForm,
  dateForm ++ [.fixed 'T'] ++ secondForm,
  dateForm ++ [.blanks] ++ minuteForm,
  dateForm ++ [.fixed 'T'] ++ minuteForm
]

/-- A date and a time of day without an offset, as if it were UTC. -/
def readClockReading? (s : String) : Option Instant :=
  let cs := trimChars s.toList
  clockReadingForms.findSome? fun form => (readForm? form cs).bind Fields.instant?

/-! ## The interchange form -/

/-- A fixed character in front. -/
def takeFixed? (c : Char) : List Char → Option (List Char)
  | x :: rest => if x = c then some rest else none
  | [] => none

/-- The fraction of a second after a point, in nanoseconds; digits after the ninth are dropped. -/
def takeFraction? : List Char → Option (Nat × List Char)
  | '.' :: rest => do
    let (n, _) ← takeNumber? 9 rest
    let digits := rest.takeWhile isDigit
    some (n * Bounds.tenTo (9 - min 9 digits.length), rest.drop digits.length)
  | cs => some (0, cs)

/-- The separator of date and time of day. -/
def takeSeparator? : List Char → Option (List Char)
  | c :: rest => if c = 't' ∨ c = 'T' ∨ c = ' ' then some rest else none
  | [] => none

/-- An offset from UTC in seconds: `Z`, or a sign, two digits, a separator and two digits. -/
def takeOffset? (takeColon : List Char → Option (List Char)) :
    List Char → Option (Int × List Char)
  | c :: rest =>
    if c = 'Z' ∨ c = 'z' then some (0, rest)
    else if c = '+' ∨ c = '-' ∨ c.toNat = 0x2212 then do
      let (hours, rest) ← takeExactly? 2 rest
      let rest ← takeColon rest
      let (minutes, rest) ← takeExactly? 2 rest
      if 59 < minutes then none
      let size : Int := hours * 3600 + minutes * 60
      some (if c = '+' then size else -size, rest)
    else none
  | [] => none

/-- An offset of less than a day. -/
def offsetInRange (seconds : Int) : Bool := -86400 < seconds && seconds < 86400

/-- The instant of a clock reading at an offset. -/
def Fields.instantAt? (f : Fields) (offset : Int) : Option Instant := do
  if !offsetInRange offset then none
  let reading ← f.instant?
  let t := reading.atOffset (-offset)
  if t.date.inRange then some t else none

/-- Reads the interchange form with fixed numbers of digits. -/
def readStrict? (cs : List Char) : Option Instant := do
  let (year, cs) ← takeExactly? 4 cs
  let cs ← takeFixed? '-' cs
  let (month, cs) ← takeExactly? 2 cs
  let cs ← takeFixed? '-' cs
  let (day, cs) ← takeExactly? 2 cs
  let cs ← takeSeparator? cs
  let (hour, cs) ← takeExactly? 2 cs
  let cs ← takeFixed? ':' cs
  let (minute, cs) ← takeExactly? 2 cs
  let cs ← takeFixed? ':' cs
  let (second, cs) ← takeExactly? 2 cs
  let (nanos, cs) ← takeFraction? cs
  let (offset, cs) ← takeOffset? (takeFixed? ':') cs
  if !cs.isEmpty then none
  Fields.instantAt? ⟨year, month, day, hour, minute, second, nanos⟩ offset

/-- Reads the interchange form with blanks allowed between its parts. -/
def readRelaxed? (cs : List Char) : Option Instant := do
  let (f, cs) ← takeItems? [.year, .blanks, .fixed '-', .month, .blanks, .fixed '-', .day] {} cs
  let cs ← takeSeparator? cs
  let (f, cs) ← takeItems?
    [.hour, .blanks, .fixed ':', .minute, .blanks, .fixed ':', .second] f cs
  let (nanos, cs) ← takeFraction? cs
  let cs := trimStartChars cs
  let (offset, cs) ←
    if (cs.take 3).map Char.toLower = ['u', 't', 'c'] then some ((0 : Int), cs.drop 3)
    else takeOffset? (fun cs => some (cs.dropWhile fun c => c = ':' || isBlank c)) cs
  if !(trimStartChars cs).isEmpty then none
  Fields.instantAt? { f with nanos := nanos } offset

/-- An instant as it is stored: the interchange form, a clock reading taken as UTC, or a date at
midnight. -/
def readInstant? (s : String) : Option Instant :=
  match readStrict? (trimChars s.toList) with
  | some t => some t
  | none =>
    match readClockReading? s with
    | some t => some t
    | none => (readDate? s).map Instant.startOf

end Winnow.Calendar
