import Winnow.Calendar.Reader
import Winnow.Decimal.Reader
import Winnow.Json.Basic
import Winnow.Toml.Text

/-!
# Scalars of settings documents

The scalars of TOML that are no strings: truth values, whole numbers in four
bases, decimals, and dates and times, which are read as texts in one normal
form.  Underscores may part the digits of a number.
-/

namespace Winnow.Toml

open Winnow.Text

/-! ## Whole numbers -/

/-- The digits of a number without the underscores, each of which stands between two digits. -/
def ungroup? (isDigit : Char → Bool) : List Char → Option (List Char)
  | [] => none
  | [c] => if isDigit c then some [c] else none
  | c :: '_' :: rest => if isDigit c then (ungroup? isDigit rest).map (c :: ·) else none
  | c :: rest => if isDigit c then (ungroup? isDigit rest).map (c :: ·) else none

/-- Whether a character is a digit of a base up to 16. -/
def isDigitOf (base : Nat) (c : Char) : Bool :=
  match hexValue? c with
  | some d => d < base
  | none => false

/-- A whole number of 64 bits. -/
def wholeNumber? (n : Int) : Option Json := (Json.int64? (.integer n)).map .integer

/-- A whole number in a base. -/
def numberOf? (base : Nat) (cs : List Char) : Option Json := do
  let digits ← ungroup? (isDigitOf base) cs
  wholeNumber? (digits.foldl (fun n c => base * n + (hexValue? c).getD 0) 0 : Nat)

/-- The digits in front of a point; a zero stands alone. -/
def wholeDigits? (cs : List Char) : Option (List Char) := do
  let digits ← ungroup? isDigit cs
  if digits.head? = some '0' ∧ 1 < digits.length then none else some digits

/-- A whole number in base ten. -/
def integer? (cs : List Char) : Option Json := do
  let (negative, cs) := Decimal.takeSign cs
  let n : Int := natOfDigits (← wholeDigits? cs)
  wholeNumber? (if negative then -n else n)

/-! ## Decimals -/

/-- The words that are decimals. -/
def wordDecimal? (negative : Bool) (cs : List Char) : Option Decimal :=
  match String.ofList cs with
  | "inf" => some (.infinite negative)
  | "nan" => some .nan
  | _ => none

/-- The exponent after its mark. -/
def exponent? (cs : List Char) : Option Int := do
  let (negative, cs) := Decimal.takeSign cs
  let n : Int := natOfDigits (← ungroup? isDigit cs)
  some (if negative then -n else n)

/-- A decimal with a fraction or an exponent or both; one beyond the greatest is refused. -/
def writtenDecimal? (negative : Bool) (cs : List Char) : Option Decimal := do
  let isMark (c : Char) : Bool := c = 'e' || c = 'E'
  let (mantissa, mark) := cs.span fun c => !isMark c
  let exponent ← match mark with
    | _ :: rest => exponent? rest
    | [] => some 0
  let (whole, fraction) ← match cutFirst '.' mantissa with
    | some (whole, fraction) => do some (← wholeDigits? whole, ← ungroup? isDigit fraction)
    | none => if mark.isEmpty then none else do some (← wholeDigits? mantissa, [])
  match Decimal.ofScientific negative (natOfDigits (whole ++ fraction))
    (exponent - fraction.length) with
  | .infinite _ => none
  | x => some x

/-- A decimal. -/
def decimal? (cs : List Char) : Option Json :=
  let (negative, cs) := Decimal.takeSign cs
  (match wordDecimal? negative cs with
  | some x => some x
  | none => writtenDecimal? negative cs).map .decimal

/-! ## Dates and times -/

open Calendar in
/-- A date, and what follows. -/
def takeDate? (cs : List Char) : Option (String × List Char) := do
  let (year, rest) ← takeExactly? 4 cs
  let (month, rest) ← takeExactly? 2 (← takeFixed? '-' rest)
  let (day, rest) ← takeExactly? 2 (← takeFixed? '-' rest)
  some ((← Date.ofFields? year month day).text, rest)

/-- A fraction of a second in nanoseconds, with one digit at least. -/
def fractionText (nanos : Nat) : String :=
  let digits := (padZeros 9 (natText nanos)).toList.reverse.dropWhile (· = '0')
  "." ++ if digits.isEmpty then "0" else String.ofList digits.reverse

open Calendar in
/-- The seconds of a time of day, and what follows; a minute may have a leap second. -/
def takeSeconds? (cs : List Char) : Option (String × List Char) := do
  let (second, rest) ← takeExactly? 2 cs
  let (nanos, after) ← takeFraction? rest
  if 60 < second then none
  else
    let fraction := if after.length < rest.length then fractionText nanos else ""
    some (Date.twoDigits second ++ fraction, after)

open Calendar in
/-- A time of day, and what follows; it may have no seconds. -/
def takeTime? (cs : List Char) : Option (String × List Char) := do
  let (hour, rest) ← takeExactly? 2 cs
  let (minute, rest) ← takeExactly? 2 (← takeFixed? ':' rest)
  if 23 < hour ∨ 59 < minute then none
  else
    let time := Date.twoDigits hour ++ ":" ++ Date.twoDigits minute
    match rest with
    | ':' :: rest => do
      let (seconds, rest) ← takeSeconds? rest
      some (time ++ ":" ++ seconds, rest)
    | rest => some (time, rest)

open Calendar in
/-- An offset that ends a time. -/
def offsetText? : List Char → Option String
  | [] => some ""
  | ['Z'] | ['z'] => some "Z"
  | sign :: rest => do
    let (hours, rest) ← takeExactly? 2 rest
    let (minutes, rest) ← takeExactly? 2 (← takeFixed? ':' rest)
    if !rest.isEmpty ∨ 23 < hours ∨ 59 < minutes ∨ (sign ≠ '+' ∧ sign ≠ '-') then none
    else
      let sign := if hours = 0 ∧ minutes = 0 then '+' else sign
      some (String.singleton sign ++ Date.twoDigits hours ++ ":" ++ Date.twoDigits minutes)

/-- Whether a character parts a date from a time of day. -/
def isDateSeparator (c : Char) : Bool := c = 'T' || c = 't' || c = ' '

/-- A date, a time of day or both, with an offset only when it has both. -/
def dateTime? (cs : List Char) : Option String :=
  match takeDate? cs with
  | some (date, []) => some date
  | some (date, c :: rest) => do
    if !isDateSeparator c then none
    else
      let (time, rest) ← takeTime? rest
      some (date ++ "T" ++ time ++ (← offsetText? rest))
  | none =>
    match takeTime? cs with
    | some (time, []) => some time
    | _ => none

/-! ## Any scalar -/

/-- The characters of scalars without quotes. -/
def isScalarChar (c : Char) : Bool :=
  c.isAlphanum || c = '_' || c = '-' || c = '+' || c = '.' || c = ':'

/-- The characters of a scalar, and what follows; a blank parts a date from a time of day. -/
def takeScalar (cs : List Char) : List Char × List Char :=
  let (scalar, rest) := cs.span isScalarChar
  match takeDate? scalar, rest with
  | some (_, []), ' ' :: c :: rest =>
    if isDigit c then
      let (time, rest) := (c :: rest).span isScalarChar
      (scalar ++ ' ' :: time, rest)
    else (scalar, ' ' :: c :: rest)
  | _, rest => (scalar, rest)

/-- The value of a scalar without quotes. -/
def scalar? (cs : List Char) : Option Json :=
  match cs with
  | ['t', 'r', 'u', 'e'] => some (.bool true)
  | ['f', 'a', 'l', 's', 'e'] => some (.bool false)
  | '0' :: 'x' :: rest => numberOf? 16 rest
  | '0' :: 'o' :: rest => numberOf? 8 rest
  | '0' :: 'b' :: rest => numberOf? 2 rest
  | cs => (integer? cs).or ((decimal? cs).or ((dateTime? cs).map .string))

end Winnow.Toml
