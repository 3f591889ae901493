import Winnow.Bounds
import Winnow.Decimal.Reader
import Winnow.Json.Basic

/-!
# Numbers of data documents

A number without point and exponent is whole when it fits 64 bits, with a sign
or without; any other number is a decimal.  A decimal is read in two steps:
its leading digits, as many as fit 64 bits, are rounded to a decimal, and that
decimal is scaled by a power of ten with one rounding per step.  The result
can differ from the nearest decimal in its last bit.
-/

namespace Winnow.Json

open Winnow.Text Winnow.Decimal

/-! ## The significand -/

/-- Adds digits to a significand while it fits 64 bits; gives the digits left over. -/
def gather (significand : Nat) : List Char → Nat × List Char
  | [] => (significand, [])
  | c :: rest =>
    let next := 10 * significand + (digit? c).getD 0
    if next ≤ Bounds.uint64Max then gather next rest else (significand, c :: rest)

/-! ## Scaling -/

/-- A decimal times or by a power of ten, in steps of at most 308; fails when out of range. -/
def scale : Nat → Decimal → Int → Option Decimal
  | 0, x, _ => some x
  | fuel + 1, x, e =>
    if e.natAbs ≤ 308 then
      let power := ofRatio false (Bounds.tenTo e.natAbs) 1
      let scaled := if 0 ≤ e then mul x power else div x power
      match scaled with
      | .infinite _ => none
      | scaled => some scaled
    else if x = zero then some x
    else if 0 ≤ e then none
    else scale fuel (div x (ofRatio false (Bounds.tenTo 308) 1)) (e + 308)

/-- The decimal with a significand and a power of ten; fails when out of range. -/
def ofParts (negative : Bool) (significand : Nat) (exponent : Int) : Option Json :=
  let x := ofInt significand
  (scale 4 x exponent).map fun x => .decimal (if negative then neg x else x)

/-! ## Reading -/

/-- An exponent part and what follows: sign, then digits. -/
def takeExponent? (cs : List Char) : Option (Bool × Nat × List Char) :=
  let (negative, rest) := takeSign cs
  let (digits, rest) := takeDigits rest
  if digits.isEmpty then none else some (negative, natOfDigits digits, rest)

/-- What follows the digits of a decimal; with an exponent of more than 32 bits only zero is in
range. -/
def finish (negative : Bool) (significand : Nat) (exponent : Int) :
    List Char → Option (Json × List Char)
  | [] => (ofParts negative significand exponent).map (·, [])
  | c :: rest =>
    if c = 'e' ∨ c = 'E' then do
      let (minus, size, rest) ← takeExponent? rest
      if Bounds.int32Max < size then
        if significand ≠ 0 ∧ !minus then none
        else some (.decimal (if negative then negativeZero else zero), rest)
      else
        let exponent := if minus then exponent - size else exponent + size
        let value ← ofParts negative significand exponent
        some (value, rest)
    else (ofParts negative significand exponent).map (·, c :: rest)

/-- A number from its first character on, and what follows it. -/
def takeNumber? (cs : List Char) : Option (Json × List Char) := do
  let (negative, cs) := match cs with
    | '-' :: rest => (true, rest)
    | cs => (false, cs)
  let (digits, rest) := takeDigits cs
  if digits.isEmpty then none
  if digits.head? = some '0' ∧ digits.length ≠ 1 then none
  let (significand, dropped) := gather 0 digits
  match rest with
  | '.' :: rest =>
    let (fraction, rest) := takeDigits rest
    if fraction.isEmpty then none
    let (whole, unread) := gather significand fraction
    let used : Int := fraction.length - unread.length
    finish negative whole (dropped.length - used) rest
  | c :: after =>
    if c = 'e' ∨ c = 'E' ∨ !dropped.isEmpty then
      finish negative significand dropped.length (c :: after)
    else wholeNumber negative significand (c :: after)
  | [] =>
    if dropped.isEmpty then wholeNumber negative significand []
    else finish negative significand dropped.length []
where
  /-- A number without point and exponent whose digits fit 64 bits. -/
  wholeNumber (negative : Bool) (n : Nat) (rest : List Char) : Option (Json × List Char) :=
    if !negative then some (.integer n, rest)
    else if 0 < n ∧ Bounds.int64Min ≤ -(n : Int) then some (.integer (-(n : Int)), rest)
    else some (.decimal (neg (ofInt n)), rest)

end Winnow.Json
