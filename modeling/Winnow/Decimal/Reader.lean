import Winnow.Bounds
import Winnow.Decimal.Basic
import Winnow.Text.Blank

/-!
# Reading decimals

`Decimal.read?` reads the text of a decimal value: an optional sign, then
digits with at most one point among or around them and an optional exponent,
or one of the words for infinity and not-a-number.  The result is the nearest
value to the number written.
-/

namespace Winnow.Decimal

open Winnow.Text

/-! ## Parts of a number -/

/-- The digits in front and the rest. -/
def takeDigits (cs : List Char) : List Char × List Char := cs.span isDigit

/-- An optional sign in front; true for a minus. -/
def takeSign : List Char → Bool × List Char
  | '+' :: rest => (false, rest)
  | '-' :: rest => (true, rest)
  | cs => (false, cs)

/-- The value nearest to `digits · 10^exponent`. -/
def ofScientific (negative : Bool) (digits : Nat) (exponent : Int) : Decimal :=
  let size : Int := (Nat.toDigits 10 digits).length
  if digits = 0 then .finite negative 0
  else if 400 < size + exponent then .infinite negative
  else if size + exponent < -400 then .finite negative 0
  else if 0 ≤ exponent then ofRatio negative (digits * Bounds.tenTo exponent.toNat) 1
  else ofRatio negative digits (Bounds.tenTo (-exponent).toNat)

/-- An exponent part up to the end of the text; no part means 0. -/
def readExponent? : List Char → Option Int
  | [] => some 0
  | c :: rest =>
    if c = 'e' ∨ c = 'E' then
      let (negative, rest) := takeSign rest
      let (digits, rest) := takeDigits rest
      if digits.isEmpty ∨ !rest.isEmpty then none
      else some (if negative then -(natOfDigits digits : Int) else natOfDigits digits)
    else none

/-- The words that are values. -/
def word? (negative : Bool) (cs : List Char) : Option Decimal :=
  match String.ofList (cs.map Char.toLower) with
  | "inf" | "infinity" => some (.infinite negative)
  | "nan" => some .nan
  | _ => none

/-! ## Reading -/

/-- A number without its sign. -/
def readUnsigned? (negative : Bool) (cs : List Char) : Option Decimal :=
  let (whole, rest) := takeDigits cs
  let (fraction, rest) := match rest with
    | '.' :: rest => takeDigits rest
    | rest => ([], rest)
  if whole.isEmpty && fraction.isEmpty then word? negative cs
  else (readExponent? rest).map fun e =>
    ofScientific negative (natOfDigits (whole ++ fraction)) (e - fraction.length)

/-- The decimal a text writes, if it writes one. -/
def read? (s : String) : Option Decimal :=
  let (negative, rest) := takeSign s.toList
  readUnsigned? negative rest

end Winnow.Decimal
