import Winnow.Bounds
import Winnow.Decimal.Basic
import Winnow.Text.Blank

/-!
# The fewest digits that read back

`shortest` gives the decimal digits of a positive finite value: the fewest
that round to the value again and, of those, the nearest to it.  Two layouts
of the digits are in use: `plainText` never writes an exponent, `dataText` is
the form of numbers in data documents.
-/

namespace Winnow.Decimal

open Winnow.Text

/-! ## Digits -/

/-- What is written when the value lies in the middle of two candidates. -/
inductive Tie where
  | up
  | even
  deriving DecidableEq, Repr

/-- Decimal digits `digits` followed by a power of ten `exponent`. -/
structure Digits where
  digits : Nat
  exponent : Int
  deriving DecidableEq, Repr

/-- The interval of reals that round to a number of units, in quarters of a unit: ends, and
whether the ends belong to it. -/
def roundingInterval (units : Nat) : Nat × Nat × Bool :=
  let spare := units.log2 + 1 - 53
  let step := 1 <<< spare
  let below := if units = 1 <<< (52 + spare) ∧ 0 < spare then step else 2 * step
  (4 * units - below, 4 * units + 2 * step, (units >>> spare) % 2 = 0)

/-- `n · 10^e` with a whole `n`, compared as `n · up` with other numbers times `down`. -/
def powerPair (e : Int) : Nat × Nat :=
  if 0 ≤ e then (Bounds.tenTo e.toNat, 1) else (1, Bounds.tenTo (-e).toNat)

/-- The candidate at one power of ten, if one of the two neighbours of the value on that grid
rounds to the value. -/
def candidateAt (tie : Tie) (units : Nat) (e : Int) : Option Digits :=
  let (low, high, closed) := roundingInterval units
  let (up, down) := powerPair e
  let scale := up * (4 * one)
  let inside (d : Nat) : Bool :=
    let x := d * scale
    if closed then low * down ≤ x && x ≤ high * down else low * down < x && x < high * down
  let exact := 4 * units * down
  let d := exact / scale
  let r := exact % scale
  let upper := inside (d + 1)
  let lower := inside d && d != 0
  if lower && upper then
    let takeUpper :=
      if 2 * r < scale then false
      else if scale < 2 * r then true
      else match tie with
        | .up => true
        | .even => d % 2 == 1
    some ⟨if takeUpper then d + 1 else d, e⟩
  else if lower then some ⟨d, e⟩
  else if upper then some ⟨d + 1, e⟩
  else none

/-- Removes zeros at the end of the digits. -/
def stripZeros (fuel : Nat) (d : Digits) : Digits :=
  match fuel with
  | 0 => d
  | fuel + 1 =>
    if d.digits % 10 = 0 ∧ d.digits ≠ 0 then stripZeros fuel ⟨d.digits / 10, d.exponent + 1⟩ else d

/-- The first candidate on grids that get finer by a power of ten each. -/
def search (tie : Tie) (units : Nat) : Nat → Int → Digits
  | 0, _ => ⟨0, 0⟩
  | fuel + 1, e =>
    match candidateAt tie units e with
    | some d => d
    | none => search tie units fuel (e - 1)

/-- Number of decimal digits. -/
def digitCount (n : Nat) : Nat := (Nat.toDigits 10 n).length

/-- Position of the decimal point: the least `p` with the value below `10^p`. -/
def pointPosition (units : Nat) : Int :=
  (digitCount ((units * Bounds.tenTo 400) >>> 1074) : Int) - 400

/-- The fewest digits that read back as the number of units. -/
def shortest (tie : Tie) (units : Nat) : Digits :=
  stripZeros 20 (search tie units 18 (pointPosition units - 1))

/-! ## Layouts -/

/-- Zeros. -/
def zeros (n : Int) : String := String.ofList (List.replicate n.toNat '0')

/-- Digits with the point after the first `point` of them. -/
def withPoint (digits : String) (point : Nat) : String :=
  String.ofList (digits.toList.take point) ++ "." ++ String.ofList (digits.toList.drop point)

/-- A minus sign when there is one. -/
def signText (negative : Bool) : String := if negative then "-" else ""

/-- Positional text without an exponent and without an empty fraction. -/
def plainText : Decimal → String
  | .nan => "NaN"
  | .infinite s => signText s ++ "inf"
  | .finite s 0 => signText s ++ "0"
  | .finite s u =>
    let d := shortest .up u
    let text := natText d.digits
    let point := (text.length : Int) + d.exponent
    signText s ++
      (if 0 ≤ d.exponent then text ++ zeros d.exponent
       else if 0 < point then withPoint text point.toNat
       else "0." ++ zeros (-point) ++ text)

/-- The text of a finite number in a data document: a point always, an exponent below 10^-5 and
from 10^16 on; what is not finite has no number there and is written as null. -/
def dataText : Decimal → String
  | .nan | .infinite _ => "null"
  | .finite s 0 => signText s ++ "0.0"
  | .finite s u =>
    let d := shortest .even u
    let text := natText d.digits
    let point := (text.length : Int) + d.exponent
    signText s ++
      (if 0 ≤ d.exponent ∧ point ≤ 16 then text ++ zeros d.exponent ++ ".0"
       else if 0 < point ∧ point ≤ 16 then withPoint text point.toNat
       else if -5 < point ∧ point ≤ 0 then "0." ++ zeros (-point) ++ text
       else
         let mantissa := if text.length = 1 then text else withPoint text 1
         mantissa ++ "e" ++ (if 0 < point then "+" else "") ++ intText (point - 1))

end Winnow.Decimal
