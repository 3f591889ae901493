import Winnow.Bounds
import Winnow.Text.Blank

/-!
# Whole numbers in text

A whole number is an optional sign and ASCII digits and must fit a range.
The digits are read from the left, so of two faults the one further left is
reported.
-/

namespace Winnow.Text

/-- Why a text is no whole number. -/
inductive IntegerFault where
  | empty
  | invalidDigit
  | tooLarge
  | tooSmall
  deriving DecidableEq, Repr

/-- The wording of the fault. -/
def IntegerFault.message : IntegerFault → String
  | .empty => "cannot parse integer from empty string"
  | .invalidDigit => "invalid digit found in string"
  | .tooLarge => "number too large to fit in target type"
  | .tooSmall => "number too small to fit in target type"

/-- Adds digits to a number of the given sign while it stays in range. -/
def gatherDigits (least greatest : Int) (negative : Bool) :
    Int → List Char → Except IntegerFault Int
  | n, [] => .ok n
  | n, c :: rest =>
    match digit? c with
    | none => .error .invalidDigit
    | some d =>
      let next := if negative then 10 * n - d else 10 * n + d
      if next < least then .error .tooSmall
      else if greatest < next then .error .tooLarge
      else gatherDigits least greatest negative next rest

/-- The whole number a text writes, between two bounds; a minus sign only when the range has
negative numbers. -/
def readInteger (least greatest : Int) (cs : List Char) : Except IntegerFault Int :=
  match cs with
  | [] => .error .empty
  | '+' :: c :: rest => gatherDigits least greatest false 0 (c :: rest)
  | '-' :: c :: rest =>
    if least < 0 then gatherDigits least greatest true 0 (c :: rest) else .error .invalidDigit
  | cs => gatherDigits least greatest false 0 cs

/-- A whole number of 64 bits with a sign. -/
def readInt64 (s : String) : Except IntegerFault Int :=
  readInteger Bounds.int64Min Bounds.int64Max s.toList

/-- A whole number of 64 bits without a sign. -/
def readNat64 (s : String) : Except IntegerFault Nat :=
  (readInteger 0 Bounds.uint64Max s.toList).map Int.toNat

/-- A whole number of 32 bits without a sign. -/
def readNat32 (cs : List Char) : Except IntegerFault Nat :=
  (readInteger 0 Bounds.uint32Max cs).map Int.toNat

end Winnow.Text
