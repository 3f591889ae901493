import Winnow.Bounds

/-!
# Decimal values

A decimal column holds binary floating-point numbers of 64 bits.  Every finite
one is a whole number of units of 2^-1074, so a value here is a sign and a
number of units, and arithmetic is exact arithmetic on units followed by one
rounding.  `roundUnits` is that rounding: 53 significant bits, a tie to the
even neighbour.
-/

namespace Winnow

/-- A floating-point number: a signed whole number of units of 2^-1074, an infinity or no
number. -/
inductive Decimal where
  | nan
  | infinite (negative : Bool)
  | finite (negative : Bool) (units : Nat)
  deriving DecidableEq, Repr, Inhabited

namespace Decimal

/-! ## Rounding -/

/-- The quotient rounded to the nearest whole number, a tie to the even one. -/
def roundDiv (num den : Nat) : Nat :=
  let q := num / den
  let r := num % den
  if 2 * r < den then q
  else if den < 2 * r then q + 1
  else q + q % 2

/-- The nearest number of units with 53 significant bits to `num / den` units. -/
def roundUnits (num den : Nat) : Nat :=
  let spare := (num / den).log2 + 1 - 53
  roundDiv num (den <<< spare) <<< spare

/-- Units in one. -/
def one : Nat := 1 <<< 1074

/-- The first number of units out of range. -/
def unitsLimit : Nat := 1 <<< 2098

/-- The value with this many units, infinite when out of range. -/
def ofUnits (negative : Bool) (units : Nat) : Decimal :=
  if units < unitsLimit then .finite negative units else .infinite negative

/-- The nearest value to `num / den` units. -/
def ofUnitRatio (negative : Bool) (num den : Nat) : Decimal :=
  ofUnits negative (roundUnits num den)

/-- The nearest value to the fraction `num / den`. -/
def ofRatio (negative : Bool) (num den : Nat) : Decimal :=
  ofUnitRatio negative (num <<< 1074) den

/-- The nearest value to a whole number. -/
def ofInt (n : Int) : Decimal := ofRatio (n < 0) n.natAbs 1

/-- Zero. -/
def zero : Decimal := .finite false 0

/-- Zero with a minus sign. -/
def negativeZero : Decimal := .finite true 0

/-- The value with its sign turned. -/
def neg : Decimal → Decimal
  | .nan => .nan
  | .infinite s => .infinite (!s)
  | .finite s u => .finite (!s) u

/-! ## Order -/

/-- A whole number that orders the values other than `nan`. -/
def key : Decimal → Int
  | .nan => 0
  | .infinite s => if s then -(unitsLimit : Int) else unitsLimit
  | .finite s u => if s then -(u : Int) else u

/-- Whether the value is no number. -/
def isNaN : Decimal → Bool
  | .nan => true
  | _ => false

/-- Order of two values; `nan` compares with nothing. -/
def compare? (a b : Decimal) : Option Ordering :=
  if a.isNaN || b.isNaN then none else some (compare a.key b.key)

/-! ## Arithmetic -/

/-- Sum of two values. -/
def add : Decimal → Decimal → Decimal
  | .nan, _ | _, .nan => .nan
  | .infinite s, .infinite t => if s = t then .infinite s else .nan
  | .infinite s, .finite _ _ | .finite _ _, .infinite s => .infinite s
  | .finite s u, .finite t v =>
    let total := (finite s u).key + (finite t v).key
    if total = 0 then .finite (s && t) 0
    else ofUnitRatio (total < 0) total.natAbs 1

/-- Product of two values. -/
def mul : Decimal → Decimal → Decimal
  | .nan, _ | _, .nan => .nan
  | .infinite s, .infinite t => .infinite (s != t)
  | .infinite s, .finite t u | .finite t u, .infinite s =>
    if u = 0 then .nan else .infinite (s != t)
  | .finite s u, .finite t v => ofUnitRatio (s != t) (u * v) one

/-- Quotient of two values. -/
def div : Decimal → Decimal → Decimal
  | .nan, _ | _, .nan => .nan
  | .infinite _, .infinite _ => .nan
  | .infinite s, .finite t _ => .infinite (s != t)
  | .finite s _, .infinite t => .finite (s != t) 0
  | .finite s u, .finite t v =>
    if v = 0 then (if u = 0 then .nan else .infinite (s != t))
    else ofUnitRatio (s != t) (u <<< 1074) v

/-- The sum of a list, from minus zero on, left to right. -/
def sum (values : List Decimal) : Decimal := values.foldl add negativeZero

/-! ## Whole numbers -/

/-- Whether the value is a whole number. -/
def isWhole : Decimal → Bool
  | .finite _ u => u % one == 0
  | _ => false

/-- The whole part, pulled back to the range of 64 bits; 0 for `nan`. -/
def toInt64 : Decimal → Int
  | .nan => 0
  | .infinite s => if s then Bounds.int64Min else Bounds.int64Max
  | .finite s u =>
    let whole : Int := (u >>> 1074 : Nat)
    max Bounds.int64Min (min Bounds.int64Max (if s then -whole else whole))

/-- The nearest whole number, a half going away from zero, pulled back to the range from 0 to a
bound; 0 for `nan`. -/
def roundUpTo (bound : Nat) : Decimal → Nat
  | .nan => 0
  | .infinite s => if s then 0 else bound
  | .finite s u => if s then 0 else min bound ((2 * u + one) / (2 * one))

end Decimal
end Winnow
