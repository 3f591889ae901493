import Winnow.CompileError
import Winnow.Text.Blank

/-!
# Operators of rules

The operators a rule can apply to a field, in canonical order, with their
tokens.  Besides its canonical token some operators can be written by a
symbol or another word.
-/

namespace Winnow

/-- An operator of a rule. -/
inductive Operator where
  | equal
  | notEqual
  | less
  | lessOrEqual
  | greater
  | greaterOrEqual
  | between
  | notBetween
  | in_
  | notIn
  | beginsWith
  | notBeginsWith
  | contains
  | notContains
  | endsWith
  | notEndsWith
  | isEmpty
  | isNotEmpty
  | isNull
  | isNotNull
  | is
  | was
  deriving DecidableEq, Repr, Inhabited

namespace Operator

open Winnow.Text

/-! ## Tokens -/

/-- Every operator in canonical order. -/
def all : List Operator := [
  .equal, .notEqual, .less, .lessOrEqual, .greater, .greaterOrEqual, .between, .notBetween,
  .in_, .notIn, .beginsWith, .notBeginsWith, .contains, .notContains, .endsWith, .notEndsWith,
  .isEmpty, .isNotEmpty, .isNull, .isNotNull, .is, .was
]

/-- Canonical token. -/
def token : Operator → String
  | .equal => "equal"
  | .notEqual => "not_equal"
  | .less => "less"
  | .lessOrEqual => "less_or_equal"
  | .greater => "greater"
  | .greaterOrEqual => "greater_or_equal"
  | .between => "between"
  | .notBetween => "not_between"
  | .in_ => "in"
  | .notIn => "not_in"
  | .beginsWith => "begins_with"
  | .notBeginsWith => "not_begins_with"
  | .contains => "contains"
  | .notContains => "not_contains"
  | .endsWith => "ends_with"
  | .notEndsWith => "not_ends_with"
  | .isEmpty => "is_empty"
  | .isNotEmpty => "is_not_empty"
  | .isNull => "is_null"
  | .isNotNull => "is_not_null"
  | .is => "is"
  | .was => "was"

/-- Operators written by a symbol. -/
def ofSymbol? : String → Option Operator
  | "=" | "==" => some .equal
  | "!=" | "<>" => some .notEqual
  | "<" => some .less
  | "<=" => some .lessOrEqual
  | ">" => some .greater
  | ">=" => some .greaterOrEqual
  | _ => none

/-- The operator a token names: a symbol, or a word in any case. -/
def ofToken? (s : String) : Option Operator :=
  let s := trim s
  match ofSymbol? s with
  | some op => some op
  | none =>
    match lowerAscii s with
    | "like" => some .contains
    | "not_like" | "not like" => some .notContains
    | word => all.find? fun op => op.token == word

/-- The operator a token names, or the error that it names none. -/
def read (s : String) : Except CompileError Operator :=
  match ofToken? s with
  | some op => .ok op
  | none => .error (.operatorNotAllowed "" s)

/-! ## Families -/

/-- Tests for null. -/
def isNullCheck (op : Operator) : Bool := op == .isNull || op == .isNotNull

/-- Tests for null or empty text. -/
def isEmptyCheck (op : Operator) : Bool := op == .isEmpty || op == .isNotEmpty

/-- Tests of a range with two bounds. -/
def isRange (op : Operator) : Bool := op == .between || op == .notBetween

/-- Whether the operator reads a value. -/
def takesValue (op : Operator) : Bool := !op.isNullCheck && !op.isEmptyCheck

/-- Whether the operator says what must not hold. -/
def isNegative : Operator → Bool
  | .notEqual | .notBetween | .notIn | .notBeginsWith | .notContains | .notEndsWith
  | .isNotEmpty | .isNotNull => true
  | _ => false

end Operator
end Winnow
