import Winnow.Decimal.Reader
import Winnow.Json.Basic
import Winnow.Text.Integer

/-!
# Scalars of documents

A scalar of YAML without quotes is a number, a truth value, null or a text, as
it is written; a tag can tell its type.
-/

namespace Winnow.Yaml

open Winnow.Text

/-- A scalar.  A decimal is kept as it is written. -/
inductive Scalar where
  | null
  | bool (value : Bool)
  | integer (value : Int)
  | decimal (text : String)
  | text (s : String)
  deriving DecidableEq, Repr

/-- What a tag tells of a scalar: one of the common types by name, or nothing known. -/
inductive Tag where
  | common (name : String)
  | other
  deriving DecidableEq, Repr

namespace Scalar

/-! ## Numbers -/

/-- The words for decimals out of range. -/
def isDecimalWord (s : String) : Bool :=
  [".inf", ".Inf", ".INF", "+.inf", "+.Inf", "+.INF", "-.inf", "-.Inf", "-.INF", ".nan", ".NaN",
    ".NAN"].contains s

/-- Whether a text writes a decimal. -/
def isDecimal (s : String) : Bool :=
  isDecimalWord s || (s.toList.any isDigit && (Decimal.read? s).isSome)

/-- The number of 64 bits that digits of a base write after an optional sign. -/
def numberOf? (base : Nat) (cs : List Char) : Option Int := do
  let (negative, digits) := Decimal.takeSign cs
  let values ← digits.mapM hexValue?
  if digits.isEmpty || values.any fun d => base ≤ d then none
  else
    let n : Int := (values.foldl (fun n d => base * n + d) 0 : Nat)
    Json.int64? (.integer (if negative then -n else n))

/-- The whole number that a text writes in a form of its own: with a mark of its base, or with a
second sign. -/
def markedNumber? (s : String) : Option Int :=
  match s.toList with
  | '0' :: 'x' :: rest => numberOf? 16 rest
  | '0' :: 'o' :: rest => numberOf? 8 rest
  | '+' :: rest => (readInt64 (String.ofList rest)).toOption
  | _ => none

/-- The whole number that a text writes. -/
def number? (s : String) : Option Int := (markedNumber? s).or (readInt64 s).toOption

/-! ## Reading -/

/-- The truth value that a text writes. -/
def bool? (s : String) : Option Bool :=
  if s == "true" then some true else if s == "false" then some false else none

/-- The scalar that a text without quotes and tags writes. -/
def ofPlain (s : String) : Scalar :=
  if s == "" || s == "~" || s == "null" then .null
  else match bool? s, number? s with
    | some b, _ => .bool b
    | none, some n => .integer n
    | none, none => if isDecimal s then .decimal s else .text s

/-- The scalar of a type that a text without quotes writes; null if it writes none. -/
def ofTagged (name s : String) : Scalar :=
  match name with
  | "bool" => ((bool? s).map .bool).getD .null
  | "int" => ((readInt64 s).toOption.map .integer).getD .null
  | "float" => if isDecimal s then .decimal s else .null
  | "null" => .null
  | _ => .text s

/-- The scalar that a text without quotes writes under a tag. -/
def read (tag : Option Tag) (s : String) : Scalar :=
  match tag with
  | none => ofPlain s
  | some (.common name) => ofTagged name s
  | some .other => .text s

/-! ## Data -/

/-- The scalar as data; a decimal out of range has no form. -/
def toJson? : Scalar → Option Json
  | .null => some .null
  | .bool b => some (.bool b)
  | .integer n => some (.integer n)
  | .decimal s => (Decimal.read? s).map .decimal
  | .text s => some (.string s)

/-- The name that the scalar is as a key. -/
def name? : Scalar → Option String
  | .null => none
  | .bool b => some (if b then "true" else "false")
  | .integer n => some (intText n)
  | .decimal s | .text s => some s

end Scalar
end Winnow.Yaml
