import Winnow.Bounds
import Winnow.Decimal.Basic
import Winnow.Keyed

/-!
# Data values

JSON as a value: the wire form of rules, schemas, data sets and requests.
Numbers are whole numbers of 64 bits, with or without sign, or decimals;
members of an object are in increasing order of their names.
-/

namespace Winnow

/-- A data value. -/
inductive Json where
  | null
  | bool (value : Bool)
  | integer (value : Int)
  | decimal (value : Decimal)
  | string (value : String)
  | array (items : List Json)
  | object (members : List (String × Json))
  deriving Inhabited

namespace Json

/-! ## Views -/

/-- Whether the value is null. -/
def isNull : Json → Bool
  | .null => true
  | _ => false

/-- The text of a string. -/
def text? : Json → Option String
  | .string s => some s
  | _ => none

/-- The items of an array. -/
def items? : Json → Option (List Json)
  | .array items => some items
  | _ => none

/-- The members of an object. -/
def members? : Json → Option (Keyed Json)
  | .object members => some members
  | _ => none

/-- The member of an object under a name. -/
def member? (name : String) : Json → Option Json
  | .object members => Keyed.get? members name
  | _ => none

/-- An integer that fits 64 bits with a sign. -/
def int64? : Json → Option Int
  | .integer n => if Bounds.int64Min ≤ n ∧ n ≤ Bounds.int64Max then some n else none
  | _ => none

/-- An object from pairs; the last of equal names wins. -/
def ofPairs (pairs : List (String × Json)) : Json := .object (Keyed.ofPairs pairs)

/-- An optional value, null when absent. -/
def ofOption (value : Option Json) : Json := value.getD .null

/-! ## Equality -/

mutual

/-- Whether two values are equal. -/
def same : Json → Json → Bool
  | .null, .null => true
  | .bool a, .bool b => a == b
  | .integer a, .integer b => a == b
  | .decimal a, .decimal b => a.compare? b == some .eq
  | .string a, .string b => a == b
  | .array a, .array b => sameItems a b
  | .object a, .object b => sameMembers a b
  | _, _ => false

/-- Whether two lists of values are equal item by item. -/
def sameItems : List Json → List Json → Bool
  | [], [] => true
  | a :: as, b :: bs => same a b && sameItems as bs
  | _, _ => false

/-- Whether two lists of members are equal member by member. -/
def sameMembers : List (String × Json) → List (String × Json) → Bool
  | [], [] => true
  | (k, a) :: as, (l, b) :: bs => k == l && same a b && sameMembers as bs
  | _, _ => false

end

end Json
end Winnow
