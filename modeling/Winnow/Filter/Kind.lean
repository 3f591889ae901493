import Winnow.Operator
import Winnow.Value
import Winnow.Wire

/-!
# Kinds of filter

The kind of a filter decides which operators it has and how its values are
entered.  Kinds that choose their target by operands have no operators of
their own.
-/

namespace Winnow

/-- The kind of a filter. -/
inductive FilterKind where
  | text
  | number
  | date
  | dateTime
  | select
  | multiSelect
  | checkbox
  | tags
  /-- Rows with a related row that satisfies the chosen operand. -/
  | hasMany
  /-- One of several fields, without tests for null. -/
  | operand
  /-- One of several fields, with tests for null. -/
  | nullableOperand
  | timezone
  /-- A fixed condition. -/
  | static
  deriving DecidableEq, Repr, Inhabited

namespace FilterKind

/-- Every kind. -/
def all : List FilterKind := [
  .text, .number, .date, .dateTime, .select, .multiSelect, .checkbox, .tags, .hasMany,
  .operand, .nullableOperand, .timezone, .static
]

/-- Name of the kind. -/
def name : FilterKind → String
  | .text => "text"
  | .number => "number"
  | .date => "date"
  | .dateTime => "datetime"
  | .select => "select"
  | .multiSelect => "multi-select"
  | .checkbox => "checkbox"
  | .tags => "tags"
  | .hasMany => "has-many"
  | .operand => "operand"
  | .nullableOperand => "nullable-operand"
  | .timezone => "timezone"
  | .static => "static"

/-- The kind with a name. -/
def ofName? (s : String) : Option FilterKind := all.find? fun k => k.name == s

/-- Reads the wire form. -/
def fromWire : Wire.Reader FilterKind := Wire.oneOf (all.map fun k => (k.name, k))

/-- Name of the component that shows the filter. -/
def component (k : FilterKind) : String := k.name ++ "-rule"

/-- Whether the target is chosen by operands. -/
def usesOperands (k : FilterKind) : Bool := k == .hasMany || k == .operand || k == .nullableOperand

/-- Whether values are dates or instants. -/
def isTemporal (k : FilterKind) : Bool := k == .date || k == .dateTime

/-- Whether a value is a list. -/
def isMultiValued (k : FilterKind) : Bool := k == .multiSelect || k == .checkbox || k == .tags

/-- Operators of the kind on its own. -/
def operators : FilterKind → List Operator
  | .text =>
    [.equal, .notEqual, .beginsWith, .notBeginsWith, .contains, .notContains, .endsWith,
      .notEndsWith, .isEmpty, .isNotEmpty, .isNull, .isNotNull]
  | .number =>
    [.equal, .notEqual, .less, .lessOrEqual, .greater, .greaterOrEqual, .between, .notBetween,
      .isNull, .isNotNull]
  | .date | .dateTime =>
    [.equal, .notEqual, .less, .lessOrEqual, .greater, .greaterOrEqual, .between, .notBetween,
      .is, .was, .isNull, .isNotNull]
  | .select | .timezone => [.equal, .notEqual, .isNull, .isNotNull]
  | .multiSelect | .checkbox | .tags => [.in_, .notIn, .isNull, .isNotNull]
  | .static => [.equal]
  | .hasMany | .operand | .nullableOperand => []

/-- Type of the column of a filter when the schema does not declare it. -/
def columnType : FilterKind → ColumnType
  | .number => .decimal
  | .date => .date
  | .dateTime => .dateTime
  | _ => .text

end FilterKind
end Winnow
