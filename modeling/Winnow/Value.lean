import Winnow.Bounds
import Winnow.Calendar.Reader
import Winnow.Decimal.Reader
import Winnow.Json.Printer
import Winnow.Text.Integer
import Winnow.Wire

/-!
# Values of columns

A value is what a row holds in a column and what a condition compares it with.
Values are typed by the column, not by the data they were read from: `ofJson?`
reads a data value for a type of column.  `compare?` orders values of one type
and is undefined where null is involved, `sortOrder` extends it to an order
for sorting with null first.
-/

namespace Winnow

/-- Type of a column. -/
inductive ColumnType where
  | integer
  | decimal
  | text
  | boolean
  | date
  | dateTime
  | time
  | json
  deriving DecidableEq, Repr, Inhabited

namespace ColumnType

/-- Name of the type in messages. -/
def title : ColumnType → String
  | .integer => "Integer"
  | .decimal => "Decimal"
  | .text => "Text"
  | .boolean => "Boolean"
  | .date => "Date"
  | .dateTime => "DateTime"
  | .time => "Time"
  | .json => "Json"

/-- Name of the type in schemas. -/
def name : ColumnType → String
  | .integer => "integer"
  | .decimal => "decimal"
  | .text => "text"
  | .boolean => "boolean"
  | .date => "date"
  | .dateTime => "date_time"
  | .time => "time"
  | .json => "json"

/-- The types by name; a date with a time of day has two names. -/
def byName : List (String × ColumnType) :=
  [.integer, .decimal, .text, .boolean, .date, .dateTime, .time, .json].map
    (fun t : ColumnType => (t.name, t)) ++ [("datetime", .dateTime)]

/-- Reads the wire form. -/
def fromWire : Wire.Reader ColumnType := Wire.oneOf byName

/-- Whether values are dates or instants. -/
def isTemporal (t : ColumnType) : Bool := t == .date || t == .dateTime

end ColumnType

/-- A value of a column. -/
inductive Value where
  | null
  | bool (value : Bool)
  | integer (value : Int)
  | decimal (value : Decimal)
  | text (value : String)
  | date (value : Date)
  | instant (value : Instant)
  deriving DecidableEq, Repr, Inhabited

namespace Value

open Winnow.Text

/-! ## Reading data -/

/-- A whole number: an integer, a decimal without a fraction, a text or a truth value.  A number
beyond 64 bits becomes the nearest one within. -/
def integerOf? : Json → Option Int
  | .integer n =>
    if Bounds.int64Min ≤ n ∧ n ≤ Bounds.int64Max then some n
    else some (Decimal.ofInt n).toInt64
  | .decimal x => if x.isWhole then some x.toInt64 else none
  | .string s => (readInt64 (trim s)).toOption
  | .bool b => some (if b then 1 else 0)
  | _ => none

/-- A decimal: a number or a text. -/
def decimalOf? : Json → Option Decimal
  | .integer n => some (Decimal.ofInt n)
  | .decimal x => some x
  | .string s => Decimal.read? (trim s)
  | _ => none

/-- A truth value: itself, a whole number, or one of the usual words. -/
def boolOf? : Json → Option Bool
  | .bool b => some b
  | .integer n => (Json.int64? (.integer n)).map (· != 0)
  | .string s =>
    match lowerAscii (trim s) with
    | "1" | "true" | "yes" | "on" => some true
    | "0" | "false" | "no" | "off" => some false
    | _ => none
  | _ => none

/-- A text: a string, or the written form of a number or a truth value. -/
def textOf? : Json → Option String
  | .string s => some s
  | .array _ | .object _ | .null => none
  | scalar => some scalar.compact

/-- The value of a column type that a data value stands for; null stands for null. -/
def ofJson? (json : Json) (type : ColumnType) : Option Value :=
  match json with
  | .null => some .null
  | json =>
    match type with
    | .integer => (integerOf? json).map .integer
    | .decimal => (decimalOf? json).map .decimal
    | .boolean => (boolOf? json).map .bool
    | .date => (json.text?.bind Calendar.readDate?).map .date
    | .dateTime => (json.text?.bind Calendar.readInstant?).map .instant
    | .text | .time => (textOf? json).map .text
    | .json => some (.text json.compact)

/-- The value of a data value where no type is declared. -/
def infer : Json → Value
  | .null => .null
  | .bool b => .bool b
  | .integer n =>
    if Bounds.int64Min ≤ n ∧ n ≤ Bounds.int64Max then .integer n
    else .decimal (Decimal.ofInt n)
  | .decimal x => .decimal x
  | .string s => .text s
  | json => .text json.compact

/-! ## Views -/

/-- Whether the value is null. -/
def isNull : Value → Bool
  | .null => true
  | _ => false

/-- The text that patterns are matched with; null has none. -/
def text? : Value → Option String
  | .null => none
  | .bool b => some (if b then "1" else "0")
  | .integer n => some (intText n)
  | .decimal x => some x.plainText
  | .text s => some s
  | .date d => some d.text
  | .instant t => some t.plainText

/-- The text shown for the value. -/
def display (v : Value) : String := v.text?.getD "NULL"

/-- The value as data. -/
def toJson : Value → Json
  | .null => .null
  | .bool b => .bool b
  | .integer n => .integer n
  | .decimal x => .decimal x
  | .text s => .string s
  | .date d => .string d.text
  | .instant t => .string t.text

/-! ## Order -/

/-- 1 for true and 0 for false. -/
def ofTruth (b : Bool) : Int := if b then 1 else 0

/-- Order of two values; undefined for null and for values of types that do not mix. -/
def compare? : Value → Value → Option Ordering
  | .bool a, .bool b => some (compare (ofTruth a) (ofTruth b))
  | .integer a, .integer b => some (compare a b)
  | .integer a, .decimal b => (Decimal.ofInt a).compare? b
  | .decimal a, .integer b => a.compare? (Decimal.ofInt b)
  | .decimal a, .decimal b => a.compare? b
  | .bool a, .integer b => some (compare (ofTruth a) b)
  | .integer a, .bool b => some (compare a (ofTruth b))
  | .text a, .text b => some (compareOfLessAndEq a b)
  | .date a, .date b => some (compare a.dayNumber b.dayNumber)
  | .instant a, .instant b => some (a.order b)
  | .date a, .instant b => some ((Instant.startOf a).order b)
  | .instant a, .date b => some (a.order (Instant.startOf b))
  | _, _ => none

/-- Whether two values compare as equal. -/
def equals (a b : Value) : Bool := a.compare? b == some .eq

/-- Order for sorting: null before all others, values that do not compare as equals. -/
def sortOrder (a b : Value) : Ordering :=
  match a.isNull, b.isNull with
  | true, true => .eq
  | true, false => .lt
  | false, true => .gt
  | false, false => (a.compare? b).getD .eq

end Value
end Winnow
