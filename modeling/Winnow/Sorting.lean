import Winnow.Wire
import Winnow.Failure

/-!
# Sorting requests

A sort field names a column, a path to a column, or an aggregate, and a
direction.  In compact form the direction stands after the last bar; when that
part is no direction the whole text is the field.
-/

namespace Winnow

/-- Direction of an order. -/
inductive Direction where
  | ascending
  | descending
  deriving DecidableEq, Repr, Inhabited

/-- A field and the direction to sort it in. -/
structure SortField where
  field : String
  direction : Direction := .ascending
  deriving DecidableEq, Repr, Inhabited

namespace Direction

open Winnow.Text

/-- Name of the direction. -/
def name : Direction → String
  | .ascending => "asc"
  | .descending => "desc"

/-- Keyword of the direction in SQL. -/
def keyword : Direction → String
  | .ascending => "ASC"
  | .descending => "DESC"

/-- The direction a word names, in any case. -/
def read (s : String) : Except Failure Direction :=
  match lowerAscii (trim s) with
  | "asc" => .ok .ascending
  | "desc" => .ok .descending
  | other =>
    .error ⟨.validation, "Invalid sort direction '" ++ other ++ "', expected asc or desc"⟩

/-- Whether a word names a direction. -/
def isDirection (s : String) : Bool := (read s).toOption.isSome

/-- Reads the wire form. -/
def fromWire : Wire.Reader Direction :=
  Wire.oneOf [("asc", .ascending), ("desc", .descending)]

/-- An order in this direction. -/
def apply : Direction → Ordering → Ordering
  | .ascending, o => o
  | .descending, o => o.swap

end Direction

namespace SortField

open Winnow.Text

/-- Reads the compact form. -/
def readCompact (s : String) : SortField :=
  let whole : SortField := ⟨trim s, .ascending⟩
  match cutLast '|' s.toList with
  | none => whole
  | some (field, direction) =>
    match Direction.read (String.ofList direction) with
    | .ok direction => ⟨trim (String.ofList field), direction⟩
    | .error _ => whole

/-- Reads the wire form. -/
def fromWire : Wire.Reader SortField := fun j => do
  let r ← Wire.Record.ofJson? ["field", "direction"] j
  let field ← r.required "field" Wire.string
  let direction ← r.withDefault "direction" .ascending Direction.fromWire
  some ⟨field, direction⟩

/-- The wire form. -/
def toJson (s : SortField) : Json :=
  Json.ofPairs [("field", .string s.field), ("direction", .string s.direction.name)]

end SortField
end Winnow
