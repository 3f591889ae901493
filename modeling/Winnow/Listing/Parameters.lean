import Winnow.Schema.Entity

/-!
# Parameters of a listing

What a request can ask of a listing besides rules.  Lists are arrays or texts
with semicolons between the items; a sort order in compact form can be written
for a sort field.
-/

namespace Winnow.Listing

open Winnow.Text

/-- How the matches of several fields combine. -/
inductive SearchMatch where
  | all
  | any
  deriving DecidableEq, Repr

/-- Parameters of a listing. -/
structure Parameters where
  /-- The text to search for. -/
  text : Option String := none
  /-- The fields to search, with semicolons between them, each with an operator after a colon if
  it is not to be the declared one. -/
  searchFields : Option String := none
  searchMatch : Option SearchMatch := none
  /-- Columns to project. -/
  select : List String := []
  /-- Relations to load along. -/
  load : List String := []
  order : List SortField := []
  take : Option Nat := none
  deriving DecidableEq, Repr

/-! ## Reading -/

/-- Reads how matches combine. -/
def SearchMatch.fromWire (standing : Wire.Standing) : Wire.Reader SearchMatch :=
  Wire.oneOfIn standing [("and", .all), ("or", .any)]

/-- Reads a list of names, null for none. -/
def readNames : Wire.Reader (List String)
  | .null => some []
  | .string s => some (splitTrimmed ';' s)
  | j => (Wire.list Wire.string j).map fun items =>
    (items.map trim).filter fun item => !item.isEmpty

/-- Reads a sort field in its record form, or several in compact form. -/
def readSortItem : Wire.Reader (List SortField)
  | .string s => some ((splitTrimmed ';' s).map SortField.readCompact)
  | j => (SortField.fromWire j).map fun sort => [sort]

/-- Reads a sort order: an array of items, or one item. -/
def readOrder (j : Json) : Option (List SortField) :=
  if j.isNull then some []
  else match Wire.list readSortItem j with
    | some items => some items.flatten
    | none => readSortItem j

/-- Reads a limit: a number, or a text, which means no limit when it writes none. -/
def readTake : Wire.Reader (Option Nat)
  | .null => some none
  | .string s => some (readNat64 (trim s)).toOption
  | j => (Wire.nat64 j).map some

namespace Parameters

/-- Names of the fields in the wire form. -/
def fieldNames : List String :=
  ["q", "search_fields", "search_match", "select", "with", "order", "take"]

/-- Reads the parameters from the fields of a record. -/
def ofRecord? (standing : Wire.Standing) (r : Wire.Record) : Option Parameters := do
  some {
    text := ← r.optional "q" Wire.string
    searchFields := ← r.optional "search_fields" Wire.string
    searchMatch := ← r.optional "search_match" (SearchMatch.fromWire standing)
    select := ← r.withDefault "select" [] readNames
    load := ← r.withDefault "with" [] readNames
    order := ← r.withDefault "order" [] readOrder
    take := ← r.withDefault "take" none readTake }

/-- Reads the wire form. -/
def fromWire : Wire.Reader Parameters := fun j => do
  ofRecord? .inPlace (← Wire.Record.ofJson? fieldNames j)

/-- The requested search fields, each with the operator it asks for; none when no field is
named. -/
def requestedFields? (p : Parameters) : Option (List (String × Option SearchOperator)) :=
  let entries := (splitTrimmed ';' (p.searchFields.getD "")).map fun entry =>
    match cutFirst ':' entry.toList with
    | some (field, operator) =>
      (trim (String.ofList field), SearchOperator.ofToken? (String.ofList operator))
    | none => (entry, none)
  if entries.isEmpty then none else some entries

end Parameters
end Winnow.Listing
