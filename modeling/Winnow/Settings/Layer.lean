import Winnow.Bounds
import Winnow.Decimal.Reader
import Winnow.Json.Basic
import Winnow.Text.Integer

/-!
# Layers of settings

Settings come in layers: files, then variables, each over those before.  A
layer is a table whose keys are paths.  At each path its item is laid over what
was there: tables are merged name by name, anything else takes the place of
what was there.  A path makes the tables and arrays that it leads through.
-/

namespace Winnow.Layer

open Winnow.Text

/-! ## Values -/

/-- The entries of a table; a value of another form has none. -/
def entries (value : Json) : Keyed Json := value.members?.getD []

/-- The entry of a table under a name, or null. -/
def entry (name : String) (value : Json) : Json := (value.member? name).getD .null

/-- The table with a new entry. -/
def put (name : String) (item value : Json) : Json := .object ((entries value).put name item)

/-- The items of an array; a value of another form has none. -/
def items : Json → List Json
  | .array items => items
  | _ => []

mutual

/-- An item laid over a value. -/
def cover (value : Json) : Json → Json
  | .object members => coverAll (if value.isNull then .object [] else value) members
  | item => item

/-- The entries of a table laid over a value one after another. -/
def coverAll (value : Json) : List (String × Json) → Json
  | [] => value
  | (name, item) :: rest => coverAll (put name (cover (entry name value) item) value) rest

end

/-! ## Paths -/

/-- A step of a path: to a name in a table, or to an index in an array, where negative indices
count from the end. -/
inductive Step where
  | name (s : String)
  | index (i : Int)
  deriving DecidableEq, Repr

/-- Whether a character can stand in a name of a path. -/
def isNameChar (c : Char) : Bool := c.isAlphanum || c = '_' || c = '-'

/-- Whether a character can stand around an index. -/
def isGap (c : Char) : Bool := c = ' ' || c = '\t'

/-- The index of 64 bits that characters write. -/
def index? (cs : List Char) : Option Int := do
  let (negative, digits) := match cs with
    | '-' :: rest => (true, rest)
    | cs => (false, cs)
  if digits.isEmpty || !digits.all isDigit then none
  else
    let n : Int := natOfDigits digits
    let i := if negative then -n else n
    if Bounds.int64Min ≤ i ∧ i ≤ Bounds.int64Max then some i else none

/-- The steps that follow a name: names after points and indices between brackets. -/
def furtherSteps? : Nat → List Char → Option (List Step)
  | _, [] => some []
  | fuel + 1, '.' :: rest =>
    let (name, rest) := rest.span isNameChar
    if name.isEmpty then none
    else (furtherSteps? fuel rest).map (.name (String.ofList name) :: ·)
  | fuel + 1, '[' :: rest => do
    let (digits, rest) := (rest.dropWhile isGap).span fun c => isDigit c || c = '-'
    match rest.dropWhile isGap with
    | ']' :: rest => do some (.index (← index? digits) :: (← furtherSteps? fuel rest))
    | _ => none
  | _, _ => none

/-- The steps of a key; one that writes no path is a name. -/
def stepsOf (key : String) : List Step :=
  let (name, rest) := key.toList.span isNameChar
  match furtherSteps? rest.length rest with
  | some steps => if name.isEmpty then [.name key] else .name (String.ofList name) :: steps
  | none => [.name key]

/-- The place of an index in an array, and the array made long enough for it with nulls: behind
its end, or before its start. -/
def seat (i : Int) (items : List Json) : Nat × List Json :=
  if 0 ≤ i then
    (i.toNat, items ++ List.replicate (i.toNat + 1 - items.length) .null)
  else
    let back := i.natAbs
    (items.length - back, List.replicate (back - items.length) .null ++ items)

/-- Lays an item at the end of a path. -/
def layAt (item : Json) : List Step → Json → Json
  | [], value => cover value item
  | .name s :: path, value => put s (layAt item path (entry s value)) value
  | .index i :: path, value =>
    let (place, items) := seat i (items value)
    .array (items.modify place (layAt item path))

/-- Lays a table over a value; its keys are paths. -/
def layTable (value : Json) (table : Keyed Json) : Json :=
  table.foldl (fun value (key, item) => layAt item (stepsOf key) value) value

end Winnow.Layer
