import Winnow.Text.Case
import Winnow.Calendar.Window
import Winnow.Filter.Basic

/-!
# Filter sets

The filters of one listing, in declared order and with distinct identifiers.
A set can be derived from an entity: a filter per column and a count per
to-many relation.
-/

namespace Winnow

/-- Filters in declared order. -/
structure FilterSet where
  filters : List Filter

namespace FilterSet

open Winnow.Text

/-- No filters. -/
def empty : FilterSet := ⟨[]⟩

/-- The first filter with an identifier. -/
def get? (set : FilterSet) (id : String) : Option Filter :=
  set.filters.find? fun f => f.id == id

/-- The filters the user may see. -/
def visible (set : FilterSet) : List Filter := set.filters.filter Filter.isAuthorized

/-! ## Building -/

/-- A set with one more filter, which must be consistent and have a new identifier. -/
def add (set : FilterSet) (f : Filter) : Except CompileError FilterSet := do
  f.check
  if (set.get? f.id).isSome then .error (.descriptor f.id "duplicate filter id")
  else .ok ⟨set.filters ++ [f]⟩

/-- The set of some filters. -/
def ofList (filters : List Filter) : Except CompileError FilterSet := filters.foldlM add empty

/-- The filter for a column; times and data documents have none. -/
def columnFilter? (name : String) (type : ColumnType) : Option Filter :=
  let label := labelOf name
  match type with
  | .integer | .decimal => some (Filter.plain .number name label)
  | .text => some (Filter.plain .text name label)
  | .boolean =>
    some (Filter.choice .select name label [⟨.bool true, "Yes"⟩, ⟨.bool false, "No"⟩])
  | .date => some (Filter.plain .date name label)
  | .dateTime => some (Filter.plain .dateTime name label)
  | .time | .json => none

/-- The filter for the number of related rows; to-one relations and relations whose count is a
column have none. -/
def countFilter? (e : Entity) (name : String) (relation : Relation) :
    Except CompileError (Option Filter) :=
  let id := name ++ "_count"
  if relation.isToOne || e.hasColumn id then .ok none
  else ((Filter.plain .number id (labelOf name ++ " count")).counting name).map some

/-- The set derived from an entity. -/
def ofEntity (e : Entity) : Except CompileError FilterSet := do
  let columns := e.columns.filterMap fun (name, type) => columnFilter? name type
  let counts ← e.relations.mapM fun (name, relation) => countFilter? e name relation
  ofList (columns ++ counts.filterMap fun f => f)

/-! ## Description -/

/-- The choices of an operator whose value is a window. -/
def windowChoices (op : Operator) : Json :=
  Json.ofPairs ((Window.ofOperator op).map fun w => (w.token, .string w.label))

/-- A choice as data. -/
def optionToJson (o : FilterOption) : Json :=
  .object [("value", o.value), ("label", .string o.label)]

/-- A text as data, null when absent. -/
def textOrNull (s : Option String) : Json := Json.ofOption (s.map .string)

/-- The description of a filter with described operands. -/
def describeWith (f : Filter) (operands : List Json) : Json :=
  let operators := f.operators
  let windows := operators.filter fun op => op == .is || op == .was
  .object [
    ("id", .string f.id),
    ("label", .string f.label),
    ("type", .string f.kind.name),
    ("operators", .array (operators.map fun op => .string op.token)),
    ("operatorsOptions", .object (windows.map fun op => (op.token, windowChoices op))),
    ("component", .string f.kind.component),
    ("isStatic", .bool (f.kind == .static)),
    ("operands", .array operands),
    ("has_authorization", .bool f.authorization.isSome),
    ("helpText", textOrNull f.help),
    ("displayAs", textOrNull f.display),
    ("options", .array (f.options.map optionToJson))]

mutual

/-- The description of a filter, in the order users see. -/
def describeFilter : Filter → Json
  | ⟨id, label, kind, column, options, excluded, only, operands, relation, countable, custom,
      parts, authorization, help, display, userSelector⟩ =>
    let f : Filter := ⟨id, label, kind, column, options, excluded, only, operands, relation,
      countable, custom, parts, authorization, help, display, userSelector⟩
    describeWith f (describeOperands operands)

/-- The descriptions of operands. -/
def describeOperands : List Operand → List Json
  | [] => []
  | ⟨value, label, filter⟩ :: rest =>
    .object [
      ("value", .string value),
      ("label", .string label),
      ("valueKey", .string "value"),
      ("labelKey", .string "label"),
      ("rule", describeFilter filter)] :: describeOperands rest

end

/-- The descriptions of the filters the user may see. -/
def describe (set : FilterSet) : List Json := set.visible.map describeFilter

end FilterSet
end Winnow
