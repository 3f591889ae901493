import Winnow.Compile.Context
import Winnow.Filter.Kind

/-!
# Filters

A filter says which operators a field accepts and how its values are meant.
Filters with operands choose among other filters; a countable filter compares
the number of related rows; a custom predicate takes over the meaning of a
filter altogether.  `Filter.check` finds the ways in which a filter can be set
up inconsistently.
-/

namespace Winnow

/-! ## Types -/

/-- What a custom predicate is asked to compile. -/
structure PredicateCall where
  value : Json
  connective : Connective
  operator : Operator
  leaf : Rule.Leaf

/-- A named predicate that compiles the rules of a filter itself. -/
structure CustomPredicate where
  name : String
  apply : Environment → PredicateCall → Query → Except CompileError Query

/-- A choice of a filter with fixed values. -/
structure FilterOption where
  value : Json
  label : String

mutual

/-- A field that a filter with operands can choose, and the filter for it. -/
structure Operand where
  value : String
  label : String
  filter : Filter

/-- A filter. -/
structure Filter where
  id : String
  label : String
  kind : FilterKind
  /-- The field compiled against when it is not the identifier. -/
  column : Option String
  options : List FilterOption
  excluded : List Operator
  only : Option (List Operator)
  operands : List Operand
  /-- The relation of tags and of has-many filters. -/
  relation : Option String
  /-- The relation whose rows are counted. -/
  countable : Option String
  custom : Option CustomPredicate
  /-- A date and a time column that make up the field. -/
  dateTimeParts : Option (String × String)
  /-- Whether the user may use the filter, when that was decided. -/
  authorization : Option Bool
  help : Option String
  display : Option String
  /-- Whether values are users. -/
  userSelector : Bool

end

namespace Filter

/-- The value that stands for the current user. -/
def currentUser : String := "me"

/-! ## Making filters -/

/-- A filter of a kind without any options. -/
def plain (kind : FilterKind) (id label : String) : Filter :=
  ⟨id, label, kind, none, [], [], none, [], none, none, none, none, none, none, none, false⟩

/-- A filter of a kind with fixed choices. -/
def choice (kind : FilterKind) (id label : String) (options : List FilterOption) : Filter :=
  { plain kind id label with options := options }

/-- A filter of a kind on a relation. -/
def ofRelation (kind : FilterKind) (id label relation : String) : Filter :=
  { plain kind id label with relation := some relation }

/-- A choice of users; the first choice is the current user. -/
def user (id label : String) (options : List FilterOption) : Filter :=
  { choice .select id label (⟨.string currentUser, "Me"⟩ :: options) with userSelector := true }

/-! ## Views -/

/-- The field compiled against. -/
def field (f : Filter) : String := f.column.getD f.id

/-- An operand by value. -/
def operand? (f : Filter) (value : String) : Option Operand :=
  f.operands.find? fun operand => operand.value == value

/-- Whether the user may use the filter. -/
def isAuthorized (f : Filter) : Bool := f.authorization.getD true

/-- Whether the options of a filter leave an operator of its kind or operands allowed. -/
def keeps (f : Filter) (op : Operator) : Bool :=
  (f.countable.isNone || (!op.isRange && !op.isNullCheck && !op.isEmptyCheck)) &&
    (match f.only with
      | some only => only.contains op
      | none => true) &&
    !f.excluded.contains op

mutual

/-- Whether the filter accepts an operator. -/
def allows (op : Operator) : Filter → Bool
  | ⟨id, label, kind, column, options, excluded, only, operands, relation, countable, custom,
      parts, authorization, help, display, userSelector⟩ =>
    let f : Filter := ⟨id, label, kind, column, options, excluded, only, operands, relation,
      countable, custom, parts, authorization, help, display, userSelector⟩
    (match kind with
      | .hasMany | .nullableOperand => someAllows op operands
      | .operand => !op.isNullCheck && someAllows op operands
      | kind => kind.operators.contains op) && f.keeps op

/-- Whether the filter of some operand accepts an operator. -/
def someAllows (op : Operator) : List Operand → Bool
  | [] => false
  | ⟨_, _, filter⟩ :: rest => allows op filter || someAllows op rest

end

/-- The operators the filter accepts, in canonical order. -/
def operators (f : Filter) : List Operator := Operator.all.filter fun op => allows op f

/-- Whether the filter and the filter of the operand both accept an operator. -/
def allowsWith (f : Filter) (operand : Operand) (op : Operator) : Bool :=
  allows op f && allows op operand.filter

/-! ## Consistency -/

/-- The error of a filter that lists a range operator although it counts rows. -/
def checkCountable (f : Filter) : Except CompileError Unit :=
  match f.countable, f.only with
  | some _, some only =>
    if only.any Operator.isRange then
      .error (.descriptor f.id
        "between and not_between are not supported on a countable relation")
    else .ok ()
  | _, _ => .ok ()

/-- The errors of a filter by itself, before those of its operands. -/
def checkSelf (f : Filter) : Except CompileError Unit :=
  if f.kind.usesOperands && f.operands.isEmpty then
    .error (.descriptor f.id ("a " ++ f.kind.name ++ " filter requires operands"))
  else if f.kind == .hasMany && f.relation.isNone then
    .error (.descriptor f.id "a has-many filter requires a relation")
  else if f.kind == .tags && f.relation.isNone then
    .error (.descriptor f.id "a tags filter requires a relation")
  else if f.kind == .static && f.custom.isNone then
    .error (.descriptor f.id "a static filter requires a custom predicate")
  else if f.countable.isSome && !f.operands.isEmpty then
    .error (.descriptor f.id "a countable relation filter cannot have operands")
  else .ok ()

/-- The error of an operand that stands for a has-many filter. -/
def nestedHasMany (value : String) : CompileError :=
  .descriptor value "a has-many filter cannot be used as an operand"

mutual

/-- The first inconsistency of a filter. -/
def check : Filter → Except CompileError Unit
  | ⟨id, label, kind, column, options, excluded, only, operands, relation, countable, custom,
      parts, authorization, help, display, userSelector⟩ => do
    let f : Filter := ⟨id, label, kind, column, options, excluded, only, operands, relation,
      countable, custom, parts, authorization, help, display, userSelector⟩
    f.checkSelf
    checkOperands operands
    f.checkCountable

/-- The first inconsistency of operands. -/
def checkOperands : List Operand → Except CompileError Unit
  | [] => .ok ()
  | ⟨value, _, filter⟩ :: rest => do
    if filter.kind == .hasMany then .error (nestedHasMany value) else
    check filter
    checkOperands rest

end

/-! ## Options that can fail -/

/-- The filter with operands; one that counts rows cannot have any. -/
def withOperands (f : Filter) (operands : List Operand) : Except CompileError Filter :=
  if f.countable.isSome then
    .error (.descriptor f.id "a countable relation filter cannot have operands")
  else .ok { f with operands := operands }

/-- The filter that compares the number of rows of a relation; one with operands cannot. -/
def counting (f : Filter) (relation : String) : Except CompileError Filter := do
  if !f.operands.isEmpty then
    .error (.descriptor f.id "a filter with operands cannot be a countable relation")
  else
    let f := { f with countable := some relation }
    f.checkCountable
    .ok f

end Filter

/-- An operand; the filter for it cannot be a has-many filter. -/
def Operand.make (value label : String) (filter : Filter) : Except CompileError Operand :=
  if filter.kind == .hasMany then .error (Filter.nestedHasMany value)
  else .ok ⟨value, label, filter⟩

end Winnow
