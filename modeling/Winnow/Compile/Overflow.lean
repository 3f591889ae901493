import Winnow.Compile.Tree

/-!
# Dates beyond the representable ones

Some steps from date to date are not checked: the date local clocks show now,
the Monday of its week, the instant a local day begins, and the instant of a
local time.  A date beyond the representable ones ends the program there.  The
functions below list the dates that compiling arrives at by such steps, as far
as it gets.
-/

namespace Winnow

namespace CompileContext

/-- The dates in UTC on which local days begin. -/
def startDates (context : CompileContext) (days : List Date) : List Date :=
  days.map fun day => (context.timezone.dayStart day).date

/-- The dates that the bounds of a local day are on; the day after it is checked first. -/
def dayDates (context : CompileContext) (day : Date) : List Date :=
  match day.next? with
  | some next => context.startDates [day, next]
  | none => []

/-- The dates that the bounds of a stretch of days are on, in a column of a type. -/
def boundDates (context : CompileContext) (type : ColumnType) : Option (Date × Date) → List Date
  | some (start, finish) => if type = .dateTime then context.startDates [start, finish] else []
  | none => []

/-- The dates that a window is resolved with; the week is looked at whatever the window is. -/
def windowDates (context : CompileContext) (type : ColumnType) (w : Window) : List Date :=
  context.localToday :: context.localToday.weekStart ::
    context.boundDates type (w.days? context.localToday)

end CompileContext

namespace Operation

/-! ## Operators -/

/-- The data values that the operator reads, if it reads any as values. -/
def operands (op : Operation) : List Json :=
  match op.operator, op.value with
  | .equal, value | .notEqual, value | .less, value | .lessOrEqual, value | .greater, value
  | .greaterOrEqual, value => [value]
  | .between, .array [low, high] | .notBetween, .array [low, high] => [low, high]
  | .in_, value | .notIn, value => listValues value
  | _, _ => []

/-- The plain dates that are taken as whole local days, if all operands are; a list has none. -/
def wholeDays? (op : Operation) : Option (List Date) :=
  if op.operator = .in_ ∨ op.operator = .notIn then none else op.operands.mapM op.dateOnly?

/-- The data values that are read one after another, up to the first that cannot be. -/
def attempts (op : Operation) : List Json → List Json
  | [] => []
  | json :: rest => json :: if (op.scalar json).isOk then op.attempts rest else []

/-- The data values that are read as single values. -/
def scalars (op : Operation) : List Json :=
  if op.wholeDays?.isSome then [] else op.attempts op.operands

/-- The local time that a data value is in a column of instants. -/
def clockReading? (op : Operation) (json : Json) : Option Instant :=
  if op.type = .dateTime then json.text?.bind Calendar.readClockReading? else none

/-- The window that the value of the operator names. -/
def window? (op : Operation) : Option Window :=
  (op.value.text?.bind Window.ofToken?).filter fun w => w.operator == op.operator

/-- The dates that the operator arrives at by unchecked steps. -/
def dates (op : Operation) : List Date :=
  (op.wholeDays?.getD []).flatMap op.context.dayDates ++
    (op.scalars.filterMap op.clockReading?).map (fun reading =>
      (op.context.timezone.instantOf reading).date) ++
    op.window?.toList.flatMap (op.context.windowDates op.type)

/-- Whether the operator arrives at a date that is not representable. -/
def overflows (op : Operation) : Bool := op.dates.any fun date => !date.inRange

end Operation

namespace Compile

/-! ## Rules -/

/-- An operator on a column. -/
def columnOperation (env : Environment) (column : Column) (declared : Option ColumnType)
    (filter : Filter) (operator : Operator) (value : Json) (field : String) : Operation where
  column := column
  type := declared.getD filter.kind.columnType
  operator := operator
  value := value
  field := field
  context := env.context

/-- An operator on the column at the end of a path of relations. -/
def relatedOperation (env : Environment) (filter : Filter) (operator : Operator) (value : Json)
    (field column : String) : List String → Query → Except CompileError Operation
  | [], q =>
    .ok (columnOperation env (q.column column) (q.entity.columnType? column) filter operator value
      field)
  | relation :: rest, q => do
    let (_, related) ← q.relationQuery env.registry relation
    relatedOperation env filter operator value field column rest related

/-- An operator on a field of a query, which may go through relations. -/
def fieldOperation (env : Environment) (q : Query) (field : String) (filter : Filter)
    (operator : Operator) (value : Json) : Except CompileError Operation :=
  match filter.dateTimeParts with
  | some (date, time) =>
    .ok (columnOperation env (q.dateTimeColumn date time) (some .dateTime) filter operator value
      field)
  | none =>
    let path := env.registry.splitPath q.entity field
    if !path.isRelated then
      .ok (columnOperation env (q.column path.column) (q.entity.columnType? path.column) filter
        operator value field)
    else match joinOf? env q path with
      | some target => do
        let related ← env.registry.walk q.entity path.relations
        .ok (columnOperation env (.field target.tableAlias path.column)
          (related.columnType? path.column) filter operator value field)
      | none => relatedOperation env filter operator value field path.column path.relations q

/-- The operator that a usable rule without custom predicate applies, if it applies one. -/
def resolvedOperation? (env : Environment) (r : Resolved) (value : Json) (q : Query) :
    Option Operation :=
  let related? : Option Query := do
    let (_, related) ← (q.relationQuery env.registry (← r.filter.relation)).toOption
    some related
  if r.filter.kind == .hasMany then do
    (fieldOperation env (← related?) r.field r.target r.operator value).toOption
  else if r.filter.countable.isSome then none
  else if r.filter.kind == .tags then
    if r.operator = .in_ ∨ r.operator = .notIn then
      related?.map fun related =>
        let key := related.entity.primaryKey
        columnOperation env (related.column key) (related.entity.columnType? key) r.filter .in_
          value r.filter.id
    else none
  else (fieldOperation env q r.field r.target r.operator value).toOption

/-- The operator that a rule applies, if it applies one. -/
def leafOperation? (filters : FilterSet) (env : Environment) (q : Query) (leaf : Rule.Leaf) :
    Option Operation := do
  let r ← (resolve filters leaf).toOption
  if r.custom?.isSome then none else resolvedOperation? env r leaf.value q

mutual

/-- The operators that compiling a node applies. -/
def nodeOperations (filters : FilterSet) (env : Environment) (q : Query) :
    Rule.Node → List Operation
  | .group condition children => nodesOperations filters env condition q children
  | .leaf leaf => (leafOperation? filters env q leaf).toList

/-- The operators that compiling nodes applies, up to the first node that fails. -/
def nodesOperations (filters : FilterSet) (env : Environment) (connective : Connective)
    (q : Query) : List Rule.Node → List Operation
  | [] => []
  | node :: rest =>
    nodeOperations filters env q node ++
      if (compileNode filters env connective q node).isOk then
        nodesOperations filters env connective q rest
      else []

end

/-- The operators that compiling a tree applies. -/
def treeOperations (filters : FilterSet) (env : Environment) (tree : Rule.Tree) (q : Query) :
    List Operation :=
  nodesOperations filters env tree.condition q tree.children

end Compile
end Winnow
