import Winnow.Compile.Operation
import Winnow.Filter.FilterSet

/-!
# Compiling one rule

A rule adds at most one clause to a query.  A field of the entity is compared
directly; a field reached through relations is compared in the joined table
when its path was joined, and otherwise becomes a question about related rows,
which never multiplies rows.  A rule that cannot be used is an error and
leaves the query as it was.
-/

namespace Winnow.Compile

/-! ## Fields -/

/-- The predicate of an operator on a column. -/
def columnPredicate (env : Environment) (column : Column) (declared : Option ColumnType)
    (filter : Filter) (operator : Operator) (value : Json) (field : String) :
    Except CompileError (Option Predicate) :=
  Operation.predicate {
    column := column
    type := declared.getD filter.kind.columnType
    operator := operator
    value := value
    field := field
    context := env.context }

/-- The predicate on a column at the end of a path of relations, as questions about related rows
one inside the other. -/
def relatedPredicate (env : Environment) (filter : Filter) (operator : Operator) (value : Json)
    (field column : String) : List String → Query → Except CompileError (Option Predicate)
  | [], q =>
    columnPredicate env (q.column column) (q.entity.columnType? column) filter operator value field
  | relation :: rest, q => do
    let (link, related) ← q.relationQuery env.registry relation
    let inner ← relatedPredicate env filter operator value field column rest related
    .ok (inner.map fun p => .related link (related.addClause .and p) false)

/-- The join of a path on the outermost query, if there is one. -/
def joinOf? (env : Environment) (q : Query) (path : FieldPath) : Option JoinTarget :=
  if q.depth = 0 then env.joins.bind fun joins => joins.get? path.relationPath else none

/-- The predicate of an operator on a field of a query, which may go through relations. -/
def fieldPredicate (env : Environment) (q : Query) (field : String) (filter : Filter)
    (operator : Operator) (value : Json) : Except CompileError (Option Predicate) :=
  match filter.dateTimeParts with
  | some (date, time) =>
    columnPredicate env (q.dateTimeColumn date time) (some .dateTime) filter operator value field
  | none =>
    let path := env.registry.splitPath q.entity field
    if !path.isRelated then
      columnPredicate env (q.column path.column) (q.entity.columnType? path.column) filter operator
        value field
    else match joinOf? env q path with
      | some target => do
        let related ← env.registry.walk q.entity path.relations
        columnPredicate env (.field target.tableAlias path.column)
          (related.columnType? path.column) filter operator value field
      | none => relatedPredicate env filter operator value field path.column path.relations q

/-! ## The parts of a rule -/

/-- A usable rule: its filter, the operator, and the selected operand where operands are used. -/
structure Resolved where
  filter : Filter
  operator : Operator
  operand : Option Operand

namespace Resolved

/-- The filter that values are meant by: that of the operand if there is one. -/
def target (r : Resolved) : Filter :=
  match r.operand with
  | some operand => operand.filter
  | none => r.filter

/-- The field compiled against. -/
def field (r : Resolved) : String :=
  match r.operand with
  | some operand => operand.value
  | none => r.filter.field

/-- The custom predicate that takes over, if there is one. -/
def custom? (r : Resolved) : Option CustomPredicate :=
  match r.filter.custom with
  | some custom => some custom
  | none => r.target.custom

end Resolved

/-- The operand a rule selects, where its filter uses operands. -/
def resolveOperand (filter : Filter) (leaf : Rule.Leaf) : Except CompileError (Option Operand) :=
  if filter.kind.usesOperands then
    match leaf.operand.bind filter.operand? with
    | some operand => .ok (some operand)
    | none => .error (.invalidOperand leaf.rule leaf.operand)
  else .ok none

/-- Whether the operator is allowed on the filter and on the operand, if there is one. -/
def isAllowed (filter : Filter) (operand : Option Operand) (operator : Operator) : Bool :=
  match operand with
  | some operand => filter.allowsWith operand operator
  | none => Filter.allows operator filter

/-- Looks up the filter, operator and operand of a rule and checks that they go together. -/
def resolve (filters : FilterSet) (leaf : Rule.Leaf) : Except CompileError Resolved := do
  let filter ← match (filters.get? leaf.rule).filter Filter.isAuthorized with
    | some filter => .ok filter
    | none => .error (.unknownFilter leaf.rule)
  let notAllowed := CompileError.operatorNotAllowed leaf.rule leaf.operator
  let operator ← match Operator.ofToken? leaf.operator with
    | some operator => .ok operator
    | none => .error notAllowed
  let operand ← resolveOperand filter leaf
  if isAllowed filter operand operator then .ok ⟨filter, operator, operand⟩
  else .error notAllowed

/-! ## Clauses -/

/-- Puts the work of a custom predicate in as a group. -/
def compileCustom (env : Environment) (custom : CustomPredicate) (call : PredicateCall)
    (q : Query) : Except CompileError Query := do
  let group ← custom.apply env call q.group
  .ok ((q.inheritRemoved group).addGroup call.connective group)

/-- A question whether a related row satisfies the operand. -/
def compileHasMany (env : Environment) (r : Resolved) (value : Json) (connective : Connective)
    (q : Query) : Except CompileError Query := do
  let relation ← match r.filter.relation with
    | some relation => .ok relation
    | none => .error (.descriptor r.filter.id "a has-many filter requires a relation")
  let (link, related) ← q.relationQuery env.registry relation
  match ← fieldPredicate env related r.field r.target r.operator value with
  | some p => .ok (q.addRelated connective link (related.addClause .and p) false)
  | none => .ok q

/-- A comparison of the number of related rows. -/
def compileCount (env : Environment) (filter : Filter) (relation : String) (operator : Operator)
    (value : Json) (connective : Connective) (q : Query) : Except CompileError Query := do
  let comparison ← match operator.comparison? with
    | some comparison => .ok comparison
    | none => .error (.operatorNotAllowed filter.id operator.token)
  let count ← match Value.ofJson? value .integer with
    | some (.integer count) => .ok count
    | _ => .error (.invalidValue filter.id operator.token (value.compact ++ " is not a count"))
  let (link, related) ← q.relationQuery env.registry relation
  .ok (q.addCounted connective link related comparison count)

/-- A question about related tags: any, none, or those of a list. -/
def compileTags (env : Environment) (filter : Filter) (operator : Operator) (value : Json)
    (connective : Connective) (q : Query) : Except CompileError Query := do
  let relation ← match filter.relation with
    | some relation => .ok relation
    | none => .error (.descriptor filter.id "a tags filter requires a relation")
  let (link, related) ← q.relationQuery env.registry relation
  let listed (negated : Bool) : Except CompileError Query := do
    let key := related.entity.primaryKey
    let p ← columnPredicate env (related.column key) (related.entity.columnType? key) filter .in_
      value filter.id
    match p with
    | some p => .ok (q.addRelated connective link (related.addClause .and p) negated)
    | none => .ok q
  match operator with
  | .isNull => .ok (q.addRelated connective link related true)
  | .isNotNull => .ok (q.addRelated connective link related false)
  | .in_ => listed false
  | .notIn => listed true
  | other => .error (.operatorNotAllowed filter.id other.token)

/-- A comparison of the field itself. -/
def compileField (env : Environment) (r : Resolved) (value : Json) (connective : Connective)
    (q : Query) : Except CompileError Query := do
  match ← fieldPredicate env q r.field r.target r.operator value with
  | some p => .ok (q.addClause connective p)
  | none => .ok q

/-- Compiles a usable rule into at most one clause. -/
def compileResolved (env : Environment) (r : Resolved) (leaf : Rule.Leaf)
    (connective : Connective) (q : Query) : Except CompileError Query :=
  match r.custom? with
  | some custom => compileCustom env custom ⟨leaf.value, connective, r.operator, leaf⟩ q
  | none =>
    if r.filter.kind == .hasMany then compileHasMany env r leaf.value connective q
    else match r.filter.countable with
      | some relation => compileCount env r.filter relation r.operator leaf.value connective q
      | none =>
        if r.filter.kind == .tags then
          compileTags env r.filter r.operator leaf.value connective q
        else compileField env r leaf.value connective q

/-- Compiles a rule into at most one clause. -/
def compileLeaf (filters : FilterSet) (env : Environment) (leaf : Rule.Leaf)
    (connective : Connective) (q : Query) : Except CompileError Query := do
  let r ← resolve filters leaf
  compileResolved env r leaf connective q

end Winnow.Compile
