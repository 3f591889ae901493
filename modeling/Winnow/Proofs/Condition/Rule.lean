import Winnow.Compile.Tree
import Winnow.Proofs.Condition.Question

/-!
# What rules say of a row

A reading of rule trees without queries, joins and frames.  A rule is a
condition on the rows of an entity: it asks a question of a field, of a field
of the visible rows that a path of relations reaches, or about the visible
related rows.  A group is the conjunction or disjunction of the conditions that
are left of it, and a group of which nothing is left is left out.

What a rule on a to-one path that reaches no row says is a matter of the
reading (`Missing`): the fields of the missing row are null, or no condition on
them holds.
-/

namespace Winnow

open Engine

/-! ## Visible rows -/

/-- Whether a row meets the demand of a scope. -/
def GlobalScope.admits (scope : GlobalScope) (entity : Entity) (row : Row) : Bool :=
  match scope.constraint with
  | .softDeletes column => (row.value column).isNull
  | .equals column value =>
    match (Value.ofJson? value ((entity.columnType? column).getD .text)).getD .null with
    | .null => (row.value column).isNull
    | demanded => (row.value column).equals demanded

/-- Whether a row meets the demands of all global scopes. -/
def Entity.shows (e : Entity) (row : Row) : Bool := e.scopes.all fun scope => scope.admits e row

/-- How a to-one path that reaches no row is read. -/
inductive Missing where
  /-- Every field at its end is null. -/
  | null
  /-- No condition on a field at its end holds. -/
  | unmet
  deriving DecidableEq, Repr

/-- What a rule says of a row, in either reading of missing rows. -/
abbrev Condition := Missing → Row → Bool

namespace Condition

/-- The visible rows that a relation leads to from a row. -/
def reachedBy (db : Dataset) (found : Relation) (related : Entity) (row : Row) : List Row :=
  (linkedRows db (found.link "" "" related.table "") row).filter related.shows

/-- The rows at the end of a path of relations, every row on the way visible. -/
def reached (db : Dataset) (registry : Registry) (e : Entity) : List String → Row → List Row
  | [], row => [row]
  | relation :: rest, row =>
    match registry.related e relation with
    | .ok (found, related) =>
      (reachedBy db found related row).flatMap (reached db registry related rest)
    | .error _ => []

/-- The field of a row that may be missing. -/
def fieldOf (column : String) : Option Row → Value
  | some row => row.value column
  | none => .null

/-! ## Rules -/

section
variable (db : Dataset) (registry : Registry) (context : CompileContext)

/-- What an operator asks of a field. -/
def asked (declared : Option ColumnType) (filter : Filter) (operator : Operator) (value : Json)
    (field : String) : Except CompileError (Option Question) :=
  Operation.question {
    column := .field "" field
    type := declared.getD filter.kind.columnType
    operator := operator
    value := value
    field := field
    context := context }

/-- A question about the field at the end of a path: of the one row that a to-one path leads to, of
any row otherwise. -/
def ofPath (e : Entity) (path : FieldPath) (asks : Question) : Condition := fun missing row =>
  let rows := reached db registry e path.relations row
  if missing = .null ∧ registry.isToOnePath e path.relations then
    asks (fieldOf path.column rows.head?)
  else rows.any fun r => asks (r.value path.column)

/-- A rule on a field, which may go through relations, or on a timestamp of two columns. -/
def ofField (e : Entity) (field : String) (filter : Filter) (operator : Operator) (value : Json) :
    Except CompileError (Option Condition) :=
  match filter.dateTimeParts with
  | some (date, time) =>
    (asked context (some .dateTime) filter operator value field).map
      (·.map fun asks _ row => asks (timestamp (row.value date) (row.value time)))
  | none => do
    let path := registry.splitPath e field
    let owner ← registry.walk e path.relations
    (asked context (owner.columnType? path.column) filter operator value field).map
      (·.map (ofPath db registry e path))

/-- A rule that some related row satisfies the operand. -/
def ofHasMany (e : Entity) (r : Compile.Resolved) (value : Json) :
    Except CompileError (Option Condition) := do
  let relation ← match r.filter.relation with
    | some relation => .ok relation
    | none => .error (.descriptor r.filter.id "a has-many filter requires a relation")
  let (found, related) ← registry.related e relation
  (ofField db registry context related r.field r.target r.operator value).map
    (·.map fun c _ row => (reachedBy db found related row).any (c .unmet))

/-- A rule on the number of related rows. -/
def ofCount (e : Entity) (filter : Filter) (relation : String) (operator : Operator)
    (value : Json) : Except CompileError (Option Condition) := do
  let comparison ← match operator.comparison? with
    | some comparison => .ok comparison
    | none => .error (.operatorNotAllowed filter.id operator.token)
  let count ← match Value.ofJson? value .integer with
    | some (.integer count) => .ok count
    | _ => .error (.invalidValue filter.id operator.token (value.compact ++ " is not a count"))
  let (found, related) ← registry.related e relation
  .ok (some fun _ row =>
    comparison.holds (compare ((reachedBy db found related row).length : Int) count))

/-- A rule on the keys of related tags. -/
def ofListed (found : Relation) (related : Entity) (filter : Filter) (value : Json)
    (negated : Bool) : Except CompileError (Option Condition) :=
  (asked context (related.columnType? related.primaryKey) filter .in_ value filter.id).map
    (·.map fun asks _ row =>
      (reachedBy db found related row).any (fun r => asks (r.value related.primaryKey)) != negated)

/-- A rule on related tags. -/
def ofTags (e : Entity) (filter : Filter) (operator : Operator) (value : Json) :
    Except CompileError (Option Condition) := do
  let relation ← match filter.relation with
    | some relation => .ok relation
    | none => .error (.descriptor filter.id "a tags filter requires a relation")
  let (found, related) ← registry.related e relation
  match operator with
  | .isNull => .ok (some fun _ row => (reachedBy db found related row).isEmpty)
  | .isNotNull => .ok (some fun _ row => !(reachedBy db found related row).isEmpty)
  | .in_ => ofListed db context found related filter value false
  | .notIn => ofListed db context found related filter value true
  | other => .error (.operatorNotAllowed filter.id other.token)

/-- A usable rule without custom predicate. -/
def ofResolved (e : Entity) (r : Compile.Resolved) (value : Json) :
    Except CompileError (Option Condition) :=
  if r.filter.kind == .hasMany then ofHasMany db registry context e r value
  else match r.filter.countable with
    | some relation => ofCount db registry e r.filter relation r.operator value
    | none =>
      if r.filter.kind == .tags then ofTags db registry context e r.filter r.operator value
      else ofField db registry context e r.field r.target r.operator value

/-- A rule; nothing when it places no constraint. -/
def ofLeaf (filters : FilterSet) (e : Entity) (leaf : Rule.Leaf) :
    Except CompileError (Option Condition) := do
  let r ← Compile.resolve filters leaf
  ofResolved db registry context e r leaf.value

/-! ## Groups -/

/-- Whether all or any of some conditions hold. -/
def joined (connective : Connective) (conditions : List Condition) : Condition := fun missing row =>
  match connective with
  | .and => conditions.all fun c => c missing row
  | .or => conditions.any fun c => c missing row

/-- A group of conditions; nothing when there are none. -/
def ofGroup (connective : Connective) (conditions : List Condition) : Option Condition :=
  if conditions.isEmpty then none else some (joined connective conditions)

/-- What is left of a rule that cannot be used: nothing, or an error. -/
def admitted : Except CompileError (Option Condition) → Except CompileError (Option Condition)
  | .ok c => .ok c
  | .error error => if context.isStrict then .error error else .ok none

mutual

/-- What a node says, nothing when nothing is left of it. -/
def ofNode (filters : FilterSet) (e : Entity) : Rule.Node → Except CompileError (Option Condition)
  | .group connective children => (ofNodes filters e children).map (ofGroup connective)
  | .leaf leaf => admitted context (ofLeaf db registry context filters e leaf)

/-- What is left of several nodes. -/
def ofNodes (filters : FilterSet) (e : Entity) :
    List Rule.Node → Except CompileError (List Condition)
  | [] => .ok []
  | node :: rest => do
    let c ← ofNode filters e node
    let conditions ← ofNodes filters e rest
    .ok (c.toList ++ conditions)

end

/-- What a tree says; a tree of which nothing is left says nothing against a row. -/
def ofTree (filters : FilterSet) (e : Entity) (tree : Rule.Tree) : Except CompileError Condition :=
  (ofNodes db registry context filters e tree.children).map fun conditions =>
    (ofGroup tree.condition conditions).getD fun _ _ => true

end

end Condition
end Winnow
