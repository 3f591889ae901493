import Winnow.Schema.Registry

/-!
# Queries

A query selects rows of one entity.  Its clauses are predicates, each with the
connective that joins it to the clauses before it, where AND binds tighter
than OR.  A predicate is a test of one column, a group of clauses, or a
question about related rows that is itself asked by a query.  The global
scopes of the entity are not among the clauses: they hold for every query
unless it removes them.
-/

namespace Winnow

/-! ## Parts without sub-queries -/

/-- How a clause is joined to the clauses before it, or the rules of a group to each other. -/
inductive Connective where
  | and
  | or
  deriving DecidableEq, Repr, Inhabited

/-- A comparison of two values. -/
inductive Comparison where
  | eq
  | ne
  | lt
  | le
  | gt
  | ge
  deriving DecidableEq, Repr

/-- What a test reads of a row. -/
inductive Column where
  /-- A column of the table with a qualifier. -/
  | field (qualifier name : String)
  /-- A timestamp put together of a date and a time column; no time means midnight. -/
  | dateTimeParts (qualifier date time : String)
  deriving DecidableEq, Repr

/-- A condition on one column. -/
inductive Test where
  | compare (column : Column) (op : Comparison) (value : Value)
  /-- A pattern with `%` for any text and `_` for one character, up to case. -/
  | like (column : Column) (pattern : String) (negated : Bool)
  | member (column : Column) (values : List Value) (negated : Bool)
  | null (column : Column) (negated : Bool)
  /-- Null or the empty text. -/
  | empty (column : Column) (negated : Bool)
  /-- Both bounds belong to the range. -/
  | between (column : Column) (low high : Value) (negated : Bool)
  deriving DecidableEq, Repr

/-- Kind of a join. -/
inductive JoinKind where
  | inner
  | left
  deriving DecidableEq, Repr

/-- What an order sorts by. -/
inductive OrderTarget where
  | column (column : Column)
  /-- A name the query projects, such as that of an aggregate. -/
  | output (name : String)
  deriving DecidableEq, Repr

/-- One sort key. -/
structure Order where
  target : OrderTarget
  direction : Direction
  deriving DecidableEq, Repr

/-- Function of an aggregate over related rows. -/
inductive AggregateFunction where
  | count
  | sum
  | min
  | max
  | avg
  | exists_
  deriving DecidableEq, Repr

/-! ## Queries -/

mutual

/-- A condition on the rows of a query. -/
inductive Predicate where
  | test (test : Test)
  /-- A group in parentheses; the empty group holds. -/
  | nested (clauses : List Clause)
  /-- Some row related by the link satisfies the query, or none does. -/
  | related (link : Link) (query : Query) (negated : Bool)
  /-- The number of rows related by the link that satisfy the query compares with a bound. -/
  | counted (link : Link) (query : Query) (op : Comparison) (bound : Int)
  | const (value : Bool)

/-- A condition and how it is joined to those before it; on the first this has no meaning. -/
structure Clause where
  connective : Connective
  predicate : Predicate

/-- A join with another table under an alias. -/
structure Join where
  kind : JoinKind
  table : String
  tableAlias : String
  /-- A column of a table already present. -/
  first : Column
  /-- A column of the joined table. -/
  second : Column
  /-- More conditions on the joined row. -/
  conditions : List Predicate := []

/-- A projected aggregate over related rows. -/
structure Aggregate where
  link : Link
  query : Query
  function : AggregateFunction
  column : Option String
  outputName : String

/-- A query on one entity. -/
structure Query where
  entity : Entity
  tableAlias : Option String
  /-- How deep the query lies inside questions about related rows. -/
  depth : Nat
  clauses : List Clause
  joins : List Join
  orders : List Order
  /-- Projected columns; none means all columns of the entity. -/
  selects : List Column
  /-- Relations to load along. -/
  eager : List String
  aggregates : List Aggregate
  limit : Option Nat
  offset : Option Nat
  /-- Names of global scopes that do not apply, in increasing order. -/
  removedScopes : List String

end

/-! ## Views -/

namespace Connective

/-- Keyword in SQL. -/
def keyword : Connective → String
  | .and => "AND"
  | .or => "OR"

end Connective

namespace Comparison

/-- Sign in SQL. -/
def sign : Comparison → String
  | .eq => "="
  | .ne => "<>"
  | .lt => "<"
  | .le => "<="
  | .gt => ">"
  | .ge => ">="

/-- Whether an order of the two values satisfies the comparison. -/
def holds : Comparison → Ordering → Bool
  | .eq, o => o == .eq
  | .ne, o => o != .eq
  | .lt, o => o == .lt
  | .le, o => o != .gt
  | .gt, o => o == .gt
  | .ge, o => o != .lt

end Comparison

namespace Column

/-- The qualifier of the table read. -/
def qualifier : Column → String
  | .field q _ | .dateTimeParts q _ _ => q

/-- The name under which the column is projected. -/
def outputName : Column → String
  | .field _ name => name
  | .dateTimeParts _ date _ => date

end Column

namespace JoinKind

/-- Keyword in SQL. -/
def keyword : JoinKind → String
  | .inner => "INNER JOIN"
  | .left => "LEFT JOIN"

end JoinKind

namespace AggregateFunction

/-- Name of the function in SQL. -/
def keyword : AggregateFunction → String
  | .count => "COUNT"
  | .sum => "SUM"
  | .min => "MIN"
  | .max => "MAX"
  | .avg => "AVG"
  | .exists_ => "EXISTS"

/-- Name of the function in aliases. -/
def name : AggregateFunction → String
  | .count => "count"
  | .sum => "sum"
  | .min => "min"
  | .max => "max"
  | .avg => "avg"
  | .exists_ => "exists"

end AggregateFunction

namespace Predicate

/-- Both bounds of the half-open interval from `low` to `high`. -/
def halfOpen (column : Column) (low high : Value) : Predicate :=
  .nested [⟨.and, .test (.compare column .ge low)⟩, ⟨.and, .test (.compare column .lt high)⟩]

/-- Below the half-open interval from `low` to `high` or not below its end. -/
def outside (column : Column) (low high : Value) : Predicate :=
  .nested [⟨.and, .test (.compare column .lt low)⟩, ⟨.or, .test (.compare column .ge high)⟩]

end Predicate

namespace GlobalScope

/-- The test that the scope is on the rows of a table with a qualifier. -/
def test (scope : GlobalScope) (entity : Entity) (qualifier : String) : Test :=
  match scope.constraint with
  | .softDeletes column => .null (.field qualifier column) false
  | .equals column value =>
    let type := (entity.columnType? column).getD .text
    match (Value.ofJson? value type).getD .null with
    | .null => .null (.field qualifier column) false
    | value => .compare (.field qualifier column) .eq value

end GlobalScope

namespace Query

/-- A query for every row of an entity. -/
def ofEntity (entity : Entity) : Query :=
  ⟨entity, none, 0, [], [], [], [], [], [], none, none, []⟩

/-- The name that columns of the entity are qualified with. -/
def qualifier (q : Query) : String := q.tableAlias.getD q.entity.table

/-- Whether a global scope does not apply. -/
def isScopeRemoved (q : Query) (name : String) : Bool := q.removedScopes.contains name

/-- The global scopes that apply. -/
def activeScopes (q : Query) : List GlobalScope :=
  q.entity.scopes.filter fun scope => !q.isScopeRemoved scope.name

/-- The tests of the global scopes that apply. -/
def scopeTests (q : Query) : List Test :=
  q.activeScopes.map fun scope => scope.test q.entity q.qualifier

/-- A column of the entity. -/
def column (q : Query) (name : String) : Column := .field q.qualifier name

/-- A timestamp of two columns of the entity. -/
def dateTimeColumn (q : Query) (date time : String) : Column :=
  .dateTimeParts q.qualifier date time

end Query
end Winnow
