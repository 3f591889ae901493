import Winnow.Bounds
import Winnow.Query.Basic

/-!
# Building queries

Every operation takes a query to a new one.  Clauses are appended, joins and
aggregates are kept once per name, and a group is collected in a query of its
own (`Query.group`) and put in as one clause (`Query.addGroup`).  A question
about related rows is built on the query that `Query.relationQuery` gives.
-/

namespace Winnow.Query

/-! ## Groups and related queries -/

/-- An empty query on the same table, to collect a group in. -/
def group (q : Query) : Query :=
  { ofEntity q.entity with tableAlias := q.tableAlias, depth := q.depth }

/-- A query on the entity that a relation leads to, and its link with this query.  The related
table gets an alias when its name would hide the qualifier of this query. -/
def relationQuery (q : Query) (registry : Registry) (relation : String) :
    Except CompileError (Link × Query) := do
  let (found, related) ← registry.related q.entity relation
  let depth := q.depth + 1
  let tableAlias :=
    if related.table = q.qualifier then some (related.table ++ "_" ++ Text.natText depth)
    else none
  let query := { ofEntity related with tableAlias := tableAlias, depth := depth }
  .ok (found.link relation q.qualifier related.table query.qualifier, query)

/-! ## Clauses -/

/-- Appends a clause. -/
def addClause (q : Query) (connective : Connective) (predicate : Predicate) : Query :=
  { q with clauses := q.clauses ++ [⟨connective, predicate⟩] }

/-- Appends a test. -/
def addTest (q : Query) (connective : Connective) (test : Test) : Query :=
  q.addClause connective (.test test)

/-- Appends a comparison of a column of the entity. -/
def addComparison (q : Query) (column : String) (op : Comparison) (value : Value)
    (connective : Connective) : Query :=
  q.addTest connective (.compare (q.column column) op value)

/-- Appends a test for null of a column of the entity. -/
def addNull (q : Query) (column : String) (negated : Bool) (connective : Connective) : Query :=
  q.addTest connective (.null (q.column column) negated)

/-- Appends a question whether related rows exist. -/
def addRelated (q : Query) (connective : Connective) (link : Link) (query : Query)
    (negated : Bool) : Query :=
  q.addClause connective (.related link query negated)

/-- Appends a comparison of the number of related rows. -/
def addCounted (q : Query) (connective : Connective) (link : Link) (query : Query)
    (op : Comparison) (bound : Int) : Query :=
  q.addClause connective (.counted link query op bound)

/-! ## Joins, aggregates and eager loads -/

/-- Whether a join has the alias. -/
def hasJoin (q : Query) (tableAlias : String) : Bool :=
  q.joins.any fun j => j.tableAlias == tableAlias

/-- Adds a join unless its alias is taken. -/
def addJoin (q : Query) (join : Join) : Query :=
  if q.hasJoin join.tableAlias then q else { q with joins := q.joins ++ [join] }

/-- Whether an aggregate has the name. -/
def hasAggregate (q : Query) (name : String) : Bool :=
  q.aggregates.any fun a => a.outputName == name

/-- Adds an aggregate unless its name is taken. -/
def addAggregate (q : Query) (aggregate : Aggregate) : Query :=
  if q.hasAggregate aggregate.outputName then q
  else { q with aggregates := q.aggregates ++ [aggregate] }

/-- Adds a relation to load along, once. -/
def addEager (q : Query) (relation : String) : Query :=
  if q.eager.contains relation then q else { q with eager := q.eager ++ [relation] }

/-- Adds relations to load along. -/
def load (q : Query) (relations : List String) : Query := relations.foldl addEager q

/-- Puts a collected group in as one clause.  An empty group adds no clause and a group of one
clause adds that one; what else the group collected is kept, joins and aggregates once per
alias. -/
def addGroup (q : Query) (connective : Connective) (group : Query) : Query :=
  let q := group.joins.foldl addJoin q
  let q := group.aggregates.foldl addAggregate q
  let q := q.load group.eager
  let q := { q with orders := q.orders ++ group.orders }
  match group.clauses with
  | [] => q
  | [clause] => q.addClause connective clause.predicate
  | clauses => q.addClause connective (.nested clauses)

/-! ## Scopes -/

/-- Inserts a name into an increasing list, once. -/
def insertName (name : String) : List String → List String
  | [] => [name]
  | n :: rest =>
    if n = name then n :: rest
    else if name < n then name :: n :: rest
    else n :: insertName name rest

/-- Removes a global scope. -/
def removeScope (q : Query) (name : String) : Query :=
  { q with removedScopes := insertName name q.removedScopes }

/-- Removes every scope that another query removed. -/
def inheritRemoved (q other : Query) : Query := other.removedScopes.foldl removeScope q

/-! ## Joins along relations -/

/-- The join along one to-one relation. -/
def relationJoin (found : Relation) (related : Entity) (relation parent tableAlias : String) :
    Option Join :=
  match (found.link relation parent related.table tableAlias).kind with
  | .direct parentColumn relatedColumn =>
    some {
      kind := .left
      table := related.table
      tableAlias := tableAlias
      first := .field parent parentColumn
      second := .field tableAlias relatedColumn
      conditions := related.scopes.map fun scope => .test (scope.test related tableAlias) }
  | .pivot .. => none

/-- Joins the rest of a path of relations after the relations walked already; gives the alias of
the last one. -/
def joinFrom (registry : Registry) (walked : List String) (entity : Entity) (parent : String) :
    List String → Query → Except CompileError (String × Query)
  | [], q => .ok (parent, q)
  | relation :: rest, q =>
    match registry.related entity relation with
    | .error error => .error error
    | .ok (found, related) =>
      let path := walked ++ [relation]
      if !found.isToOne then .error (.relationNotJoinable (Text.join "." path))
      else
        let tableAlias := Text.join "_" path
        let q := match relationJoin found related relation parent tableAlias with
          | some join => q.addJoin join
          | none => q
        joinFrom registry path related tableAlias rest q

/-- Left joins every relation of a to-one path, each under the path up to it joined with
underscores; gives the alias of the last one. -/
def joinPath (q : Query) (registry : Registry) (relations : List String) :
    Except CompileError (String × Query) :=
  joinFrom registry [] q.entity q.qualifier relations q

/-! ## Order, projection and paging -/

/-- Appends a sort key. -/
def addOrder (q : Query) (target : OrderTarget) (direction : Direction) : Query :=
  { q with orders := q.orders ++ [⟨target, direction⟩] }

/-- Appends a column of the entity as a sort key. -/
def orderByColumn (q : Query) (column : String) (direction : Direction) : Query :=
  q.addOrder (.column (q.column column)) direction

/-- Drops every sort key. -/
def forgetOrders (q : Query) : Query := { q with orders := [] }

/-- Projects columns of the entity, each once. -/
def select (q : Query) (columns : List String) : Query :=
  columns.foldl (fun q name =>
    let column := q.column name
    if q.selects.contains column then q else { q with selects := q.selects ++ [column] }) q

/-- The name an aggregate is projected under. -/
def aggregateName (relation : String) (function : AggregateFunction) (column : Option String) :
    String :=
  match column with
  | some column => relation ++ "_" ++ function.name ++ "_" ++ column
  | none => relation ++ "_" ++ function.name

/-- Projects an aggregate over a relation; gives its name. -/
def aggregate (q : Query) (registry : Registry) (relation : String)
    (function : AggregateFunction) (column : Option String) :
    Except CompileError (String × Query) := do
  let name := aggregateName relation function column
  if q.hasAggregate name then .ok (name, q)
  else
    let (link, query) ← q.relationQuery registry relation
    match column with
    | some column =>
      if !query.entity.hasColumn column then
        .error (.unknownColumn query.entity.name column)
      else .ok (name, q.addAggregate ⟨link, query, function, some column, name⟩)
    | none => .ok (name, q.addAggregate ⟨link, query, function, none, name⟩)

/-- Projects the number of related rows. -/
def countRelated (q : Query) (registry : Registry) (relation : String) :
    Except CompileError (String × Query) :=
  q.aggregate registry relation .count none

/-- Limits the number of rows. -/
def take (q : Query) (limit : Nat) : Query := { q with limit := some limit }

/-- Skips rows. -/
def skip (q : Query) (offset : Nat) : Query := { q with offset := some offset }

/-- The rows of one page, pages counted from 1. -/
def forPage (q : Query) (page perPage : Nat) : Query :=
  (q.skip ((page - 1) * perPage % Bounds.uint64Count)).take perPage

end Winnow.Query
