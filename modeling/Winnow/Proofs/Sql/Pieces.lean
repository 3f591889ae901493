import Winnow.Sql.Writer

/-!
# Statements in pieces

A statement is a list of pieces: fixed words, names to be quoted, and bound
values.  `Statement.sql` writes the pieces as text, numbering the bound values
from the left, and `Statement.bindings` lists them, so here values are bound
where they stand.  `select` and `condition` give the pieces of a query.
-/

namespace Winnow.Sql

/-- A piece of a statement. -/
inductive Piece where
  | words (text : String)
  | name (identifier : String)
  | bound (value : Value)
  deriving DecidableEq, Repr

/-- A statement in pieces. -/
abbrev Statement := List Piece

/-! ## Writing pieces -/

namespace Statement

/-- Writes pieces from left to right; `n` values were bound before. -/
def write (d : Dialect) : Nat → Statement → String
  | _, [] => ""
  | n, .words text :: rest => text ++ write d n rest
  | n, .name identifier :: rest => d.quote identifier ++ write d n rest
  | n, .bound _ :: rest => d.placeholder (n + 1) ++ write d (n + 1) rest

/-- The text of a statement. -/
def sql (d : Dialect) (s : Statement) : String := write d 0 s

/-- The bound values from left to right. -/
def bindings (s : Statement) : List Value :=
  s.filterMap fun
    | .bound value => some value
    | _ => none

/-- Statements one after another with words between neighbours. -/
def joinWith (separator : String) : List Statement → Statement
  | [] => []
  | [s] => s
  | s :: next :: rest => s ++ .words separator :: joinWith separator (next :: rest)

/-- A statement in parentheses. -/
def parenthesized (s : Statement) : Statement := .words "(" :: s ++ [.words ")"]

end Statement

/-! ## Names and columns -/

/-- A qualified name. -/
def qualified (qualifier name : String) : Statement :=
  [.name qualifier, .words ".", .name name]

/-- A table with its alias, when that differs from its name. -/
def tableAs (table : String) (tableAlias : Option String) : Statement :=
  match tableAlias with
  | some tableAlias =>
    if tableAlias = table then [.name table]
    else [.name table, .words " AS ", .name tableAlias]
  | none => [.name table]

/-- A column. -/
def column (d : Dialect) : Column → Except Failure Statement
  | .field qualifier name => .ok (qualified qualifier name)
  | .dateTimeParts qualifier date time =>
    let date := qualified qualifier date
    let time := .words "COALESCE(" :: qualified qualifier time ++ [.words ", '00:00:00')"]
    let concat := date ++ .words ", ' ', " :: time
    match d with
    | .postgres => .ok (.words "CAST(CONCAT(" :: concat ++ [.words ") AS TIMESTAMP)"])
    | .mysql => .ok (.words "CAST(CONCAT(" :: concat ++ [.words ") AS DATETIME)"])
    | .sqlite => .ok (.words "DATETIME(" :: date ++ .words " || ' ' || " :: time ++ [.words ")"])
    | .sqlServer => .error (noDateTimeParts d)

/-! ## Conditions -/

/-- A condition that always holds, or never. -/
def constant (value : Bool) : Statement := [.words (if value then "1 = 1" else "1 = 0")]

/-- A test. -/
def test (d : Dialect) : Test → Except Failure Statement
  | .compare c op value => do
    .ok ((← column d c) ++ [.words (" " ++ op.sign ++ " "), .bound value])
  | .like c pattern negated => do
    .ok ((← column d c) ++ [.words (" " ++ d.likeWord negated ++ " "), .bound (.text pattern)])
  | .member c values negated =>
    if values.isEmpty then .ok (constant negated)
    else do
      let items := Statement.joinWith ", " (values.map fun value => [.bound value])
      .ok ((← column d c) ++ .words (if negated then " NOT IN " else " IN ") ::
        Statement.parenthesized items)
  | .null c negated => do
    .ok ((← column d c) ++ [.words (if negated then " IS NOT NULL" else " IS NULL")])
  | .empty c negated => do
    let c ← column d c
    let words := if negated then (" IS NOT NULL AND ", " <> ") else (" IS NULL OR ", " = ")
    .ok (Statement.parenthesized
      (c ++ .words words.1 :: c ++ [.words words.2, .bound (.text "")]))
  | .between c low high negated => do
    .ok ((← column d c) ++
      [.words (if negated then " NOT BETWEEN " else " BETWEEN "), .bound low, .words " AND ",
        .bound high])

/-- The equality of two qualified names. -/
def equation (leftQualifier left rightQualifier right : String) : Statement :=
  qualified leftQualifier left ++ .words " = " :: qualified rightQualifier right

/-- The tables of a query on related rows. -/
def relatedTables (link : Link) (tableAlias : Option String) : Statement :=
  match link.kind with
  | .direct _ _ => tableAs link.relatedTable tableAlias
  | .pivot table _ relatedPivotColumn _ relatedColumn _ =>
    tableAs link.relatedTable tableAlias ++
      [.words " INNER JOIN ", .name table, .words " ON "] ++
      equation link.related relatedColumn table relatedPivotColumn

/-- The conditions that relate the rows to the enclosing query. -/
def linkConditions (link : Link) : List Statement :=
  match link.kind with
  | .direct parentColumn relatedColumn =>
    [equation link.related relatedColumn link.parent parentColumn]
  | .pivot table parentPivotColumn _ parentColumn _ morph =>
    equation table parentPivotColumn link.parent parentColumn ::
      match morph with
      | some m => [qualified table m.column ++ [.words " = ", .bound (.text m.value)]]
      | none => []

/-- Tables and conditions of a query on related rows. -/
def relatedBody (link : Link) (query : Query) (scopes : List Statement) (clauses : Statement) :
    Statement :=
  let conditions := linkConditions link ++
    withScopes Statement.parenthesized false scopes query.clauses.length clauses
  .words "FROM " :: relatedTables link query.tableAlias ++
    .words " WHERE " :: Statement.joinWith " AND " conditions

mutual

/-- A predicate. -/
def predicate (d : Dialect) : Predicate → Except Failure Statement
  | .test t => test d t
  | .nested clauses =>
    match clauses with
    | [] => .ok (constant true)
    | clause :: rest => do
      .ok (Statement.parenthesized (← clauseList d true (clause :: rest)))
  | .related link query negated => do
    let body ← related d link query
    .ok (.words (if negated then "NOT EXISTS (SELECT * " else "EXISTS (SELECT * ") ::
      body ++ [.words ")"])
  | .counted link query op bound => do
    let body ← related d link query
    .ok (.words "(SELECT COUNT(*) " :: body ++
      [.words (") " ++ op.sign ++ " "), .bound (.integer bound)])
  | .const value => .ok (constant value)

/-- Clauses with their connectives; the connective of the first is left out. -/
def clauseList (d : Dialect) (isFirst : Bool) : List Clause → Except Failure Statement
  | [] => .ok []
  | ⟨connective, p⟩ :: rest => do
    let p ← predicate d p
    let rest ← clauseList d false rest
    .ok ((if isFirst then [] else [.words (" " ++ connective.keyword ++ " ")]) ++ p ++ rest)

/-- Tables and conditions of a query on related rows. -/
def related (d : Dialect) (link : Link) : Query → Except Failure Statement
  | ⟨entity, tableAlias, depth, clauses, joins, orders, selects, eager, aggregates, limit, offset,
      removed⟩ => do
    let query : Query := ⟨entity, tableAlias, depth, clauses, joins, orders, selects, eager,
      aggregates, limit, offset, removed⟩
    let scopes ← query.scopeTests.mapM (test d)
    .ok (relatedBody link query scopes (← clauseList d true clauses))

end

/-- The conditions of a query, to be joined by AND. -/
def conditions (d : Dialect) (q : Query) : Except Failure (List Statement) := do
  let scopes ← q.scopeTests.mapM (test d)
  .ok (withScopes Statement.parenthesized true scopes q.clauses.length (← clauseList d true q.clauses))

/-! ## Whole statements -/

/-- The expression of an aggregate. -/
def aggregateExpression (d : Dialect) (a : Aggregate) : Except Failure Statement := do
  let body ← related d a.link a.query
  match a.function with
  | .exists_ =>
    .ok (.words "CASE WHEN EXISTS (SELECT * " :: body ++ [.words ") THEN 1 ELSE 0 END"])
  | .count => .ok (.words "(SELECT COUNT(*) " :: body ++ [.words ")"])
  | function =>
    .ok (.words ("(SELECT " ++ function.keyword ++ "(") ::
      qualified a.query.qualifier (a.column.getD "id") ++ .words ") " :: body ++ [.words ")"])

/-- A projected aggregate. -/
def aggregate (d : Dialect) (a : Aggregate) : Except Failure Statement := do
  .ok ((← aggregateExpression d a) ++ [.words " AS ", .name a.outputName])

/-- The projected columns without the aggregates. -/
def projection (d : Dialect) (q : Query) : Except Failure (List Statement) :=
  if q.selects.isEmpty then .ok [[.name q.qualifier, .words ".*"]]
  else q.selects.mapM (column d)

/-- A join. -/
def join (d : Dialect) (j : Join) : Except Failure Statement := do
  let keys := (← column d j.first) ++ .words " = " :: (← column d j.second)
  let conditions ← j.conditions.mapM (predicate d)
  .ok (.words (" " ++ j.kind.keyword ++ " ") :: tableAs j.table (some j.tableAlias) ++
    .words " ON " :: Statement.joinWith " AND " (keys :: conditions))

/-- A sort key. -/
def order (d : Dialect) (o : Order) : Except Failure Statement := do
  let target ← match o.target with
    | .column c => column d c
    | .output name => .ok [.name name]
  .ok (target ++ [.words (" " ++ o.direction.keyword)])

/-- Words before statements joined with others, nothing when there are none. -/
def withLead (lead separator : String) (parts : List Statement) : Statement :=
  if parts.isEmpty then [] else .words lead :: Statement.joinWith separator parts

/-- A query as a statement that selects its rows. -/
def select (d : Dialect) (q : Query) : Except Failure Statement := do
  let columns ← projection d q
  let aggregates ← q.aggregates.mapM (aggregate d)
  let joins ← q.joins.mapM (join d)
  let conditions ← conditions d q
  let orders ← q.orders.mapM (order d)
  .ok (.words ("SELECT " ++ top d q) :: Statement.joinWith ", " (columns ++ aggregates) ++
    .words " FROM " :: tableAs q.entity.table q.tableAlias ++ joins.flatten ++
    withLead " WHERE " " AND " conditions ++ withLead " ORDER BY " ", " orders ++
    [.words (paging d q)])

/-- The condition of a query alone, empty when every row satisfies it. -/
def condition (d : Dialect) (q : Query) : Except Failure Statement := do
  .ok (Statement.joinWith " AND " (← conditions d q))

/-- The text and the bound values of a statement. -/
def Statement.rendered (d : Dialect) (s : Statement) : Rendered := ⟨s.sql d, s.bindings⟩

end Winnow.Sql
