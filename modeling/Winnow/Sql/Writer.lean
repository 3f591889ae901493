import Winnow.Sql.Dialect
import Winnow.Query.Builder

/-!
# Rendering queries

A query is written as text, part by part.  Values do not stand in the text: a
value that is written is bound behind those bound before it, and a placeholder
takes its place.  Parts are put together once they are written, so the order of
the bound values is that of the writing, wherever the parts end up.
-/

namespace Winnow.Sql

open Winnow.Text

/-- Text and bound values of a statement. -/
structure Rendered where
  sql : String
  bindings : List Value

/-- Writes behind values that were bound before. -/
abbrev Writer := StateT (List Value) (Except Failure)

/-! ## Words without values -/

/-- The failure that a dialect cannot put a timestamp together. -/
def noDateTimeParts (d : Dialect) : Failure :=
  ⟨.notImplemented,
    "Unsupported database driver [" ++ d.name ++ "] for date/time column filters"⟩

/-- The limit where it stands before the projection. -/
def top (d : Dialect) (q : Query) : String :=
  match d, q.limit, q.offset with
  | .sqlServer, some limit, none => "TOP " ++ natText limit ++ " "
  | _, _, _ => ""

/-- The words for limit and offset at the end of a statement. -/
def paging (d : Dialect) (q : Query) : String :=
  let number (before : String) (n : Option Nat) (after : String) :=
    match n with
    | some n => before ++ natText n ++ after
    | none => ""
  match d with
  | .sqlServer =>
    match q.offset with
    | none => ""
    | some offset =>
      (if q.orders.isEmpty then " ORDER BY (SELECT 0)" else "") ++
        " OFFSET " ++ natText offset ++ " ROWS" ++
        number " FETCH NEXT " q.limit " ROWS ONLY"
  | _ => number " LIMIT " q.limit "" ++ number " OFFSET " q.offset ""

/-- Scope conditions followed by the clauses of a query, to be joined by AND.  Several clauses
stand in parentheses unless nothing else is joined with them. -/
def withScopes {α : Type} (parenthesized : α → α) (alone : Bool) (scopes : List α) (count : Nat)
    (clauses : α) : List α :=
  if count = 0 then scopes
  else if (alone && scopes.isEmpty) || count = 1 then scopes ++ [clauses]
  else scopes ++ [parenthesized clauses]

namespace Writer

/-! ## Names and values -/

/-- Binds a value and writes its placeholder. -/
def param (d : Dialect) (value : Value) : Writer String := do
  modify fun bindings => bindings ++ [value]
  return d.placeholder (← get).length

/-- A qualified name. -/
def qualified (d : Dialect) (qualifier name : String) : String :=
  d.quote qualifier ++ "." ++ d.quote name

/-- A table with its alias, when that differs from its name. -/
def tableAs (d : Dialect) (table : String) (tableAlias : Option String) : String :=
  match tableAlias with
  | some tableAlias =>
    if tableAlias = table then d.quote table
    else d.quote table ++ " AS " ++ d.quote tableAlias
  | none => d.quote table

/-- A column. -/
def column (d : Dialect) : Column → Writer String
  | .field qualifier name => return qualified d qualifier name
  | .dateTimeParts qualifier date time =>
    let date := qualified d qualifier date
    let time := "COALESCE(" ++ qualified d qualifier time ++ ", '00:00:00')"
    match d with
    | .postgres => return "CAST(CONCAT(" ++ date ++ ", ' ', " ++ time ++ ") AS TIMESTAMP)"
    | .mysql => return "CAST(CONCAT(" ++ date ++ ", ' ', " ++ time ++ ") AS DATETIME)"
    | .sqlite => return "DATETIME(" ++ date ++ " || ' ' || " ++ time ++ ")"
    | .sqlServer => throw (noDateTimeParts d)

/-! ## Conditions -/

/-- A condition that always holds, or never. -/
def constant (value : Bool) : String := if value then "1 = 1" else "1 = 0"

/-- Text in parentheses. -/
def parenthesized (text : String) : String := "(" ++ text ++ ")"

/-- A test. -/
def test (d : Dialect) : Test → Writer String
  | .compare c op value => do
    let c ← column d c
    return c ++ (" " ++ op.sign ++ " ") ++ (← param d value)
  | .like c pattern negated => do
    let c ← column d c
    return c ++ (" " ++ d.likeWord negated ++ " ") ++ (← param d (.text pattern))
  | .member c values negated =>
    if values.isEmpty then return constant negated
    else do
      let c ← column d c
      let placeholders ← values.mapM (param d)
      return c ++ (if negated then " NOT IN " else " IN ") ++
        parenthesized (join ", " placeholders)
  | .null c negated => do
    let c ← column d c
    return c ++ (if negated then " IS NOT NULL" else " IS NULL")
  | .empty c negated => do
    let c ← column d c
    let empty ← param d (.text "")
    return parenthesized (
      if negated then c ++ " IS NOT NULL AND " ++ c ++ " <> " ++ empty
      else c ++ " IS NULL OR " ++ c ++ " = " ++ empty)
  | .between c low high negated => do
    let c ← column d c
    let low ← param d low
    let high ← param d high
    return c ++ (if negated then " NOT BETWEEN " else " BETWEEN ") ++ low ++ " AND " ++ high

/-- The equality of two qualified names. -/
def equation (d : Dialect) (leftQualifier left rightQualifier right : String) : String :=
  qualified d leftQualifier left ++ " = " ++ qualified d rightQualifier right

/-- The tables of a query on related rows, and the conditions that relate the rows to the enclosing
query. -/
def linked (d : Dialect) (link : Link) (tableAlias : Option String) :
    Writer (String × List String) :=
  let table := tableAs d link.relatedTable tableAlias
  match link.kind with
  | .direct parentColumn relatedColumn =>
    return (table, [equation d link.related relatedColumn link.parent parentColumn])
  | .pivot pivot parentPivotColumn relatedPivotColumn parentColumn relatedColumn morph => do
    let tables := table ++ " INNER JOIN " ++ d.quote pivot ++ " ON " ++
      equation d link.related relatedColumn pivot relatedPivotColumn
    let condition := equation d pivot parentPivotColumn link.parent parentColumn
    match morph with
    | some m =>
      let value ← param d (.text m.value)
      return (tables, [condition, qualified d pivot m.column ++ " = " ++ value])
    | none => return (tables, [condition])

mutual

/-- A predicate. -/
def predicate (d : Dialect) : Predicate → Writer String
  | .test t => test d t
  | .nested clauses =>
    match clauses with
    | [] => return constant true
    | clause :: rest => return parenthesized (← clauseList d true (clause :: rest))
  | .related link query negated => do
    let body ← related d link query
    return (if negated then "NOT EXISTS (SELECT * " else "EXISTS (SELECT * ") ++ body ++ ")"
  | .counted link query op bound => do
    let body ← related d link query
    let bound ← param d (.integer bound)
    return "(SELECT COUNT(*) " ++ body ++ (") " ++ op.sign ++ " ") ++ bound
  | .const value => return constant value

/-- Clauses with their connectives; the connective of the first is left out. -/
def clauseList (d : Dialect) (isFirst : Bool) : List Clause → Writer String
  | [] => return ""
  | ⟨connective, p⟩ :: rest => do
    let p ← predicate d p
    let rest ← clauseList d false rest
    return (if isFirst then "" else " " ++ connective.keyword ++ " ") ++ p ++ rest

/-- Tables and conditions of a query on related rows. -/
def related (d : Dialect) (link : Link) : Query → Writer String
  | ⟨entity, tableAlias, depth, clauses, joins, orders, selects, eager, aggregates, limit, offset,
      removed⟩ => do
    let query : Query := ⟨entity, tableAlias, depth, clauses, joins, orders, selects, eager,
      aggregates, limit, offset, removed⟩
    let (tables, conditions) ← linked d link tableAlias
    let scopes ← query.scopeTests.mapM (test d)
    let clauses ← clauseList d true clauses
    return "FROM " ++ tables ++ " WHERE " ++ join " AND "
      (conditions ++ withScopes parenthesized false scopes query.clauses.length clauses)

end

/-- The conditions of a query, to be joined by AND. -/
def conditions (d : Dialect) (q : Query) : Writer (List String) := do
  let scopes ← q.scopeTests.mapM (test d)
  let clauses ← clauseList d true q.clauses
  return withScopes parenthesized true scopes q.clauses.length clauses

/-! ## Whole statements -/

/-- A projected aggregate. -/
def aggregate (d : Dialect) (a : Aggregate) : Writer String := do
  let body ← related d a.link a.query
  let expression := match a.function with
    | .exists_ => "CASE WHEN EXISTS (SELECT * " ++ body ++ ") THEN 1 ELSE 0 END"
    | .count => "(SELECT COUNT(*) " ++ body ++ ")"
    | function =>
      ("(SELECT " ++ function.keyword ++ "(") ++
        qualified d a.query.qualifier (a.column.getD "id") ++ ") " ++ body ++ ")"
  return expression ++ " AS " ++ d.quote a.outputName

/-- The projected columns without the aggregates. -/
def projection (d : Dialect) (q : Query) : Writer (List String) :=
  if q.selects.isEmpty then return [d.quote q.qualifier ++ ".*"]
  else q.selects.mapM (column d)

/-- A join. -/
def joined (d : Dialect) (j : Join) : Writer String := do
  let first ← column d j.first
  let second ← column d j.second
  let conditions ← j.conditions.mapM (predicate d)
  return (" " ++ j.kind.keyword ++ " ") ++ tableAs d j.table (some j.tableAlias) ++ " ON " ++
    join " AND " ((first ++ " = " ++ second) :: conditions)

/-- A sort key. -/
def order (d : Dialect) (o : Order) : Writer String := do
  let target ← match o.target with
    | .column c => column d c
    | .output name => pure (d.quote name)
  return target ++ (" " ++ o.direction.keyword)

/-- Words before texts joined with others, nothing when there are none. -/
def withLead (lead separator : String) (parts : List String) : String :=
  if parts.isEmpty then "" else lead ++ join separator parts

/-- A query as a statement that selects its rows. -/
def select (d : Dialect) (q : Query) : Writer String := do
  let columns ← projection d q
  let aggregates ← q.aggregates.mapM (aggregate d)
  let joins ← q.joins.mapM (joined d)
  let conditions ← conditions d q
  let orders ← q.orders.mapM (order d)
  return ("SELECT " ++ top d q) ++ join ", " (columns ++ aggregates) ++ " FROM " ++
    tableAs d q.entity.table q.tableAlias ++ String.join joins ++
    withLead " WHERE " " AND " conditions ++ withLead " ORDER BY " ", " orders ++ paging d q

/-- What is written behind no values, with the values bound meanwhile. -/
def rendered (w : Writer String) : Except Failure Rendered :=
  (w.run []).map fun (sql, bindings) => ⟨sql, bindings⟩

end Writer

/-! ## Rendering -/

/-- Renders a query as a statement that selects its rows. -/
def renderSelect (d : Dialect) (q : Query) : Except Failure Rendered :=
  (Writer.select d q).rendered

/-- Renders the condition of a query alone, which is empty when every row satisfies it. -/
def renderCondition (d : Dialect) (q : Query) : Except Failure Rendered :=
  Writer.rendered do return join " AND " (← Writer.conditions d q)

end Winnow.Sql
