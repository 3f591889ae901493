import Winnow.Proofs.Sql.Tokens

/-!
# Reading statements

`readSelect` and `readFormula` read the tokens of a statement as SQL does:
parentheses first, then AND, then OR, where the AND of BETWEEN belongs to its
test.  A sub-query has the tables of its FROM, joined in order, and the formula
of its WHERE.  Placeholders stand for the values that are bound to them, so what
is read tells at which place each value is compared.

`selectOf` and `formulaOf` say what is read for a query.  The recursion of the
readers is on a bound for the number of steps, which the number of tokens gives.
-/

namespace Winnow.Sql

/-! ## What is read -/

/-- A table under a name. -/
structure Table where
  table : String
  name : String
  deriving DecidableEq, Repr

mutual

/-- A condition in a statement. -/
inductive Formula where
  | constant (value : Bool)
  | test (test : Test)
  | equal (left right : Column)
  | both (left right : Formula)
  | either (left right : Formula)
  | exists_ (body : Subquery) (negated : Bool)
  | counted (body : Subquery) (op : Comparison) (bound : Int)

/-- A table joined with those before it. -/
structure JoinedTable where
  kind : JoinKind
  table : Table
  on : Formula

/-- Tables and condition of a sub-query. -/
structure Subquery where
  table : Table
  joins : List JoinedTable
  condition : Formula

end

/-- What a statement projects. -/
inductive Output where
  | all (qualifier : String)
  | column (column : Column)
  /-- An aggregate of the rows of a sub-query, of a column where the function has one. -/
  | aggregate (function : AggregateFunction) (column : Option Column) (body : Subquery)
    (name : String)

/-- A statement that selects rows. -/
structure Select where
  /-- The digits of a limit in front. -/
  top : Option String
  outputs : List Output
  table : Table
  joins : List JoinedTable
  condition : Formula
  orders : List Order
  /-- The tokens of limit and offset at the end. -/
  paging : List Token

/-! ## Words -/

/-- What follows some tokens, if the tokens begin with them. -/
def after : List Token → List Token → Option (List Token)
  | [], ts => some ts
  | e :: expected, t :: ts => if t = e then after expected ts else none
  | _ :: _, [] => none

/-- What follows some words, if the tokens begin with theirs. -/
def expect (d : Dialect) (words : String) (ts : List Token) : Option (List Token) :=
  after (tokenize d words) ts

/-! ## Columns and values -/

/-- Reads a qualified name. -/
def readQualified : List Token → Option ((String × String) × List Token)
  | .name qualifier :: .symbol '.' :: .name name :: rest => some ((qualifier, name), rest)
  | _ => none

/-- Reads a timestamp of two columns of one table, between words. -/
def readParts (d : Dialect) (before between behind : String) (ts : List Token) :
    Option (Column × List Token) := do
  let ts ← expect d before ts
  let ((qualifier, date), ts) ← readQualified ts
  let ts ← expect d between ts
  let ts ← expect d "COALESCE(" ts
  let ((timeQualifier, time), ts) ← readQualified ts
  let ts ← expect d ", '00:00:00')" ts
  let ts ← expect d behind ts
  if timeQualifier = qualifier then some (.dateTimeParts qualifier date time, ts) else none

/-- Reads a column. -/
def readColumn (d : Dialect) (ts : List Token) : Option (Column × List Token) :=
  match readQualified ts with
  | some ((qualifier, name), rest) => some (.field qualifier name, rest)
  | none =>
    match d with
    | .postgres => readParts d "CAST(CONCAT(" ", ' ', " ") AS TIMESTAMP)" ts
    | .mysql => readParts d "CAST(CONCAT(" ", ' ', " ") AS DATETIME)" ts
    | .sqlite => readParts d "DATETIME(" " || ' ' || " ")" ts
    | .sqlServer => none

/-- Reads the sign of a comparison. -/
def readSign : List Token → Option (Comparison × List Token)
  | .symbol '=' :: rest => some (.eq, rest)
  | .symbol '<' :: .symbol '>' :: rest => some (.ne, rest)
  | .symbol '<' :: .symbol '=' :: rest => some (.le, rest)
  | .symbol '>' :: .symbol '=' :: rest => some (.ge, rest)
  | .symbol '<' :: rest => some (.lt, rest)
  | .symbol '>' :: rest => some (.gt, rest)
  | _ => none

/-- Reads values up to a closing parenthesis. -/
def readValues : List Token → Option (List Value × List Token)
  | .value v :: .symbol ')' :: rest => some ([v], rest)
  | .value v :: .symbol ',' :: rest => do
    let (vs, rest) ← readValues rest
    some (v :: vs, rest)
  | _ => none

/-! ## Tests -/

/-- Reads a test for null behind its column. -/
def readNull (d : Dialect) (c : Column) (negated : Bool) (ts : List Token) :
    Option (Formula × List Token) := do
  let ts ← expect d (if negated then " IS NOT NULL" else " IS NULL") ts
  some (.test (.null c negated), ts)

/-- Reads a pattern behind its column. -/
def readLike (d : Dialect) (c : Column) (negated : Bool) (ts : List Token) :
    Option (Formula × List Token) := do
  let ts ← expect d (" " ++ d.likeWord negated ++ " ") ts
  match ts with
  | .value (.text pattern) :: ts => some (.test (.like c pattern negated), ts)
  | _ => none

/-- Reads a list of members behind its column. -/
def readMember (d : Dialect) (c : Column) (negated : Bool) (ts : List Token) :
    Option (Formula × List Token) := do
  let ts ← expect d (if negated then " NOT IN (" else " IN (") ts
  let (values, ts) ← readValues ts
  some (.test (.member c values negated), ts)

/-- Reads a range behind its column; its AND belongs to it. -/
def readBetween (d : Dialect) (c : Column) (negated : Bool) (ts : List Token) :
    Option (Formula × List Token) := do
  let ts ← expect d (if negated then " NOT BETWEEN " else " BETWEEN ") ts
  match ts with
  | .value low :: ts =>
    match ← expect d " AND " ts with
    | .value high :: ts => some (.test (.between c low high negated), ts)
    | _ => none
  | _ => none

/-- Reads a comparison behind its column: with a value, or of two columns for equality. -/
def readCompare (d : Dialect) (c : Column) (ts : List Token) : Option (Formula × List Token) :=
  match readSign ts with
  | some (op, .value value :: ts) => some (.test (.compare c op value), ts)
  | some (.eq, ts) => (readColumn d ts).map fun (other, ts) => (.equal c other, ts)
  | _ => none

/-- Reads a condition behind its column. -/
def readBehind (d : Dialect) (c : Column) (ts : List Token) : Option (Formula × List Token) :=
  readCompare d c ts <|> readNull d c false ts <|> readNull d c true ts <|>
    readLike d c false ts <|> readLike d c true ts <|> readMember d c false ts <|>
    readMember d c true ts <|> readBetween d c false ts <|> readBetween d c true ts

/-- Reads a condition that begins with a column. -/
def readTest (d : Dialect) (ts : List Token) : Option (Formula × List Token) := do
  let (c, ts) ← readColumn d ts
  readBehind d c ts

/-! ## Formulas -/

/-- Reads a table with its alias. -/
def readTable : List Token → Option (Table × List Token)
  | .name table :: .word "AS" :: .name tableAlias :: rest => some (⟨table, tableAlias⟩, rest)
  | .name table :: rest => some (⟨table, table⟩, rest)
  | _ => none

/-- The kind of a join, if one begins. -/
def joinKind? (d : Dialect) (ts : List Token) : Option (JoinKind × List Token) :=
  match expect d "INNER JOIN " ts with
  | some rest => some (.inner, rest)
  | none => (expect d "LEFT JOIN " ts).map (JoinKind.left, ·)

mutual

/-- Reads alternatives between ORs. -/
def readFormula (d : Dialect) : Nat → List Token → Option (Formula × List Token)
  | 0, _ => none
  | steps + 1, ts => do
    let (left, ts) ← readConjunction d steps ts
    match expect d "OR " ts with
    | some ts => do
      let (right, ts) ← readFormula d steps ts
      some (.either left right, ts)
    | none => some (left, ts)

/-- Reads conditions between ANDs. -/
def readConjunction (d : Dialect) : Nat → List Token → Option (Formula × List Token)
  | 0, _ => none
  | steps + 1, ts => do
    let (left, ts) ← readUnit d steps ts
    match expect d "AND " ts with
    | some ts => do
      let (right, ts) ← readConjunction d steps ts
      some (.both left right, ts)
    | none => some (left, ts)

/-- Reads one condition: in parentheses, of a sub-query, a constant, or a test. -/
def readUnit (d : Dialect) : Nat → List Token → Option (Formula × List Token)
  | 0, _ => none
  | steps + 1, ts =>
    if let some ts := expect d "EXISTS (SELECT * " ts then do
      let (body, ts) ← readSubquery d steps ts
      let ts ← expect d ")" ts
      some (.exists_ body false, ts)
    else if let some ts := expect d "NOT EXISTS (SELECT * " ts then do
      let (body, ts) ← readSubquery d steps ts
      let ts ← expect d ")" ts
      some (.exists_ body true, ts)
    else if let some ts := expect d "(SELECT COUNT(*) " ts then do
      let (body, ts) ← readSubquery d steps ts
      let ts ← expect d ")" ts
      match ← readSign ts with
      | (op, .value (.integer bound) :: ts) => some (.counted body op bound, ts)
      | _ => none
    else if let some ts := expect d "(" ts then do
      let (inner, ts) ← readFormula d steps ts
      let ts ← expect d ")" ts
      some (inner, ts)
    else if let some ts := expect d "1 = 1" ts then some (.constant true, ts)
    else if let some ts := expect d "1 = 0" ts then some (.constant false, ts)
    else readTest d ts

/-- Reads tables and condition of a sub-query. -/
def readSubquery (d : Dialect) : Nat → List Token → Option (Subquery × List Token)
  | 0, _ => none
  | steps + 1, ts => do
    let ts ← expect d "FROM " ts
    let (table, ts) ← readTable ts
    let (joins, ts) ← readJoins d steps ts
    let ts ← expect d "WHERE " ts
    let (condition, ts) ← readFormula d steps ts
    some (⟨table, joins, condition⟩, ts)

/-- Reads joined tables. -/
def readJoins (d : Dialect) : Nat → List Token → Option (List JoinedTable × List Token)
  | 0, _ => none
  | steps + 1, ts =>
    match joinKind? d ts with
    | none => some ([], ts)
    | some (kind, ts) => do
      let (table, ts) ← readTable ts
      let ts ← expect d "ON " ts
      let (on, ts) ← readFormula d steps ts
      let (joins, ts) ← readJoins d steps ts
      some (⟨kind, table, on⟩ :: joins, ts)

end

/-! ## Statements -/

/-- The function of an aggregate over a column, if one begins. -/
def aggregateFunction? : List Token → Option (AggregateFunction × List Token)
  | .word "SUM" :: ts => some (.sum, ts)
  | .word "MIN" :: ts => some (.min, ts)
  | .word "MAX" :: ts => some (.max, ts)
  | .word "AVG" :: ts => some (.avg, ts)
  | _ => none

/-- Reads the name of an output behind it. -/
def readOutputName (d : Dialect) (ts : List Token) : Option (String × List Token) := do
  match ← expect d "AS " ts with
  | .name name :: ts => some (name, ts)
  | _ => none

/-- Reads an output. -/
def readOutput (d : Dialect) (steps : Nat) (ts : List Token) : Option (Output × List Token) :=
  if let some ts := expect d "CASE WHEN EXISTS (SELECT * " ts then do
    let (body, ts) ← readSubquery d steps ts
    let ts ← expect d ") THEN 1 ELSE 0 END" ts
    let (name, ts) ← readOutputName d ts
    some (.aggregate .exists_ none body name, ts)
  else if let some ts := expect d "(SELECT COUNT(*) " ts then do
    let (body, ts) ← readSubquery d steps ts
    let ts ← expect d ")" ts
    let (name, ts) ← readOutputName d ts
    some (.aggregate .count none body name, ts)
  else if let some ts := expect d "(SELECT " ts then do
    let (function, ts) ← aggregateFunction? ts
    let ts ← expect d "(" ts
    let (column, ts) ← readColumn d ts
    let ts ← expect d ") " ts
    let (body, ts) ← readSubquery d steps ts
    let ts ← expect d ")" ts
    let (name, ts) ← readOutputName d ts
    some (.aggregate function (some column) body name, ts)
  else
    match ts with
    | .name qualifier :: .symbol '.' :: .symbol '*' :: ts => some (.all qualifier, ts)
    | ts => (readColumn d ts).map fun (c, ts) => (.column c, ts)

/-- Reads what is listed between commas. -/
def readListed {α : Type} (d : Dialect) (item : Nat → List Token → Option (α × List Token)) :
    Nat → List Token → Option (List α × List Token)
  | 0, _ => none
  | steps + 1, ts => do
    let (a, ts) ← item steps ts
    match expect d ", " ts with
    | some ts => do
      let (rest, ts) ← readListed d item steps ts
      some (a :: rest, ts)
    | none => some ([a], ts)

/-- Reads the direction of a sort key. -/
def readDirection : List Token → Option (Direction × List Token)
  | .word "ASC" :: ts => some (.ascending, ts)
  | .word "DESC" :: ts => some (.descending, ts)
  | _ => none

/-- Reads a sort key. -/
def readOrder (d : Dialect) (ts : List Token) : Option (Order × List Token) :=
  match readColumn d ts with
  | some (c, ts) => (readDirection ts).map fun (direction, ts) => (⟨.column c, direction⟩, ts)
  | none =>
    match ts with
    | .name name :: ts =>
      (readDirection ts).map fun (direction, ts) => (⟨.output name, direction⟩, ts)
    | _ => none

/-- Reads the limit in front of the outputs. -/
def readTop : List Token → Option String × List Token
  | .word "TOP" :: .word limit :: ts => (some limit, ts)
  | ts => (none, ts)

/-- Reads the condition of a statement; without WHERE it always holds. -/
def readWhere (d : Dialect) (steps : Nat) (ts : List Token) : Option (Formula × List Token) :=
  match expect d "WHERE " ts with
  | some ts => readFormula d steps ts
  | none => some (.constant true, ts)

/-- Reads the sort keys of a statement; those of a sub-query serve its paging. -/
def readOrderBy (d : Dialect) (steps : Nat) (ts : List Token) : Option (List Order × List Token) :=
  match expect d "ORDER BY " ts with
  | some (.symbol '(' :: _) => some ([], ts)
  | some ts => readListed d (fun _ => readOrder d) steps ts
  | none => some ([], ts)

/-- Reads a statement that selects rows. -/
def readStatement (d : Dialect) (steps : Nat) (ts : List Token) : Option Select := do
  let ts ← expect d "SELECT " ts
  let (top, ts) := readTop ts
  let (outputs, ts) ← readListed d (readOutput d) steps ts
  let ts ← expect d "FROM " ts
  let (table, ts) ← readTable ts
  let (joins, ts) ← readJoins d steps ts
  let (condition, ts) ← readWhere d steps ts
  let (orders, ts) ← readOrderBy d steps ts
  some ⟨top, outputs, table, joins, condition, orders, ts⟩

/-- More steps than reading some tokens takes. -/
def enoughSteps (ts : List Token) : Nat := 3 * ts.length + 3

/-- Reads a rendered statement that selects rows. -/
def readSelect (d : Dialect) (r : Rendered) : Option Select := do
  let ts ← fill r.bindings 0 (tokenize d r.sql)
  readStatement d (enoughSteps ts) ts

/-- Reads a rendered condition; the empty one always holds. -/
def readCondition (d : Dialect) (r : Rendered) : Option Formula := do
  let ts ← fill r.bindings 0 (tokenize d r.sql)
  if ts.isEmpty then some (.constant true)
  else
    match ← readFormula d (enoughSteps ts) ts with
    | (formula, []) => some formula
    | _ => none

/-! ## What is read for a query -/

/-- All of some formulas; none always hold. -/
def allOf : List Formula → Formula
  | [] => .constant true
  | [f] => f
  | f :: g :: rest => .both f (allOf (g :: rest))

/-- An alternative and, if there are more, the others. -/
def alternativesOf : Formula × Option Formula → Formula
  | (f, none) => f
  | (f, some others) => .either f others

/-- The formula of a test: no value is member of an empty list, and a column is empty when it is
null or the empty text. -/
def testFormula : Test → Formula
  | .member c values negated =>
    if values.isEmpty then .constant negated else .test (.member c values negated)
  | .empty c false => .either (.test (.null c false)) (.test (.compare c .eq (.text "")))
  | .empty c true => .both (.test (.null c true)) (.test (.compare c .ne (.text "")))
  | t => .test t

/-- A table under its alias, if it has one. -/
def tableOf (table : String) (tableAlias : Option String) : Table :=
  ⟨table, tableAlias.getD table⟩

/-- The tables joined to the table of related rows: the pivot, if there is one. -/
def linkJoins (link : Link) : List JoinedTable :=
  match link.kind with
  | .direct _ _ => []
  | .pivot table _ relatedPivotColumn _ relatedColumn _ =>
    [⟨.inner, ⟨table, table⟩,
      .equal (.field link.related relatedColumn) (.field table relatedPivotColumn)⟩]

/-- The conditions that relate rows to the enclosing query. -/
def linkFormulas (link : Link) : List Formula :=
  match link.kind with
  | .direct parentColumn relatedColumn =>
    [.equal (.field link.related relatedColumn) (.field link.parent parentColumn)]
  | .pivot table parentPivotColumn _ parentColumn _ morph =>
    .equal (.field table parentPivotColumn) (.field link.parent parentColumn) ::
      match morph with
      | some m => [.test (.compare (.field table m.column) .eq (.text m.value))]
      | none => []

mutual

/-- The formula of a predicate. -/
def predicateFormula : Predicate → Formula
  | .test t => testFormula t
  | .nested clauses => clausesFormula clauses
  | .related link query negated => .exists_ (subqueryOf link query) negated
  | .counted link query op bound => .counted (subqueryOf link query) op bound
  | .const value => .constant value

/-- The formula of clauses. -/
def clausesFormula : List Clause → Formula
  | [] => .constant true
  | ⟨_, p⟩ :: rest => alternativesOf (clauseParts (predicateFormula p) rest)

/-- The alternative that begins with a formula, and the alternatives after it. -/
def clauseParts (first : Formula) : List Clause → Formula × Option Formula
  | [] => (first, none)
  | ⟨.and, p⟩ :: rest =>
    let parts := clauseParts (predicateFormula p) rest
    (.both first parts.1, parts.2)
  | ⟨.or, p⟩ :: rest => (first, some (alternativesOf (clauseParts (predicateFormula p) rest)))

/-- The sub-query of a question about related rows. -/
def subqueryOf (link : Link) : Query → Subquery
  | ⟨entity, tableAlias, depth, clauses, joins, orders, selects, eager, aggregates, limit, offset,
      removed⟩ =>
    let query : Query := ⟨entity, tableAlias, depth, clauses, joins, orders, selects, eager,
      aggregates, limit, offset, removed⟩
    ⟨tableOf link.relatedTable tableAlias, linkJoins link,
      allOf (linkFormulas link ++ query.scopeTests.map testFormula ++
        if clauses.isEmpty then [] else [clausesFormula clauses])⟩

end

theorem subqueryOf_eq (link : Link) (q : Query) :
    subqueryOf link q = ⟨tableOf link.relatedTable q.tableAlias, linkJoins link,
      allOf (linkFormulas link ++ q.scopeTests.map testFormula ++
        if q.clauses.isEmpty then [] else [clausesFormula q.clauses])⟩ := by
  cases q
  rw [subqueryOf]

/-- The formula of the condition of a query: its scopes and its clauses. -/
def formulaOf (q : Query) : Formula :=
  allOf (q.scopeTests.map testFormula ++
    if q.clauses.isEmpty then [] else [clausesFormula q.clauses])

/-- The joined table of a join. -/
def joinOf (j : Join) : JoinedTable :=
  ⟨j.kind, ⟨j.table, j.tableAlias⟩,
    allOf (.equal j.first j.second :: j.conditions.map predicateFormula)⟩

/-- The output of an aggregate. -/
def outputOf (a : Aggregate) : Output :=
  let column := match a.function with
    | .exists_ | .count => none
    | _ => some (a.query.column (a.column.getD "id"))
  .aggregate a.function column (subqueryOf a.link a.query) a.outputName

/-- The outputs of a query. -/
def outputsOf (q : Query) : List Output :=
  (if q.selects.isEmpty then [.all q.qualifier] else q.selects.map .column) ++
    q.aggregates.map outputOf

/-- The digits of the limit in front of the outputs, where a dialect writes it there. -/
def topOf (d : Dialect) (q : Query) : Option String :=
  match d, q.limit, q.offset with
  | .sqlServer, some limit, none => some (Text.natText limit)
  | _, _, _ => none

/-- What is read for a query. -/
def selectOf (d : Dialect) (q : Query) : Select :=
  ⟨topOf d q, outputsOf q, tableOf q.entity.table q.tableAlias, q.joins.map joinOf, formulaOf q,
    q.orders, tokenize d (paging d q)⟩

end Winnow.Sql
