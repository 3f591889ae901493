import Winnow.Engine.Evaluate

/-!
# Running queries

The frames of a query are the rows of its table, extended by every joined row
in turn; a left join keeps a frame without joined row.  The frames that
satisfy the query are projected, sorted by its orders, and cut to its page.
Sorting places one frame after another behind those that it does not come
before, so frames with equal sort keys keep the order of their tables.
-/

namespace Winnow.Engine

/-! ## Frames of a query -/

/-- Whether a joined row belongs to a frame. -/
def joinHolds (db : Dataset) (frame : Frame) (join : Join) : Bool :=
  (read frame join.first).equals (read frame join.second) &&
    join.conditions.all (predicateHolds db frame)

/-- A frame extended by a join. -/
def joinFrame (db : Dataset) (join : Join) (frame : Frame) : List Frame :=
  let extended := ((db.rows join.table).map fun row => (join.tableAlias, some row) :: frame).filter
    fun frame => joinHolds db frame join
  if extended.isEmpty && join.kind == .left then [(join.tableAlias, none) :: frame] else extended

/-- Rows of the table extended by all joins. -/
def joinedFrames (db : Dataset) (q : Query) : List Frame :=
  q.joins.foldl (fun frames join => frames.flatMap (joinFrame db join))
    ((db.rows q.entity.table).map fun row => [(q.qualifier, some row)])

/-- The frames that satisfy the query. -/
def matchingFrames (db : Dataset) (q : Query) : List Frame :=
  (joinedFrames db q).filter fun frame => queryHolds db frame q

/-! ## Aggregates -/

/-- The first least value in the order for sorting. -/
def least : List Value → Value
  | [] => .null
  | v :: rest => rest.foldl (fun a b => if a.sortOrder b == .gt then b else a) v

/-- The last greatest value in the order for sorting. -/
def greatest : List Value → Value
  | [] => .null
  | v :: rest => rest.foldl (fun a b => if a.sortOrder b == .gt then a else b) v

/-- The number a value adds to a sum. -/
def summand : Value → Decimal
  | .integer n => Decimal.ofInt n
  | .decimal x => x
  | _ => Decimal.zero

/-- Whether the value is an integer. -/
def isInteger : Value → Bool
  | .integer _ => true
  | _ => false

/-- The aggregate of the values of a column in `count` rows; null is left out. -/
def fold (function : AggregateFunction) (values : List Value) (count : Nat) : Value :=
  let values := values.filter fun v => !v.isNull
  let total := Decimal.sum (values.map summand)
  match function with
  | .count => .integer count
  | .exists_ => .integer (if 0 < count then 1 else 0)
  | .min => least values
  | .max => greatest values
  | .sum =>
    if values.isEmpty then .null
    else if values.all isInteger then .integer total.toInt64
    else .decimal total
  | .avg =>
    if values.isEmpty then .null else .decimal (total.div (Decimal.ofInt values.length))

/-- The aggregate over the related rows of a frame. -/
def aggregate (db : Dataset) (frame : Frame) (a : Aggregate) : Value :=
  let rows := matchingRows db frame a.link a.query
  let values := match a.column with
    | some column => rows.map fun row => row.value column
    | none => []
  fold a.function values rows.length

/-! ## Placing -/

/-- The values with one more, in front of the longest tail of values that it all comes before. -/
def place {α : Type} (before : α → α → Bool) (x : α) : List α → List α
  | [] => [x]
  | y :: rest => if (y :: rest).all (before x) then x :: y :: rest else y :: place before x rest

/-- The values placed one after another. -/
def arrange {α : Type} (before : α → α → Bool) (values : List α) : List α :=
  values.foldl (fun placed x => place before x placed) []

/-! ## Output -/

/-- The projected columns of a frame. -/
def projectColumns (q : Query) (frame : Frame) : Row :=
  if q.selects.isEmpty then (frame.row? q.qualifier).getD []
  else Keyed.ofPairs (q.selects.map fun c => (c.outputName, read frame c))

/-- The projected columns and aggregates of a frame. -/
def project (db : Dataset) (q : Query) (frame : Frame) : Row :=
  q.aggregates.foldl (fun row a => Keyed.put row a.outputName (aggregate db frame a))
    (projectColumns q frame)

/-- The sort keys of a frame with its projection. -/
def sortKeys (q : Query) (frame : Frame) (row : Row) : List Value :=
  q.orders.map fun o => match o.target with
    | .column c => read frame c
    | .output name => row.value name

/-- Order of two lists of sort keys; the first difference decides. -/
def keyOrder : List Order → List Value → List Value → Ordering
  | o :: orders, a :: as, b :: bs =>
    match o.direction.apply (a.sortOrder b) with
    | .eq => keyOrder orders as bs
    | different => different
  | _, _, _ => .eq

/-- The projections of the matching frames in order, before paging. -/
def listing (db : Dataset) (q : Query) : List Row :=
  let keyed := (matchingFrames db q).map fun frame =>
    let row := project db q frame
    (sortKeys q frame row, row)
  (arrange (fun a b => keyOrder q.orders a.1 b.1 == .lt) keyed).map Prod.snd

/-- The rows of the page of the query. -/
def execute (db : Dataset) (q : Query) : List Row :=
  let rows := (listing db q).drop (q.offset.getD 0)
  match q.limit with
  | some limit => rows.take limit
  | none => rows

/-- The number of matching frames, whatever the page. -/
def count (db : Dataset) (q : Query) : Nat := (matchingFrames db q).length

/-- The primary keys of the rows of the page. -/
def ids (db : Dataset) (q : Query) : List Int :=
  (execute db q).filterMap fun row =>
    match row.get? q.entity.primaryKey with
    | some (.integer n) => some n
    | _ => none

end Winnow.Engine
