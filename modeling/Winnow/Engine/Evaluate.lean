import Winnow.Engine.Dataset
import Winnow.Engine.Like
import Winnow.Query.Builder

/-!
# Evaluating predicates

A frame binds qualifiers to rows; the innermost binding of a qualifier counts,
and a qualifier bound to no row reads as null.  A predicate holds or does not
hold for a frame: a comparison that involves null does not hold, nor does its
negation.  A question about related rows extends the frame by each row that
the link relates to it.
-/

namespace Winnow.Engine

/-! ## Frames -/

/-- Rows by qualifier, the innermost binding first. -/
abbrev Frame := List (String × Option Row)

/-- The row bound to a qualifier. -/
def Frame.row? (frame : Frame) (qualifier : String) : Option Row :=
  ((frame.find? fun binding => binding.1 == qualifier).map Prod.snd).join

/-- The time of day in a value; anything that is no time counts as midnight. -/
def clockOf : Value → Clock
  | .text s => (Calendar.readClock? s).getD Clock.midnight
  | _ => Clock.midnight

/-- The timestamp of a date and a time value, null without a date. -/
def timestamp (date time : Value) : Value :=
  match date with
  | .date d => .instant (Instant.ofDateClock d (clockOf time))
  | .instant t => .instant (Instant.ofDateClock t.date (clockOf time))
  | _ => .null

/-- The value a column has in a frame. -/
def read (frame : Frame) : Column → Value
  | .field qualifier name =>
    match frame.row? qualifier with
    | some row => row.value name
    | none => .null
  | .dateTimeParts qualifier date time =>
    match frame.row? qualifier with
    | some row => timestamp (row.value date) (row.value time)
    | none => .null

/-! ## Tests -/

/-- Whether a test holds for the value of its column. -/
def testHolds (frame : Frame) : Test → Bool
  | .compare column op value =>
    match (read frame column).compare? value with
    | some o => op.holds o
    | none => false
  | .like column pattern negated =>
    match (read frame column).text? with
    | some text => like text pattern != negated
    | none => false
  | .member column values negated =>
    if values.isEmpty then negated
    else
      let current := read frame column
      !current.isNull && (values.any current.equals != negated)
  | .null column negated => (read frame column).isNull != negated
  | .empty column negated =>
    (match read frame column with
      | .null => true
      | .text s => s.isEmpty
      | _ => false) != negated
  | .between column low high negated =>
    let current := read frame column
    match current.compare? low, current.compare? high with
    | some a, some b => (a != .lt && b != .gt) != negated
    | _, _ => false

/-! ## Related rows -/

/-- Whether a row holds a value equal to a key in a column. -/
def hasKey (column : String) (key : Value) (row : Row) : Bool :=
  match row.get? column with
  | some v => v.equals key
  | none => false

/-- The rows a link relates to a parent row, one per row of the pivot if there is one. -/
def linkedRows (db : Dataset) (link : Link) (parent : Row) : List Row :=
  match link.kind with
  | .direct parentColumn relatedColumn =>
    (db.rows link.relatedTable).filter (hasKey relatedColumn (parent.value parentColumn))
  | .pivot table parentPivotColumn relatedPivotColumn parentColumn relatedColumn morph =>
    let pivots := (db.rows table).filter fun pivot =>
      hasKey parentPivotColumn (parent.value parentColumn) pivot &&
        (match morph with
          | some m => hasKey m.column (.text m.value) pivot
          | none => true)
    pivots.flatMap fun pivot =>
      (db.rows link.relatedTable).filter (hasKey relatedColumn (pivot.value relatedPivotColumn))

/-- The rows a link relates to a frame; none when its parent has no row. -/
def candidates (db : Dataset) (frame : Frame) (link : Link) : List Row :=
  match frame.row? link.parent with
  | some parent => linkedRows db link parent
  | none => []

/-! ## Predicates -/

/-- Whether the tests of all global scopes of a query hold. -/
def scopesHold (frame : Frame) (q : Query) : Bool := q.scopeTests.all (testHolds frame)

mutual

/-- Whether a predicate holds. -/
def predicateHolds (db : Dataset) (frame : Frame) : Predicate → Bool
  | .test t => testHolds frame t
  | .nested clauses => clausesHold db frame clauses
  | .related link query negated =>
    ((candidates db frame link).any fun row => relatedHolds db frame row query) != negated
  | .counted link query op bound =>
    let n := (candidates db frame link).countP fun row => relatedHolds db frame row query
    op.holds (compare (n : Int) bound)
  | .const value => value

/-- Whether clauses hold, AND binding tighter than OR; no clauses hold. -/
def clausesHold (db : Dataset) (frame : Frame) : List Clause → Bool
  | [] => true
  | ⟨_, p⟩ :: rest => clausesHoldAfter db frame (predicateHolds db frame p) rest

/-- Whether clauses hold after an AND-group that holds so far or not. -/
def clausesHoldAfter (db : Dataset) (frame : Frame) (group : Bool) : List Clause → Bool
  | [] => group
  | ⟨.and, p⟩ :: rest => clausesHoldAfter db frame (group && predicateHolds db frame p) rest
  | ⟨.or, p⟩ :: rest => group || clausesHoldAfter db frame (predicateHolds db frame p) rest

/-- Whether a related row satisfies the scopes and clauses of its query. -/
def relatedHolds (db : Dataset) (frame : Frame) (row : Row) : Query → Bool
  | ⟨entity, tableAlias, depth, clauses, joins, orders, selects, eager, aggregates, limit, offset,
      removed⟩ =>
    let query : Query := ⟨entity, tableAlias, depth, clauses, joins, orders, selects, eager,
      aggregates, limit, offset, removed⟩
    let inner := (query.qualifier, some row) :: frame
    scopesHold inner query && clausesHold db inner clauses

end

/-- Whether a frame satisfies the scopes and clauses of a query. -/
def queryHolds (db : Dataset) (frame : Frame) (q : Query) : Bool :=
  scopesHold frame q && clausesHold db frame q.clauses

/-- The rows a link relates to a frame that satisfy a query. -/
def matchingRows (db : Dataset) (frame : Frame) (link : Link) (q : Query) : List Row :=
  (candidates db frame link).filter fun row => relatedHolds db frame row q

end Winnow.Engine
