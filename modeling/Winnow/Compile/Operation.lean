import Winnow.Calendar.Window
import Winnow.Filter.Basic

/-!
# Predicates of operators

An operation is an operator applied to a column with the value of a rule.
`Operation.predicate` gives its predicate, nothing when the value places no
constraint, or the error that the value cannot be used.  On a column of
instants a plain date means the whole local day, and a clock reading without
offset is a local time.
-/

namespace Winnow

/-- An operator applied to a column with a value. -/
structure Operation where
  column : Column
  /-- The type values are read for. -/
  type : ColumnType
  operator : Operator
  value : Json
  /-- The field named in errors. -/
  field : String
  context : CompileContext

/-- The comparison an operator is, if it is one. -/
def Operator.comparison? : Operator → Option Comparison
  | .equal => some .eq
  | .notEqual => some .ne
  | .less => some .lt
  | .lessOrEqual => some .le
  | .greater => some .gt
  | .greaterOrEqual => some .ge
  | _ => none

/-! ## Lists -/

/-- The items of a list value before trimming: an array, or the parts of a text. -/
def rawItems : Json → List Json
  | .array items => items
  | .string s => (Text.split ',' s).map .string
  | .null => []
  | j => [j]

/-- An item of a list value; null and blank texts are none, other texts are trimmed. -/
def listItem? : Json → Option Json
  | .null => none
  | .string s => if Text.isBlankText s then none else some (.string (Text.trim s))
  | j => some j

/-- The items of a list value. -/
def listValues (value : Json) : List Json := (rawItems value).filterMap listItem?

namespace Operation

/-! ## Values -/

/-- The error that the value cannot be used. -/
def invalid (op : Operation) (reason : String) : CompileError :=
  .invalidValue op.field op.operator.token reason

/-- A value of the type of the column; null is refused. -/
def scalar (op : Operation) (json : Json) : Except CompileError Value :=
  let reading :=
    if op.type = .dateTime then json.text?.bind Calendar.readClockReading? else none
  match reading with
  | some reading => .ok (.instant (op.context.timezone.instantOf reading))
  | none =>
    match Value.ofJson? json op.type with
    | none => .error (op.invalid (json.compact ++ " is not a valid " ++ op.type.title))
    | some .null => .error (op.invalid "a value is required")
    | some v => .ok v

/-- The date when a plain date is given for a column of instants. -/
def dateOnly? (op : Operation) (json : Json) : Option Date :=
  if op.type = .dateTime then do
    let s := Text.trim (← json.text?)
    if s.utf8ByteSize = 10 then Calendar.readDate? s else none
  else none

/-- The instants a local day begins and ends. -/
def localDay (op : Operation) (date : Date) : Except CompileError (Value × Value) :=
  match date.next? with
  | some next =>
    .ok (.instant (op.context.timezone.dayStart date), .instant (op.context.timezone.dayStart next))
  | none => .error (op.invalid "date out of range")

/-- The value as text. -/
def text (op : Operation) : Except CompileError String :=
  match Value.textOf? op.value with
  | some s => .ok s
  | none => .error (op.invalid "a text value is required")

/-! ## Predicates -/

/-- Inside or outside a half-open interval. -/
def interval (op : Operation) (negated : Bool) (low high : Value) : Predicate :=
  if negated then .outside op.column low high else .halfOpen op.column low high

/-- Equal to a value, or to null when the value is null. -/
def equality (op : Operation) (negated : Bool) : Except CompileError Predicate :=
  if op.value.isNull then .ok (.test (.null op.column negated))
  else match op.dateOnly? op.value with
    | some date => do
      let (start, finish) ← op.localDay date
      .ok (op.interval negated start finish)
    | none => do
      let v ← op.scalar op.value
      .ok (.test (.compare op.column (if negated then .ne else .eq) v))

/-- Before or after a value. -/
def comparison (op : Operation) (comparison : Comparison) : Except CompileError Predicate :=
  match op.dateOnly? op.value with
  | some date => do
    let (start, finish) ← op.localDay date
    let test := match comparison with
      | .lt => Test.compare op.column .lt start
      | .le => .compare op.column .lt finish
      | .gt => .compare op.column .ge finish
      | _ => .compare op.column .ge start
    .ok (.test test)
  | none => do
    let v ← op.scalar op.value
    .ok (.test (.compare op.column comparison v))

/-- Inside or outside a range with two bounds. -/
def range (op : Operation) (negated : Bool) : Except CompileError Predicate :=
  match op.value with
  | .array [low, high] =>
    match op.dateOnly? low, op.dateOnly? high with
    | some first, some last => do
      let (start, _) ← op.localDay first
      let (_, finish) ← op.localDay last
      .ok (op.interval negated start finish)
    | _, _ => do
      let low ← op.scalar low
      let high ← op.scalar high
      .ok (.test (.between op.column low high negated))
  | _ => .error (op.invalid "a two element range is required")

/-- Among the items of a list; an empty list places no constraint. -/
def membership (op : Operation) (negated : Bool) : Except CompileError (Option Predicate) := do
  let values ← (listValues op.value).mapM op.scalar
  if values.isEmpty then .ok none
  else .ok (some (.test (.member op.column values negated)))

/-- A text with a pattern around it. -/
def pattern (op : Operation) (before after : String) (negated : Bool) :
    Except CompileError Predicate := do
  .ok (.test (.like op.column (before ++ (← op.text) ++ after) negated))

/-- Inside a window relative to today. -/
def window (op : Operation) : Except CompileError Predicate :=
  let window := (op.value.text?.bind Window.ofToken?).filter fun w => w.operator == op.operator
  match window with
  | none =>
    .error (op.invalid
      (op.value.compact ++ " is not a relative date for '" ++ op.operator.token ++ "'"))
  | some w =>
    match w.days? op.context.localToday with
    | none => .error (op.invalid "date out of range")
    | some (start, finish) =>
      if op.type = .dateTime then
        .ok (.halfOpen op.column (.instant (op.context.timezone.dayStart start))
          (.instant (op.context.timezone.dayStart finish)))
      else .ok (.halfOpen op.column (.date start) (.date finish))

/-- The predicate of the operation, none when the value places no constraint. -/
def predicate (op : Operation) : Except CompileError (Option Predicate) :=
  match op.operator with
  | .equal => (op.equality false).map some
  | .notEqual => (op.equality true).map some
  | .less => (op.comparison .lt).map some
  | .lessOrEqual => (op.comparison .le).map some
  | .greater => (op.comparison .gt).map some
  | .greaterOrEqual => (op.comparison .ge).map some
  | .between => (op.range false).map some
  | .notBetween => (op.range true).map some
  | .in_ => op.membership false
  | .notIn => op.membership true
  | .beginsWith => (op.pattern "" "%" false).map some
  | .notBeginsWith => (op.pattern "" "%" true).map some
  | .contains => (op.pattern "%" "%" false).map some
  | .notContains => (op.pattern "%" "%" true).map some
  | .endsWith => (op.pattern "%" "" false).map some
  | .notEndsWith => (op.pattern "%" "" true).map some
  | .isEmpty => .ok (some (.test (.empty op.column false)))
  | .isNotEmpty => .ok (some (.test (.empty op.column true)))
  | .isNull => .ok (some (.test (.null op.column false)))
  | .isNotNull => .ok (some (.test (.null op.column true)))
  | .is | .was => op.window.map some

end Operation
end Winnow
