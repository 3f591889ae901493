import Winnow.Calendar.Window
import Winnow.Compile.Context

/-!
# Periods of exports

An export covers a period of a date column, given as a relative window or as a
first and a last date, and lists the newest rows first.  On a column of
instants the period consists of whole local days.
-/

namespace Winnow

/-- The days an export covers. -/
inductive Period where
  | window (window : Window)
  /-- Both dates belong to the period. -/
  | range (first last : Date)
  deriving DecidableEq, Repr

namespace Period

/-- The error of a value that is no period. -/
def invalid (reason : String) : CompileError :=
  .invalidValue "period" Operator.between.token reason

/-- The period between two dates in order. -/
def ofBounds (first last : Date) : Except CompileError Period :=
  if last.dayNumber < first.dayNumber then .error (invalid "period starts after it ends")
  else .ok (.range first last)

/-- The period a value stands for; null and blank texts mean no period. -/
def ofJson : Json → Except CompileError (Option Period)
  | .null => .ok none
  | .string token =>
    if Text.isBlankText token then .ok none
    else match Window.ofToken? token with
      | some w => .ok (some (.window w))
      | none => .error (invalid "unknown relative period")
  | .array [first, last] =>
    match first.text?.bind Calendar.readDate?, last.text?.bind Calendar.readDate? with
    | some first, some last => (ofBounds first last).map some
    | _, _ => .error (invalid "period bounds must be dates")
  | _ => .error (invalid "expected a relative period or [start, end]")

/-- The first day of the period and the first day after it, if both are representable. -/
def days? (p : Period) (today : Date) : Option (Date × Date) :=
  match p with
  | .window w => w.days? today
  | .range first last => last.next?.map (first, ·)

end Period

namespace Listing

/-- The bounds of days in a column of a type. -/
def periodBounds (context : CompileContext) (column : String) (type : ColumnType)
    (start finish : Date) : Except CompileError (Value × Value) :=
  match type with
  | .dateTime =>
    .ok (.instant (context.timezone.dayStart start), .instant (context.timezone.dayStart finish))
  | .date => .ok (.date start, .date finish)
  | other =>
    .error (.invalidValue column Operator.between.token
      (other.title ++ " column cannot bound a period"))

/-- Restricts a query to a period of a column. -/
def addPeriod (context : CompileContext) (column : String) (type : ColumnType) (period : Period)
    (q : Query) : Except CompileError Query := do
  let (start, finish) ← match period.days? context.localToday with
    | some days => .ok days
    | none => .error (.invalidValue column Operator.between.token "period out of range")
  let (low, high) ← periodBounds context column type start finish
  .ok (q.addClause .and (.halfOpen (q.column column) low high))

/-- Restricts a query to a period of a column, if there is one, and lists the newest rows
first. -/
def export_ (context : CompileContext) (column : String) (period : Option Period) (q : Query) :
    Except CompileError Query := do
  let type ← match q.entity.columnType? column with
    | some type => .ok type
    | none => .error (.unknownColumn q.entity.name column)
  let q ← match period with
    | some period => addPeriod context column type period q
    | none => .ok q
  .ok (q.forgetOrders.orderByColumn column .descending)

end Listing
end Winnow
