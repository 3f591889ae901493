import Winnow.Listing.Order
import Winnow.Listing.Search

/-!
# Requests

A request refines a query in steps: search, order, projection, relations to
load along, and a limit.
-/

namespace Winnow.Listing

/-- Orders a query as requested; without a requested order it keeps its own. -/
def requestOrder (registry : Registry) (p : Parameters) (q : Query) : Except CompileError Query :=
  if p.order.isEmpty then .ok q else orderByAll registry p.order q.forgetOrders

/-- Projects the primary key and the requested columns. -/
def requestSelect (p : Parameters) (q : Query) : Except CompileError Query :=
  if p.select.isEmpty then .ok q
  else match p.select.find? fun column => !q.entity.hasColumn column with
    | some column => .error (.unknownColumn q.entity.name column)
    | none => .ok (q.select (q.entity.primaryKey :: p.select))

/-- Loads the requested relations along, every one of which must exist. -/
def requestLoad (registry : Registry) (p : Parameters) (q : Query) : Except CompileError Query := do
  let _ ← p.load.mapM fun path => registry.walk q.entity (Text.split '.' path)
  .ok (q.load p.load)

/-- Limits a query as requested, or as installed. -/
def requestTake (settings : QuerySettings) (p : Parameters) (q : Query) : Query :=
  match p.take.or settings.defaultTake with
  | some limit => q.take limit
  | none => q

/-- Refines a query as requested. -/
def request (registry : Registry) (context : CompileContext) (settings : QuerySettings)
    (scope : SearchScope) (p : Parameters) (q : Query) : Except Failure Query := do
  let q ← search registry context settings scope p q
  let q ← Failure.liftCompile do
    let q ← requestOrder registry p q
    let q ← requestSelect p q
    requestLoad registry p q
  .ok (requestTake settings p q)

end Winnow.Listing
