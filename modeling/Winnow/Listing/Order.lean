import Winnow.Query.Builder

/-!
# Orders of a listing

A listing is ordered by columns of its entity, by columns reached through
to-one relations, and by aggregates.  A field that is no column and has the
form of an aggregate's name is taken for one; otherwise it is a path, with
bars or dots between its segments.
-/

namespace Winnow.Listing

open Winnow.Text

/-- Whether a field has the form of an aggregate's name. -/
def namesAggregate (field : String) : Bool :=
  endsWith "_count" field || endsWith "_exists" field ||
    ["_sum_", "_min_", "_max_", "_avg_", "_exists_"].any fun part => occursIn part field

/-- Orders by a column reached through relations, which are joined. -/
def orderByPath (registry : Registry) (path : FieldPath) (direction : Direction) (q : Query) :
    Except CompileError Query := do
  let related ← registry.walk q.entity path.relations
  if !related.hasColumn path.column then .error (.unknownColumn related.name path.column)
  else
    let (tableAlias, q) ← q.joinPath registry path.relations
    .ok (q.addOrder (.column (.field tableAlias path.column)) direction)

/-- Appends a sort field. -/
def orderBy (registry : Registry) (sort : SortField) (q : Query) : Except CompileError Query :=
  let field := trim sort.field
  if q.entity.hasColumn field then .ok (q.orderByColumn field sort.direction)
  else if namesAggregate field then .ok (q.addOrder (.output field) sort.direction)
  else
    let path := registry.splitPath q.entity (replaceChar '|' "." field)
    if path.isRelated then orderByPath registry path sort.direction q
    else .error (.unknownColumn q.entity.name field)

/-- Appends sort fields. -/
def orderByAll (registry : Registry) (sorts : List SortField) (q : Query) :
    Except CompileError Query :=
  sorts.foldlM (fun q sort => orderBy registry sort q) q

end Winnow.Listing
