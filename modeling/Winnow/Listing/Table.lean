import Winnow.Listing.Order

/-!
# Tables

A table lists an entity in columns: attributes of the entity, fields of
to-one related rows, and counts of related rows.  Requested orders on columns
that are unknown or cannot be sorted are left out; when none remains, a query
without orders gets the default order of the table or of the entity.
-/

namespace Winnow

/-- A column of a table. -/
structure TableColumn where
  /-- What the column shows, and what requests sort it by. -/
  key : String
  sortable : Bool := true
  /-- The path of relations the column is read through. -/
  relation : Option String := none
  /-- The column at the end of the path when it is not the key. -/
  relationField : Option String := none
  /-- Whether the column shows the number of related rows. -/
  counts : Bool := false
  deriving DecidableEq, Repr

namespace TableColumn

/-- A column of the entity. -/
def ofKey (key : String) : TableColumn := { key }

/-- A column that shows a field of a related row. -/
def related (key relation field : String) : TableColumn :=
  { key, relation := some relation, relationField := some field }

/-- A column that shows the number of related rows. -/
def count (relation : String) : TableColumn :=
  { key := relation ++ "_count", relation := some relation, counts := true }

/-- The column without the possibility to sort by it. -/
def notSortable (c : TableColumn) : TableColumn := { c with sortable := false }

/-- The relation whose rows are counted. -/
def countRelation (c : TableColumn) : String := c.relation.getD c.key

/-- Reads the wire form. -/
def fromWire : Wire.Reader TableColumn := fun j => do
  let r ← Wire.Record.ofJson?
    ["attribute", "sortable", "relation", "relation_field", "counts"] j
  some {
    key := ← r.required "attribute" Wire.string
    sortable := ← r.withDefault "sortable" true Wire.bool
    relation := ← r.optional "relation" Wire.string
    relationField := ← r.optional "relation_field" Wire.string
    counts := ← r.withDefault "counts" false Wire.bool }

/-- The wire form. -/
def toJson (c : TableColumn) : Json :=
  let text (s : Option String) : Json := Json.ofOption (s.map .string)
  Json.ofPairs [
    ("attribute", .string c.key),
    ("sortable", .bool c.sortable),
    ("relation", text c.relation),
    ("relation_field", text c.relationField),
    ("counts", .bool c.counts)]

end TableColumn

namespace Listing

/-- Projects the counts that columns show. -/
def addCounts (registry : Registry) (columns : List TableColumn) (q : Query) :
    Except CompileError Query :=
  (columns.filter TableColumn.counts).foldlM
    (fun q column => (q.countRelated registry column.countRelation).map Prod.snd) q

/-- What sorting by a column sorts by, and the query with the joins and counts this needs. -/
def sortTarget (registry : Registry) (column : TableColumn) (q : Query) :
    Except CompileError (Option OrderTarget × Query) := do
  if column.counts then
    let (name, q) ← q.countRelated registry column.countRelation
    .ok (some (.output name), q)
  else match column.relation with
    | some relation =>
      let relations := Text.split '.' relation
      if !registry.isToOnePath q.entity relations then .ok (none, q)
      else
        let (tableAlias, q) ← q.joinPath registry relations
        .ok (some (.column (.field tableAlias (column.relationField.getD column.key))), q)
    | none =>
      if q.entity.hasColumn column.key then
        .ok (some (.column (q.column column.key)), q)
      else .ok (none, q)

/-- The sort keys of requested orders, and the query with what they need. -/
def sortTargets (registry : Registry) (columns : List TableColumn) :
    List SortField → Query → Except CompileError (List Order × Query)
  | [], q => .ok ([], q)
  | sort :: rest, q =>
    match columns.find? fun c => c.key == sort.field && c.sortable with
    | none => sortTargets registry columns rest q
    | some column => do
      let (target, q) ← sortTarget registry column q
      let (orders, q) ← sortTargets registry columns rest q
      match target with
      | some target => .ok (⟨target, sort.direction⟩ :: orders, q)
      | none => .ok (orders, q)

/-- Orders a query by the columns of a table. -/
def orderTable (registry : Registry) (columns : List TableColumn)
    (order defaultOrder : List SortField) (q : Query) : Except CompileError Query := do
  let q ← addCounts registry columns q
  let (orders, q) ← sortTargets registry columns order q
  if !orders.isEmpty then .ok { q with orders := orders }
  else if !q.orders.isEmpty then .ok q
  else orderByAll registry (if defaultOrder.isEmpty then q.entity.defaultOrder else defaultOrder) q

end Listing
end Winnow
