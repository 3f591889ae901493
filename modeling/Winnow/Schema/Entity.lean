import Winnow.Sorting
import Winnow.Value
import Winnow.Schema.Relation

/-!
# Entities

An entity is a kind of record that can be listed: its table, its columns with
their types, its relations, the global scopes that every query on it obeys,
the fields that free-text search looks at and its default order.
-/

namespace Winnow

/-- What a global scope demands of a row. -/
inductive ScopeConstraint where
  /-- The column is null. -/
  | softDeletes (column : String)
  /-- The column has a fixed value. -/
  | equals (column : String) (value : Json)

/-- A named demand on every row of an entity. -/
structure GlobalScope where
  name : String
  constraint : ScopeConstraint

/-- How a search field is compared when the request does not say. -/
inductive SearchOperator where
  | equal
  | like
  | oneOf
  deriving DecidableEq, Repr, Inhabited

/-- A field that free-text search looks at. -/
structure SearchableColumn where
  field : String
  operator : SearchOperator := .equal
  deriving DecidableEq, Repr

/-- A kind of record. -/
structure Entity where
  name : String
  table : String
  primaryKey : String := "id"
  columns : Keyed ColumnType := []
  relations : Keyed Relation := []
  scopes : List GlobalScope := []
  searchable : List SearchableColumn := []
  defaultOrder : List SortField := []

namespace SearchOperator

open Winnow.Text

/-- Name of the operator. -/
def name : SearchOperator → String
  | .equal => "="
  | .like => "like"
  | .oneOf => "in"

/-- The operator a word of a request names. -/
def ofToken? (s : String) : Option SearchOperator :=
  match lowerAscii (trim s) with
  | "=" | "equal" => some .equal
  | "like" => some .like
  | "in" => some .oneOf
  | _ => none

/-- Reads the wire form. -/
def fromWire : Wire.Reader SearchOperator :=
  Wire.oneOf [("=", .equal), ("like", .like), ("in", .oneOf)]

end SearchOperator

namespace SearchableColumn

/-- Reads the wire form. -/
def fromWire : Wire.Reader SearchableColumn := fun j => do
  let r ← Wire.Record.ofJson? ["field", "operator"] j
  some ⟨← r.required "field" Wire.string,
    ← r.withDefault "operator" .equal SearchOperator.fromWire⟩

/-- The wire form. -/
def toJson (c : SearchableColumn) : Json :=
  Json.ofPairs [("field", .string c.field), ("operator", .string c.operator.name)]

end SearchableColumn

namespace GlobalScope

/-- The scope that hides deleted rows. -/
def softDeletes (column : String) : GlobalScope := ⟨"soft_deletes", .softDeletes column⟩

/-- The kinds of scope by name; true for a fixed value. -/
def tags : List (String × Bool) := [("soft_deletes", false), ("equals", true)]

/-- Reads the wire form. -/
def fromWire : Wire.Reader GlobalScope := fun j => do
  let r ← Wire.Record.ofObject? j
  let name ← r.required "name" Wire.string
  let fixed ← r.required "type" (Wire.tagOf tags)
  let column ← r.required "column" Wire.string
  if fixed then some ⟨name, .equals column (← r.required "value" Wire.any)⟩
  else some ⟨name, .softDeletes column⟩

/-- The wire form. -/
def toJson (s : GlobalScope) : Json :=
  match s.constraint with
  | .softDeletes column =>
    Json.ofPairs [("name", .string s.name), ("type", .string "soft_deletes"),
      ("column", .string column)]
  | .equals column value =>
    Json.ofPairs [("name", .string s.name), ("type", .string "equals"),
      ("column", .string column), ("value", value)]

end GlobalScope

namespace Entity

open Winnow.Text

/-- Type of a column, if there is one. -/
def columnType? (e : Entity) (column : String) : Option ColumnType := e.columns.get? column

/-- Whether the entity has the column. -/
def hasColumn (e : Entity) (column : String) : Bool := e.columns.has column

/-- A relation by name. -/
def relation? (e : Entity) (name : String) : Option Relation := e.relations.get? name

/-- Whether a belongs-to relation uses the column. -/
def isForeignKey (e : Entity) (column : String) : Bool :=
  e.relations.values.any fun r => match r.kind with
    | .belongsTo foreignKey _ => foreignKey == column
    | _ => false

/-- Whether the column is an integer key: the primary key, or the foreign key of a belongs-to
relation that is named like one. -/
def isKeyColumn (e : Entity) (column : String) : Bool :=
  e.columnType? column == some .integer &&
    (column == e.primaryKey ||
      (e.isForeignKey column && (endsWith "_id" column || endsWith "_by" column)))

/-! ## Building -/

/-- An entity with an integer primary key and nothing else. -/
def make (name table : String) : Entity := { name, table, columns := [("id", .integer)] }

/-- The entity with a column added or retyped. -/
def addColumn (e : Entity) (name : String) (type : ColumnType) : Entity :=
  { e with columns := e.columns.put name type }

/-- The entity with a relation added or replaced. -/
def addRelation (e : Entity) (name : String) (relation : Relation) : Entity :=
  { e with relations := e.relations.put name relation }

/-- The entity with one more global scope. -/
def addScope (e : Entity) (scope : GlobalScope) : Entity := { e with scopes := e.scopes ++ [scope] }

/-- The entity with one more search field. -/
def addSearchable (e : Entity) (column : SearchableColumn) : Entity :=
  { e with searchable := e.searchable ++ [column] }

/-- The entity with one more key of its default order. -/
def addOrder (e : Entity) (sort : SortField) : Entity :=
  { e with defaultOrder := e.defaultOrder ++ [sort] }

/-! ## Wire form -/

/-- Names of the fields in the wire form. -/
def fieldNames : List String :=
  ["name", "table", "primary_key", "columns", "relations", "scopes", "searchable",
    "default_order"]

/-- Reads an entity. -/
def fromWire : Wire.Reader Entity := fun j => do
  let r ← Wire.Record.ofJson? fieldNames j
  let name ← r.required "name" Wire.string
  let table ← r.required "table" Wire.string
  let primaryKey ← r.withDefault "primary_key" "id" Wire.string
  let columns ← r.withDefault "columns" [] (Wire.keyed ColumnType.fromWire)
  let relations ← r.withDefault "relations" [] (Wire.keyed Relation.fromWire)
  let scopes ← r.withDefault "scopes" [] (Wire.list GlobalScope.fromWire)
  let searchable ← r.withDefault "searchable" [] (Wire.list SearchableColumn.fromWire)
  let defaultOrder ← r.withDefault "default_order" [] (Wire.list SortField.fromWire)
  some { name, table, primaryKey, columns, relations, scopes, searchable, defaultOrder }

/-- The wire form. -/
def toJson (e : Entity) : Json :=
  Json.ofPairs [
    ("name", .string e.name),
    ("table", .string e.table),
    ("primary_key", .string e.primaryKey),
    ("columns", .object (e.columns.map fun (name, type) => (name, .string type.name))),
    ("relations", .object (e.relations.map fun (name, r) => (name, r.toJson))),
    ("scopes", .array (e.scopes.map GlobalScope.toJson)),
    ("searchable", .array (e.searchable.map SearchableColumn.toJson)),
    ("default_order", .array (e.defaultOrder.map SortField.toJson))]

end Entity
end Winnow
