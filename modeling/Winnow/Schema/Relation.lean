import Winnow.Wire

/-!
# Relations

A relation leads from an entity to a related one through a pair of keys,
directly or through the rows of a pivot table.  `Relation.link` fixes the
relation between two qualified tables of a query.
-/

namespace Winnow

/-- A fixed value a column of the pivot must have. -/
structure MorphConstraint where
  column : String
  value : String
  deriving DecidableEq, Repr, Inhabited

/-- Cardinality and keys of a relation. -/
inductive RelationKind where
  /-- The parent holds the key of the related row. -/
  | belongsTo (foreignKey ownerKey : String)
  /-- The related row holds the key of the parent, at most one does. -/
  | hasOne (foreignKey localKey : String)
  /-- The related rows hold the key of the parent. -/
  | hasMany (foreignKey localKey : String)
  /-- Rows of a pivot table hold both keys. -/
  | belongsToMany (pivotTable foreignPivotKey relatedPivotKey parentKey relatedKey : String)
      (morph : Option MorphConstraint)
  deriving DecidableEq, Repr

/-- A relation to another entity. -/
structure Relation where
  related : String
  kind : RelationKind
  deriving DecidableEq, Repr

/-- The key columns that link two tables of a query. -/
inductive LinkKind where
  | direct (parentColumn relatedColumn : String)
  | pivot (table parentPivotColumn relatedPivotColumn parentColumn relatedColumn : String)
      (morph : Option MorphConstraint)
  deriving DecidableEq, Repr

/-- A relation between two qualified tables of a query. -/
structure Link where
  name : String
  parent : String
  relatedTable : String
  related : String
  kind : LinkKind
  deriving DecidableEq, Repr

namespace RelationKind

/-- Name of a key column when none is given. -/
def defaultKey : String := "id"

/-- Whether a row has at most one related row. -/
def isToOne : RelationKind → Bool
  | .belongsTo _ _ | .hasOne _ _ => true
  | .hasMany _ _ | .belongsToMany .. => false

/-- The key columns of the relation. -/
def linkKind : RelationKind → LinkKind
  | .belongsTo foreignKey ownerKey => .direct foreignKey ownerKey
  | .hasOne foreignKey localKey | .hasMany foreignKey localKey => .direct localKey foreignKey
  | .belongsToMany table foreignPivotKey relatedPivotKey parentKey relatedKey morph =>
    .pivot table foreignPivotKey relatedPivotKey parentKey relatedKey morph

/-- The relation restricted to pivot rows with a fixed value; other kinds have no pivot. -/
def withMorph (column value : String) : RelationKind → RelationKind
  | .belongsToMany table foreignPivotKey relatedPivotKey parentKey relatedKey _ =>
    .belongsToMany table foreignPivotKey relatedPivotKey parentKey relatedKey
      (some ⟨column, value⟩)
  | kind => kind

end RelationKind

namespace Relation

/-! ## Building -/

/-- The parent holds the key of the related row. -/
def belongsTo (related foreignKey : String) : Relation :=
  ⟨related, .belongsTo foreignKey RelationKind.defaultKey⟩

/-- At most one related row holds the key of the parent. -/
def hasOne (related foreignKey : String) : Relation :=
  ⟨related, .hasOne foreignKey RelationKind.defaultKey⟩

/-- The related rows hold the key of the parent. -/
def hasMany (related foreignKey : String) : Relation :=
  ⟨related, .hasMany foreignKey RelationKind.defaultKey⟩

/-- Rows of a pivot table hold both keys. -/
def belongsToMany (related pivotTable foreignPivotKey relatedPivotKey : String) : Relation :=
  ⟨related, .belongsToMany pivotTable foreignPivotKey relatedPivotKey RelationKind.defaultKey
    RelationKind.defaultKey none⟩

/-- The relation restricted to pivot rows with a fixed value. -/
def withMorph (r : Relation) (column value : String) : Relation :=
  { r with kind := r.kind.withMorph column value }

/-! ## Views -/

/-- Whether a row has at most one related row. -/
def isToOne (r : Relation) : Bool := r.kind.isToOne

/-- The relation under a name between two qualified tables. -/
def link (r : Relation) (name parent relatedTable related : String) : Link :=
  ⟨name, parent, relatedTable, related, r.kind.linkKind⟩

/-! ## Wire form -/

/-- Reads a morph constraint. -/
def morphFromWire : Wire.Reader MorphConstraint := fun j => do
  let r ← Wire.Record.ofJson? ["column", "value"] j
  some ⟨← r.required "column" Wire.string, ← r.required "value" Wire.string⟩

/-- The kinds by name. -/
inductive Tag where
  | belongsTo
  | hasOne
  | hasMany
  | belongsToMany
  deriving DecidableEq

/-- Names of the kinds. -/
def tags : List (String × Tag) := [
  ("belongs_to", .belongsTo), ("has_one", .hasOne), ("has_many", .hasMany),
  ("belongs_to_many", .belongsToMany)
]

/-- Reads a relation. -/
def fromWire : Wire.Reader Relation := fun j => do
  let r ← Wire.Record.ofObject? j
  let related ← r.required "related" Wire.string
  let key (field : String) := r.withDefault field RelationKind.defaultKey Wire.string
  let kind ← match ← r.required "kind" (Wire.tagOf tags) with
    | .belongsTo => do
      some (RelationKind.belongsTo (← r.required "foreign_key" Wire.string) (← key "owner_key"))
    | .hasOne => do
      some (RelationKind.hasOne (← r.required "foreign_key" Wire.string) (← key "local_key"))
    | .hasMany => do
      some (RelationKind.hasMany (← r.required "foreign_key" Wire.string) (← key "local_key"))
    | .belongsToMany => do
      some (RelationKind.belongsToMany (← r.required "pivot_table" Wire.string)
        (← r.required "foreign_pivot_key" Wire.string)
        (← r.required "related_pivot_key" Wire.string)
        (← key "parent_key") (← key "related_key") (← r.optional "morph" morphFromWire))
  some ⟨related, kind⟩

/-- A morph constraint as data. -/
def morphToJson (m : MorphConstraint) : Json :=
  Json.ofPairs [("column", .string m.column), ("value", .string m.value)]

/-- The wire form. -/
def toJson (r : Relation) : Json :=
  let fields := match r.kind with
    | .belongsTo foreignKey ownerKey =>
      [("kind", Json.string "belongs_to"), ("foreign_key", .string foreignKey),
        ("owner_key", .string ownerKey)]
    | .hasOne foreignKey localKey =>
      [("kind", .string "has_one"), ("foreign_key", .string foreignKey),
        ("local_key", .string localKey)]
    | .hasMany foreignKey localKey =>
      [("kind", .string "has_many"), ("foreign_key", .string foreignKey),
        ("local_key", .string localKey)]
    | .belongsToMany table foreignPivotKey relatedPivotKey parentKey relatedKey morph =>
      [("kind", .string "belongs_to_many"), ("pivot_table", .string table),
        ("foreign_pivot_key", .string foreignPivotKey),
        ("related_pivot_key", .string relatedPivotKey), ("parent_key", .string parentKey),
        ("related_key", .string relatedKey), ("morph", Json.ofOption (morph.map morphToJson))]
  Json.ofPairs (("related", .string r.related) :: fields)

end Relation
end Winnow
