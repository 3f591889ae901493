import Winnow.Compile.Context
import Winnow.Filter.FilterSet
import Winnow.Listing.Table
import Winnow.Settings.Basic

/-!
# Resources

A resource is an entity that users can list: the filters they can build rules
from, the columns of its table, and the date column that bounds its exports.
A catalog holds the resources of a registry under distinct identifiers.
-/

namespace Winnow

/-- A listable entity. -/
structure Resource where
  identifier : String
  /-- Name of the entity. -/
  entity : String
  filters : FilterSet
  tableColumns : List TableColumn := []
  /-- The date column exports are bounded and ordered by. -/
  exportColumn : Option String := none

/-- The resources of a registry, in increasing order of their identifiers. -/
structure Catalog where
  registry : Registry
  resources : Keyed Resource

/-- The resource of an entity with the filters derived from it. -/
def Resource.ofEntity (identifier : String) (e : Entity) : Except CompileError Resource := do
  .ok { identifier, entity := e.name, filters := ← FilterSet.ofEntity e }

namespace Catalog

/-- A catalog without resources. -/
def ofRegistry (registry : Registry) : Catalog := ⟨registry, []⟩

/-- Adds a resource, whose entity must exist and whose identifier must be new. -/
def register (c : Catalog) (resource : Resource) : Except Failure Catalog := do
  let _ ← Failure.liftCompile (c.registry.get resource.entity)
  if c.resources.has resource.identifier then
    .error ⟨.conflict, "Resource '" ++ resource.identifier ++ "' is already registered"⟩
  else .ok { c with resources := c.resources.put resource.identifier resource }

/-- The catalog of all entities of a registry, each under its own name. -/
def ofEntities (registry : Registry) : Except Failure Catalog :=
  registry.names.foldlM (fun catalog name => do
    let entity ← Failure.liftCompile (registry.get name)
    catalog.register (← Failure.liftCompile (Resource.ofEntity name entity))) (ofRegistry registry)

/-- A resource by identifier. -/
def get (c : Catalog) (identifier : String) : Except Failure Resource :=
  match c.resources.get? identifier with
  | some resource => .ok resource
  | none => .error ⟨.notFound, "Unknown resource '" ++ identifier ++ "'"⟩

/-- The entity of a resource. -/
def entity (c : Catalog) (resource : Resource) : Except Failure Entity :=
  Failure.liftCompile (c.registry.get resource.entity)

/-- The identifiers in increasing order. -/
def identifiers (c : Catalog) : List String := c.resources.keys

end Catalog
end Winnow

/-!
## Callers

A caller is the user of a request, with what the request says of them and the
instant it was received.
-/

namespace Winnow

/-- The user of a request. -/
structure Caller where
  user : Int
  /-- Whether they may change filters shared by the system. -/
  isAdmin : Bool := false
  /-- Their timezone, when they have one of their own. -/
  timezone : Option String := none
  /-- When the request was received; rules are compiled as of then. -/
  time : Instant
  deriving DecidableEq, Repr

namespace Caller

/-- Reads an instant in interchange form. -/
def timeFromWire : Wire.Reader Instant := fun j => do
  Calendar.readRelaxed? (← Wire.string j).toList

/-- Reads the wire form. -/
def fromWire : Wire.Reader Caller := fun j => do
  let r ← Wire.Record.ofJson? ["user_id", "is_super_admin", "timezone", "request_time"] j
  some {
    user := ← r.required "user_id" Wire.int64
    isAdmin := ← r.withDefault "is_super_admin" false Wire.bool
    timezone := ← r.optional "timezone" Wire.string
    time := ← r.required "request_time" timeFromWire }

/-- The timezone of the user, else that of the installation. -/
def offset (c : Caller) (settings : QuerySettings) : Except Failure Offset :=
  match c.timezone with
  | some timezone => Failure.readOffset timezone
  | none => settings.offset

/-- The context that rules are compiled in for the request. -/
def context (c : Caller) (settings : QuerySettings) : Except Failure CompileContext := do
  .ok { now := c.time, timezone := ← c.offset settings, user := some c.user }

end Caller
end Winnow
