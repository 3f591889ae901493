import Winnow.Schema.Entity

/-!
# The registry of entities

A registry holds entities by name; every relation of a registered entity leads
to a registered one.  A field reference is a path of relations followed by a
column: `splitPath` takes as many leading segments for relations as possible
and always leaves one segment for the column.
-/

namespace Winnow

/-- A field reference: the relations walked from an entity and the column at their end. -/
structure FieldPath where
  relations : List String
  column : String
  deriving DecidableEq, Repr

/-- Entities by name. -/
structure Registry where
  entities : Keyed Entity

namespace FieldPath

/-- Whether the reference goes through a relation. -/
def isRelated (p : FieldPath) : Bool := !p.relations.isEmpty

/-- The relations joined with dots. -/
def relationPath (p : FieldPath) : String := Text.join "." p.relations

end FieldPath

namespace Registry

/-! ## Building -/

/-- A registry without entities. -/
def empty : Registry := ⟨[]⟩

/-- The first name a relation leads to that is not registered. -/
def dangling? (entities : Keyed Entity) : Option String :=
  (entities.values.flatMap fun e => e.relations.values.map Relation.related).find?
    fun name => !entities.has name

/-- The registry of some entities; the last of equal names counts. -/
def ofEntities (list : List Entity) : Except CompileError Registry :=
  let entities := Keyed.ofPairs (list.map fun e => (e.name, e))
  match dangling? entities with
  | some name => .error (.unknownEntity name)
  | none => .ok ⟨entities⟩

/-! ## Look-up -/

/-- An entity by name. -/
def get (r : Registry) (name : String) : Except CompileError Entity :=
  match r.entities.get? name with
  | some e => .ok e
  | none => .error (.unknownEntity name)

/-- The names in increasing order. -/
def names (r : Registry) : List String := r.entities.keys

/-- A relation of an entity and the entity it leads to. -/
def related (r : Registry) (e : Entity) (relation : String) :
    Except CompileError (Relation × Entity) :=
  match e.relation? relation with
  | none => .error (.unknownRelation e.name relation)
  | some found => (r.get found.related).map (found, ·)

/-! ## Paths -/

/-- The leading segments that are relations; the last segment is kept back. -/
def relationSegments (r : Registry) (e : Entity) : List String → List String
  | segment :: next :: rest =>
    match r.related e segment with
    | .ok (_, target) => segment :: relationSegments r target (next :: rest)
    | .error _ => []
  | _ => []

/-- The relations and the column of a field reference. -/
def splitPath (r : Registry) (e : Entity) (field : String) : FieldPath :=
  let segments := Text.split '.' field
  let relations := r.relationSegments e segments
  ⟨relations, Text.join "." (segments.drop relations.length)⟩

/-- The entity at the end of a path of relations. -/
def walk (r : Registry) (e : Entity) : List String → Except CompileError Entity
  | [] => .ok e
  | relation :: rest =>
    match r.related e relation with
    | .ok (_, target) => walk r target rest
    | .error error => .error error

/-- Whether every relation on the path exists and is to-one. -/
def isToOnePath (r : Registry) (e : Entity) : List String → Bool
  | [] => true
  | relation :: rest =>
    match r.related e relation with
    | .ok (found, target) => found.isToOne && isToOnePath r target rest
    | .error _ => false

end Registry
end Winnow
