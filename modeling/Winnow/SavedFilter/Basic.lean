import Winnow.Wire

/-!
# Saved filters

A saved filter is a rule payload kept under a name for the listing of one
resource.  It belongs to a user or, without an owner, to everybody.
-/

namespace Winnow

/-- A rule payload that can be applied again. -/
structure SavedFilter where
  id : Int
  /-- The user it belongs to; none for filters shared by the system. -/
  owner : Option Int
  name : String
  /-- The resource whose listing it is for. -/
  identifier : String
  /-- The part of the listing it is for, such as its table. -/
  view : String
  rules : Json
  /-- Whether it applies when nothing else is asked for. -/
  isDefault : Bool
  isReadonly : Bool
  isSystemDefault : Bool

/-- A saved filter before it has an identifier. -/
structure FilterDraft where
  owner : Option Int
  name : String
  identifier : String
  view : String
  rules : Json
  isReadonly : Bool := false
  isSystemDefault : Bool := false

/-- What is changed in a saved filter. -/
structure FilterChanges where
  name : Option String := none
  rules : Option Json := none

namespace SavedFilter

/-- The view of filters that name none. -/
def defaultView : String := "table"

/-- Whether it is shared by the system. -/
def isSystem (f : SavedFilter) : Bool := f.owner.isNone

/-- Whether a user may see and apply it. -/
def isVisibleTo (f : SavedFilter) (user : Int) : Bool :=
  match f.owner with
  | some owner => owner == user
  | none => true

/-- Whether it can be changed and deleted at all. -/
def isMutable (f : SavedFilter) : Bool := !f.isReadonly && !f.isSystemDefault

/-- Whether two filters would be defaults of the same listing, view and owner. -/
def sharesDefault (f g : SavedFilter) : Bool :=
  f.identifier == g.identifier && f.view == g.view && f.owner == g.owner

/-- The filter with changes. -/
def change (f : SavedFilter) (changes : FilterChanges) : SavedFilter :=
  { f with name := changes.name.getD f.name, rules := changes.rules.getD f.rules }

/-- The filter as data. -/
def toJson (f : SavedFilter) : Json :=
  Json.ofPairs [
    ("id", .integer f.id),
    ("user_id", Json.ofOption (f.owner.map .integer)),
    ("name", .string f.name),
    ("identifier", .string f.identifier),
    ("view", .string f.view),
    ("rules", f.rules),
    ("is_default", .bool f.isDefault),
    ("is_readonly", .bool f.isReadonly),
    ("is_system_default", .bool f.isSystemDefault)]

end SavedFilter

namespace FilterDraft

/-- The saved filter with an identifier. -/
def save (d : FilterDraft) (id : Int) : SavedFilter := {
  id := id
  owner := d.owner
  name := d.name
  identifier := d.identifier
  view := d.view
  rules := d.rules
  isDefault := false
  isReadonly := d.isReadonly
  isSystemDefault := d.isSystemDefault }

/-- Reads the wire form. -/
def fromWire : Wire.Reader FilterDraft := fun j => do
  let r ← Wire.Record.ofJson?
    ["user_id", "name", "identifier", "view", "rules", "is_readonly", "is_system_default"] j
  some {
    owner := ← r.nullableField "user_id" Wire.int64
    name := ← r.required "name" Wire.string
    identifier := ← r.required "identifier" Wire.string
    view := ← r.withDefault "view" SavedFilter.defaultView Wire.string
    rules := ← r.required "rules" Wire.any
    isReadonly := ← r.withDefault "is_readonly" false Wire.bool
    isSystemDefault := ← r.withDefault "is_system_default" false Wire.bool }

end FilterDraft

/-- Reads the wire form. -/
def FilterChanges.fromWire : Wire.Reader FilterChanges := fun j => do
  let r ← Wire.Record.ofJson? ["name", "rules"] j
  some ⟨← r.nullableField "name" Wire.string, ← r.nullableField "rules" Wire.any⟩

end Winnow
