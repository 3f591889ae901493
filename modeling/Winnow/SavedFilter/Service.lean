import Winnow.Compile.Tree
import Winnow.Resource.Catalog
import Winnow.Rule.CurrentUser
import Winnow.Rule.Wire
import Winnow.SavedFilter.Store

/-!
# Saved filters for users

What users can do with saved filters.  A filter is changed only by its owner
or, when it is shared by the system, by an administrator, and never when it is
readonly.  Rules are checked before they are saved.
-/

namespace Winnow

/-- A request to save a filter. -/
structure SaveRequest where
  name : String
  identifier : String
  view : String := SavedFilter.defaultView
  rules : Json
  /-- Whether it becomes the default of the user. -/
  isDefault : Bool := false

/-- Reads the wire form. -/
def SaveRequest.fromWire : Wire.Reader SaveRequest := fun j => do
  let r ← Wire.Record.ofJson? ["name", "identifier", "view", "rules", "is_default"] j
  some {
    name := ← r.required "name" Wire.string
    identifier := ← r.required "identifier" Wire.string
    view := ← r.withDefault "view" SavedFilter.defaultView Wire.string
    rules := ← r.required "rules" Wire.any
    isDefault := ← r.withDefault "is_default" false Wire.bool }

/-- What calls on saved filters depend on. -/
structure FilterService where
  catalog : Catalog
  settings : QuerySettings

namespace FilterService

/-! ## Checks -/

/-- Checks a name, which must hold more than blanks. -/
def checkName (name : String) : Except Failure Unit :=
  if Text.isBlankText name then .error ⟨.validation, "A saved filter needs a name"⟩ else .ok ()

/-- Checks that rules have the right form and, unless the settings waive it, that every one of
them compiles. -/
def checkRules (s : FilterService) (caller : Caller) (resource : Resource) (rules : Json) :
    Except Failure Unit := do
  let tree ← Failure.liftCompile (Rule.Tree.read rules)
  if s.settings.strictRules then
    let context := (← caller.context s.settings).strict
    let entity ← s.catalog.entity resource
    let tree := tree.fillUser resource.filters context.user
    let _ ← Failure.liftCompile
      (Compile.compileTree resource.filters ⟨s.catalog.registry, context, none⟩ tree
        (Query.ofEntity entity))
    .ok ()
  else .ok ()

/-- Checks that a filter may be changed by a caller. -/
def checkEditable (caller : Caller) (f : SavedFilter) : Except Failure Unit :=
  if !f.isMutable then
    .error ⟨.authorization, "Saved filter '" ++ f.name ++ "' is readonly"⟩
  else if f.isSystem && !caller.isAdmin then
    .error ⟨.authorization,
      "Saved filter '" ++ f.name ++ "' is shared by the system and cannot be changed"⟩
  else .ok ()

/-- Checks that a caller may change whether a filter is a default. -/
def checkDefault (caller : Caller) (f : SavedFilter) : Except Failure Unit :=
  if f.isSystem && !caller.isAdmin then
    .error ⟨.authorization, "Only administrators can change the default of a system filter"⟩
  else .ok ()

/-- The result of looking a filter up, which must exist. -/
def existing (id : Int) : Option SavedFilter → Except Failure SavedFilter
  | some f => .ok f
  | none => .error (FilterStore.notFound id)

/-! ## Calls -/

/-- Looks a filter up for a caller. -/
def get (caller : Caller) (id : Int) : Call SavedFilter :=
  .findVisible id caller.user fun found => .done (existing id found)

/-- Looks up a filter that a caller may change, and goes on with it. -/
def withEditable {α : Type} (caller : Caller) (id : Int) (next : SavedFilter → Call α) : Call α :=
  .findVisible id caller.user fun found =>
    .guard (existing id found) fun f => .guard (checkEditable caller f) fun _ => next f

/-- The filters of a listing that a caller can apply. -/
def list (s : FilterService) (caller : Caller) (identifier : String) : Call (List SavedFilter) :=
  .guard (s.catalog.get identifier) fun _ =>
    .listVisible identifier caller.user fun filters => .done (.ok filters)

/-- The checks of a request to save a filter. -/
def checkSave (s : FilterService) (caller : Caller) (request : SaveRequest) :
    Except Failure Unit := do
  checkName request.name
  let resource ← s.catalog.get request.identifier
  s.checkRules caller resource request.rules

/-- The draft of a request to save a filter. -/
def draft (caller : Caller) (request : SaveRequest) : FilterDraft := {
  owner := some caller.user
  name := Text.trim request.name
  identifier := request.identifier
  view := request.view
  rules := request.rules }

/-- Saves a filter that belongs to a caller. -/
def create (s : FilterService) (caller : Caller) (request : SaveRequest) : Call SavedFilter :=
  .guard (s.checkSave caller request) fun _ =>
    .create (draft caller request) fun f =>
      if request.isDefault then .markDefault f.id fun f => .done (.ok f) else .done (.ok f)

/-- The checks of changes of a filter. -/
def checkChanges (s : FilterService) (caller : Caller) (f : SavedFilter)
    (changes : FilterChanges) : Except Failure Unit := do
  match changes.rules with
  | some rules =>
    let resource ← s.catalog.get f.identifier
    s.checkRules caller resource rules
  | none => .ok ()
  match changes.name with
  | some name => checkName name
  | none => .ok ()

/-- Renames a filter or replaces its rules. -/
def update (s : FilterService) (caller : Caller) (id : Int) (changes : FilterChanges) :
    Call SavedFilter :=
  withEditable caller id fun f =>
    .guard (s.checkChanges caller f changes) fun _ =>
      .update id changes fun f => .done (.ok f)

/-- Deletes a filter. -/
def delete (caller : Caller) (id : Int) : Call Unit :=
  withEditable caller id fun _ => .delete id fun _ => .done (.ok ())

/-- Makes a filter the default of its listing view. -/
def markDefault (caller : Caller) (id : Int) : Call SavedFilter :=
  .findVisible id caller.user fun found =>
    .guard (existing id found) fun f =>
      .guard (checkDefault caller f) fun _ => .markDefault id fun f => .done (.ok f)

/-- Takes the default mark from a filter. -/
def unmarkDefault (caller : Caller) (id : Int) : Call SavedFilter :=
  .findVisible id caller.user fun found =>
    .guard (existing id found) fun f =>
      .guard (checkDefault caller f) fun _ => .unmarkDefault id fun f => .done (.ok f)

end FilterService
end Winnow
