import Winnow.Failure
import Winnow.SavedFilter.Basic

/-!
# The store of saved filters

Filters by identifier, in increasing order.  Identifiers are handed out one
after another and never twice.  Of the filters of one listing, view and owner
at most one is the default: marking one takes the mark from the others.
-/

namespace Winnow

/-- Saved filters by identifier. -/
structure FilterStore where
  /-- The identifier handed out last. -/
  lastId : Int := 0
  /-- The filters under their identifiers, in increasing order. -/
  entries : List (Int × SavedFilter) := []

namespace FilterStore

/-! ## Entries -/

/-- The filter under an identifier. -/
def lookup (id : Int) : List (Int × SavedFilter) → Option SavedFilter
  | [] => none
  | (key, f) :: rest => if key = id then some f else lookup id rest

/-- The entries with one filter replaced or inserted. -/
def insert (id : Int) (f : SavedFilter) : List (Int × SavedFilter) → List (Int × SavedFilter)
  | [] => [(id, f)]
  | (key, g) :: rest =>
    if key = id then (id, f) :: rest
    else if id < key then (id, f) :: (key, g) :: rest
    else (key, g) :: insert id f rest

/-- The entries with every filter replaced by its image. -/
def mapFilters (image : SavedFilter → SavedFilter) (entries : List (Int × SavedFilter)) :
    List (Int × SavedFilter) :=
  entries.map fun (id, f) => (id, image f)

/-! ## Look-up -/

/-- A store without filters. -/
def empty : FilterStore := {}

/-- The filters in increasing order of their identifiers. -/
def filters (s : FilterStore) : List SavedFilter := s.entries.map Prod.snd

/-- A filter by identifier. -/
def find? (s : FilterStore) (id : Int) : Option SavedFilter := lookup id s.entries

/-- A filter by identifier, when the user may see it. -/
def findVisible? (s : FilterStore) (id user : Int) : Option SavedFilter :=
  (s.find? id).filter fun f => f.isVisibleTo user

/-- Whether a filter is a default of a listing and view that a user may see. -/
def isDefaultFor (identifier view : String) (user : Int) (f : SavedFilter) : Bool :=
  f.isDefault && f.identifier == identifier && f.view == view && f.isVisibleTo user

/-- The default of a listing and view: the user's own, else that of the system. -/
def findDefault? (s : FilterStore) (identifier view : String) (user : Int) : Option SavedFilter :=
  let defaults := s.filters.filter (isDefaultFor identifier view user)
  (defaults.find? fun f => !f.isSystem).or (defaults.find? SavedFilter.isSystem)

/-- Order by name, and by identifier where names are equal. -/
def nameOrder (f g : SavedFilter) : Bool :=
  f.name < g.name || (f.name == g.name && f.id ≤ g.id)

/-- The filters of a listing that a user may see, by name. -/
def listVisible (s : FilterStore) (identifier : String) (user : Int) : List SavedFilter :=
  (s.filters.filter fun f => f.identifier == identifier && f.isVisibleTo user).mergeSort nameOrder

/-! ## Changes -/

/-- The failure that a filter does not exist. -/
def notFound (id : Int) : Failure :=
  ⟨.notFound, "Saved filter " ++ Text.intText id ++ " not found"⟩

/-- Saves a draft under the next identifier. -/
def create (s : FilterStore) (draft : FilterDraft) : SavedFilter × FilterStore :=
  let id := s.lastId + 1
  let f := draft.save id
  (f, ⟨id, insert f.id f s.entries⟩)

/-- Replaces the filter under an identifier by its image. -/
def modify (s : FilterStore) (id : Int) (image : SavedFilter → SavedFilter) :
    Except Failure (SavedFilter × FilterStore) :=
  match s.find? id with
  | some f => .ok (image f, { s with entries := insert id (image f) s.entries })
  | none => .error (notFound id)

/-- Changes a filter. -/
def update (s : FilterStore) (id : Int) (changes : FilterChanges) :
    Except Failure (SavedFilter × FilterStore) :=
  s.modify id fun f => f.change changes

/-- Deletes a filter; tells whether there was one. -/
def delete (s : FilterStore) (id : Int) : Bool × FilterStore :=
  ((s.find? id).isSome, { s with entries := s.entries.filter fun entry => !(entry.1 == id) })

/-- The mark of a filter when the target, under an identifier, becomes the default. -/
def yieldTo (id : Int) (target f : SavedFilter) : SavedFilter :=
  if f.id != id && f.isDefault && f.sharesDefault target then { f with isDefault := false } else f

/-- Makes a filter the only default of its listing, view and owner. -/
def markDefault (s : FilterStore) (id : Int) : Except Failure (SavedFilter × FilterStore) :=
  match s.find? id with
  | some target =>
    modify { s with entries := mapFilters (yieldTo id target) s.entries } id
      fun f => { f with isDefault := true }
  | none => .error (notFound id)

/-- Takes the default mark from a filter. -/
def unmarkDefault (s : FilterStore) (id : Int) : Except Failure (SavedFilter × FilterStore) :=
  s.modify id fun f => { f with isDefault := false }

end FilterStore
end Winnow

/-!
## Calls on the store

A call is what one request does with the store: atomic operations, each chosen
by the results of those before it, and a result at the end.  Between two
operations other calls may change the store, so a call is kept as its steps;
`step` makes the next one and `run` makes all of them without interruption.
-/

namespace Winnow

/-- A sequence of atomic operations on the store with a result. -/
inductive Call (α : Type) where
  | done (result : Except Failure α)
  | findVisible (id user : Int) (next : Option SavedFilter → Call α)
  | listVisible (identifier : String) (user : Int) (next : List SavedFilter → Call α)
  | create (draft : FilterDraft) (next : SavedFilter → Call α)
  | update (id : Int) (changes : FilterChanges) (next : SavedFilter → Call α)
  | delete (id : Int) (next : Bool → Call α)
  | markDefault (id : Int) (next : SavedFilter → Call α)
  | unmarkDefault (id : Int) (next : SavedFilter → Call α)

namespace Call

variable {α : Type}

/-- A call that fails. -/
def fail (failure : Failure) : Call α := .done (.error failure)

/-- Goes on when a check succeeds. -/
def guard {β : Type} (check : Except Failure β) (next : β → Call α) : Call α :=
  match check with
  | .ok b => next b
  | .error failure => fail failure

/-- Goes on after a change of the store; a change that failed left the store as it was. -/
def after {β : Type} (store : FilterStore) (next : β → Call α) :
    Except Failure (β × FilterStore) → Call α × FilterStore
  | .ok (b, store) => (next b, store)
  | .error failure => (fail failure, store)

/-- The rest of a call after its next operation, and the store then. -/
def step (store : FilterStore) : Call α → Call α × FilterStore
  | .done result => (.done result, store)
  | .findVisible id user next => (next (store.findVisible? id user), store)
  | .listVisible identifier user next => (next (store.listVisible identifier user), store)
  | .create draft next =>
    let (f, store) := store.create draft
    (next f, store)
  | .update id changes next => after store next (store.update id changes)
  | .delete id next =>
    let (found, store) := store.delete id
    (next found, store)
  | .markDefault id next => after store next (store.markDefault id)
  | .unmarkDefault id next => after store next (store.unmarkDefault id)

/-- The result of a call without interruption, and the store after it. -/
def run (store : FilterStore) : Call α → Except Failure α × FilterStore
  | .done result => (result, store)
  | .findVisible id user next => run store (next (store.findVisible? id user))
  | .listVisible identifier user next => run store (next (store.listVisible identifier user))
  | .create draft next =>
    let (f, store) := store.create draft
    run store (next f)
  | .update id changes next =>
    match store.update id changes with
    | .ok (f, store) => run store (next f)
    | .error failure => (.error failure, store)
  | .delete id next =>
    let (found, store) := store.delete id
    run store (next found)
  | .markDefault id next =>
    match store.markDefault id with
    | .ok (f, store) => run store (next f)
    | .error failure => (.error failure, store)
  | .unmarkDefault id next =>
    match store.unmarkDefault id with
    | .ok (f, store) => run store (next f)
    | .error failure => (.error failure, store)

end Call
end Winnow
