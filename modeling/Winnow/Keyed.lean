/-!
# Entries by key

An association list in increasing order of its keys, each key once.  Texts are
ordered by code point.  `put` replaces or inserts an entry and keeps the
order, `ofPairs` reads a list of pairs in which the last of equal keys wins.
-/

namespace Winnow

/-- Entries in increasing order of their keys. -/
abbrev Keyed (α : Type) := List (String × α)

namespace Keyed

/-- The value under a key. -/
def get? {α : Type} (entries : Keyed α) (key : String) : Option α :=
  match entries with
  | [] => none
  | (k, v) :: rest => if k = key then some v else get? rest key

/-- Whether the key has a value. -/
def has {α : Type} (entries : Keyed α) (key : String) : Bool := (entries.get? key).isSome

/-- The entries with one value replaced or inserted. -/
def put {α : Type} (entries : Keyed α) (key : String) (value : α) : Keyed α :=
  match entries with
  | [] => [(key, value)]
  | (k, v) :: rest =>
    if k = key then (key, value) :: rest
    else if key < k then (key, value) :: (k, v) :: rest
    else (k, v) :: put rest key value

/-- The entries without one key. -/
def erase {α : Type} (entries : Keyed α) (key : String) : Keyed α :=
  entries.filter fun entry => !(entry.1 == key)

/-- Entries from pairs; the last of equal keys wins. -/
def ofPairs {α : Type} (pairs : List (String × α)) : Keyed α :=
  pairs.foldl (fun entries pair => entries.put pair.1 pair.2) []

/-- The keys in order. -/
def keys {α : Type} (entries : Keyed α) : List String := entries.map Prod.fst

/-- The values in the order of their keys. -/
def values {α : Type} (entries : Keyed α) : List α := entries.map Prod.snd

end Keyed
end Winnow
