import Winnow.SavedFilter.Store

/-!
# Sources of rules

A listing takes its rules from the request, from a saved filter that the
request names, or from the default filter of the view.  A saved filter that
the user cannot see, or that belongs to another listing, means no rules.
-/

namespace Winnow

/-- Where the rules of a listing come from. -/
structure RuleSource where
  rules : Option Json := none
  /-- The saved filter to apply. -/
  filter : Option Int := none
  /-- Whether the default filter applies when nothing else is asked for. -/
  withDefault : Bool := false

namespace RuleSource

/-- Reads the source from the fields of a record. -/
def ofRecord? (r : Wire.Record) : Option RuleSource := do
  some {
    rules := ← r.optional "rules" Wire.any
    filter := ← r.optional "filter_id" Wire.int64
    withDefault := ← r.withDefault "with_default" false Wire.bool }

/-- Reads the wire form. -/
def fromWire : Wire.Reader RuleSource := fun j => do
  ofRecord? (← Wire.Record.ofJson? ["rules", "filter_id", "with_default"] j)

/-- The rules of the request itself; null means none. -/
def inline? (s : RuleSource) : Option Json := s.rules.filter fun rules => !rules.isNull

/-- The rules that apply to a view of a listing for a user. -/
def resolve (s : RuleSource) (store : FilterStore) (identifier view : String) (user : Int) :
    Option Json :=
  match s.inline?, s.filter with
  | some rules, _ => some rules
  | none, some id =>
    ((store.findVisible? id user).filter fun f => f.identifier == identifier).map SavedFilter.rules
  | none, none =>
    if s.withDefault then (store.findDefault? identifier view user).map SavedFilter.rules else none

end RuleSource
end Winnow
