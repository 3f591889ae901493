import Winnow.Query.Builder
import Winnow.Rule.Tree

/-!
# What a compile depends on

The context of a compile is captured once per request: the reference instant,
the timezone of local days, the acting user, and what happens to rules that
cannot be used.
-/

namespace Winnow

/-- What happens to a rule that cannot be used. -/
inductive Validation where
  /-- It is left out. -/
  | lenient
  /-- Compiling fails. -/
  | strict
  deriving DecidableEq, Repr, Inhabited

/-- The context of a compile. -/
structure CompileContext where
  now : Instant
  timezone : Offset := Offset.utc
  user : Option Int := none
  validation : Validation := .lenient
  deriving DecidableEq, Repr

/-- A to-one relation path that was joined, and the alias of its last table. -/
structure JoinTarget where
  relations : List String
  tableAlias : String
  deriving DecidableEq, Repr

/-- What the compile of one leaf can look at besides the query. -/
structure Environment where
  registry : Registry
  context : CompileContext
  /-- Joined relation paths, when rules are compiled with joins. -/
  joins : Option (Keyed JoinTarget) := none

namespace CompileContext

/-- The context in which rules that cannot be used are errors. -/
def strict (c : CompileContext) : CompileContext := { c with validation := .strict }

/-- Whether rules that cannot be used are errors. -/
def isStrict (c : CompileContext) : Bool := c.validation == .strict

/-- Today's date in the timezone. -/
def localToday (c : CompileContext) : Date := c.timezone.dateAt c.now

end CompileContext
end Winnow
