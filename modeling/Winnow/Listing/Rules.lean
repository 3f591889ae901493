import Winnow.Compile.Tree
import Winnow.Rule.Wire
import Winnow.Rule.CurrentUser

/-!
# Rules of a listing

The rules of a listing are put into its query as one group, after the current
user is filled in.  A payload that is no rule tree means no rules.  When some
rule reads a field through relations, the to-one paths are joined to the query
and the group reads the joined tables.
-/

namespace Winnow.Listing

open Winnow.Compile

/-- The query with the group that some rules were compiled into. -/
def putRules (q group : Query) : Query := (q.inheritRemoved group).addGroup .and group

/-- Compiles a tree into one group of a query. -/
def addTree (filters : FilterSet) (registry : Registry) (context : CompileContext)
    (tree : Rule.Tree) (q : Query) : Except CompileError Query := do
  if needsJoins filters registry q.entity tree then
    let targets := joinTargets filters registry q.entity tree
    let joined ← joinAll registry targets q
    let group ← compileTree filters ⟨registry, context, some targets⟩ tree q.group
    .ok (putRules joined group)
  else
    let group ← compileTree filters ⟨registry, context, none⟩ tree q.group
    .ok (putRules q group)

/-- Compiles a payload into one group of a query. -/
def addRules (filters : FilterSet) (registry : Registry) (context : CompileContext)
    (payload : Json) (q : Query) : Except CompileError Query :=
  match Rule.Tree.read? payload with
  | some tree => addTree filters registry context (tree.fillUser filters context.user) q
  | none => .ok q

end Winnow.Listing
