import Winnow.Compile.Leaf

/-!
# Compiling rule trees

Rules are compiled in order, each joined to the others by the condition of its
group, and each inner group becomes one clause.  What happens to a rule that
cannot be used depends on the context: it fails the compile or is left out.
-/

namespace Winnow.Compile

/-- The query after a rule: left as it was when the rule cannot be used and need not be. -/
def admit? (context : CompileContext) (q : Query) :
    Except CompileError Query → Except CompileError Query
  | .ok compiled => .ok compiled
  | .error error => if context.isStrict then .error error else .ok q

mutual

/-- Compiles a node into at most one clause. -/
def compileNode (filters : FilterSet) (env : Environment) (connective : Connective) (q : Query) :
    Rule.Node → Except CompileError Query
  | .group condition children =>
    match compileNodes filters env condition q.group children with
    | .ok group => .ok ((q.inheritRemoved group).addGroup connective group)
    | .error error => .error error
  | .leaf leaf => admit? env.context q (compileLeaf filters env leaf connective q)

/-- Compiles nodes one after another, joined by a connective. -/
def compileNodes (filters : FilterSet) (env : Environment) (connective : Connective) (q : Query) :
    List Rule.Node → Except CompileError Query
  | [] => .ok q
  | node :: rest =>
    match compileNode filters env connective q node with
    | .ok q => compileNodes filters env connective q rest
    | .error error => .error error

end

/-- Compiles the children of the root group into a query. -/
def compileTree (filters : FilterSet) (env : Environment) (tree : Rule.Tree) (q : Query) :
    Except CompileError Query :=
  compileNodes filters env tree.condition q tree.children

/-! ## Joins -/

/-- The path of the field that a rule compiles against, when it goes through relations. -/
def leafPath? (filters : FilterSet) (registry : Registry) (entity : Entity) (leaf : Rule.Leaf) :
    Option FieldPath := do
  let filter ← filters.get? leaf.rule
  if filter.custom.isSome || filter.countable.isSome || filter.kind == .hasMany ||
      filter.kind == .tags then none
  let field ←
    if filter.kind.usesOperands then
      (← filter.operand? (← leaf.operand)) |>.value |> some
    else some filter.field
  let path := registry.splitPath entity field
  if path.isRelated then some path else none

/-- Whether some rule reads a field through a relation. -/
def needsJoins (filters : FilterSet) (registry : Registry) (entity : Entity) (tree : Rule.Tree) :
    Bool :=
  tree.leaves.any fun leaf => (leafPath? filters registry entity leaf).isSome

/-- The to-one relation paths of the rules of a tree, with the aliases they are joined under. -/
def joinTargets (filters : FilterSet) (registry : Registry) (entity : Entity)
    (tree : Rule.Tree) : Keyed JoinTarget :=
  let paths := (tree.leaves.filterMap (leafPath? filters registry entity)).filter fun path =>
    registry.isToOnePath entity path.relations
  Keyed.ofPairs (paths.map fun path =>
    (path.relationPath, ⟨path.relations, Text.join "_" path.relations⟩))

/-- Joins every target on the outermost query. -/
def joinAll (registry : Registry) (targets : Keyed JoinTarget) (q : Query) :
    Except CompileError Query :=
  targets.values.foldlM (fun q target => (q.joinPath registry target.relations).map Prod.snd) q

end Winnow.Compile
