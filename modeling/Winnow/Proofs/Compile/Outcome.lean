import Winnow.Proofs.Compile.Collected
import Winnow.Proofs.Compile.Targets
import Winnow.Proofs.Compile.Validation

/-!
# What compiling comes to

Whether a rule can be used, and why not, does not depend on whether its path is
joined: the path is walked and the value is read for the type at its end either
way (`leafGroup_outcome`), unless a custom predicate looks at the joins.  So a
tree compiles with its to-one paths joined just when it compiles without, and
fails alike otherwise (`compileTree_outcome`); joining the paths itself never
fails (`joinAll_ok`).  A tree compiles strictly just when all of its rules can
be used (`compileNodes_isOk_iff`).
-/

namespace Winnow

/-- Whether a custom predicate does the same whatever paths are joined. -/
def CustomPredicate.IgnoresJoins (custom : CustomPredicate) : Prop :=
  ∀ (env : Environment) joins call q,
    custom.apply { env with joins := joins } call q = custom.apply env call q

namespace Compile

/-- What a step comes to: nothing more than that it succeeds, or the error that it fails with. -/
def outcome {ε α : Type} (x : Except ε α) : Except ε Unit := x.map fun _ => ()

@[simp] theorem outcome_map {ε α β : Type} (f : α → β) (x : Except ε α) :
    outcome (x.map f) = outcome x := by
  cases x <;> rfl

theorem map_isOk {ε α β : Type} (f : α → β) (x : Except ε α) : (x.map f).isOk = x.isOk := by
  cases x <;> rfl

theorem isOk_eq_of_outcome {ε α β : Type} {x : Except ε α} {y : Except ε β}
    (h : outcome x = outcome y) : x.isOk = y.isOk := by
  cases x <;> cases y <;> first | rfl | cases h

theorem outcome_eq_of_parallel {α β : Type} {r : α → β → Prop}
    {x : Except CompileError (Option α)} {y : Except CompileError (Option β)}
    (h : Parallel r x y) : outcome x = outcome y := by
  cases h <;> rfl

/-! ## Rules -/

/-- A rule without custom predicate comes to what it says comes to, which knows of no joins. -/
theorem resolvedPredicate_outcome {env : Environment} {q : Query} {r : Resolved} (value : Json)
    (missing : Missing)
    (hserved : r.filter.kind ≠ .hasMany → r.filter.countable = none → r.filter.kind ≠ .tags →
      (env.registry.splitPath q.entity r.field).isRelated = true →
        Served Dataset.empty env q missing (fun _ _ => False)
          (env.registry.splitPath q.entity r.field)) :
    outcome (resolvedPredicate env r value q) =
      outcome (Condition.ofResolved Dataset.empty env.registry env.context q.entity r value) :=
  outcome_eq_of_parallel (resolvedPredicate_means Dataset.empty env q missing _
    (fun _ _ h => h.elim) r value hserved)

section
variable {filters : FilterSet} {registry : Registry} {context : CompileContext} {e : Entity}
  {tree : Rule.Tree} (hcustom : filters.EachCustom CustomPredicate.IgnoresJoins)

include hcustom

/-- A rule of a tree comes to the same with the joins of the tree and without joins. -/
theorem leafGroup_outcome {leaf : Rule.Leaf} (hleaf : leaf ∈ tree.leaves)
    (connective : Connective) :
    outcome (leafGroup filters ⟨registry, context, some (joinTargets filters registry e tree)⟩ leaf
        connective (Query.ofEntity e)) =
      outcome (leafGroup filters ⟨registry, context, none⟩ leaf connective (Query.ofEntity e)) := by
  unfold leafGroup
  simp only [bind, Except.bind]
  cases hr : resolve filters leaf with
  | error error => rfl
  | ok r =>
    simp only
    cases hc : r.custom? with
    | some custom =>
      exact congrArg outcome (EachCustom.of_resolve hcustom hr hc ⟨registry, context, none⟩
        (some (joinTargets filters registry e tree)) _ _)
    | none =>
      have hjoined := @resolvedPredicate_outcome
        ⟨registry, context, some (joinTargets filters registry e tree)⟩ (Query.ofEntity e) r
        leaf.value .null fun hmany hcountable htags hrelated =>
          served_of_joinTargets Dataset.empty context hleaf
            (leafPath?_eq_some hr hc hmany hcountable htags hrelated) fun _ _ _ h => h.elim
      have hunjoined := @resolvedPredicate_outcome ⟨registry, context, none⟩ (Query.ofEntity e) r
        leaf.value .unmet fun _ _ _ _ => served_of_no_joins Dataset.empty context _
      rw [outcome_map, outcome_map]
      exact hjoined.trans hunjoined.symm

end

/-! ## Trees -/

/-- A rule that cannot be used is skipped by lenient rules. -/
theorem skips_leaf {filters : FilterSet} {env : Environment}
    (hlenient : env.context.validation = .lenient) {leaf : Rule.Leaf} {connective : Connective}
    {q start : Query} (h : (compileLeaf filters env leaf connective q).isOk = false)
    (hgroup : start.group = q.group) :
    compileNode filters env connective start (.leaf leaf) = .ok start := by
  rw [← compileLeaf_isOk_congr filters env leaf connective hgroup] at h
  unfold compileNode
  cases hleaf : compileLeaf filters env leaf connective start with
  | ok compiled =>
    rw [hleaf] at h
    cases h
  | error error =>
    have hstrict : env.context.isStrict = false := by
      unfold CompileContext.isStrict
      rw [hlenient]
      rfl
    simp only [admit?, hstrict, Bool.false_eq_true, if_false]

theorem compileNodes_single (filters : FilterSet) (env : Environment) (connective : Connective)
    (q : Query) (node : Rule.Node) :
    compileNodes filters env connective q [node] = compileNode filters env connective q node := by
  unfold compileNodes
  cases compileNode filters env connective q node <;> rfl

section
variable (filters : FilterSet) (env : Environment)

mutual

/-- One step: strictly a node compiles just when all of its rules can be used. -/
theorem compileNode_isOk_iff (hstrict : env.context.isStrict = true) (connective : Connective)
    (q : Query) : (node : Rule.Node) → ((compileNode filters env connective q node).isOk = true ↔
      ∀ placed ∈ node.placed connective,
        (leafGroup filters env placed.2 placed.1 q.group).isOk = true)
  | .leaf leaf => by
    unfold compileNode
    rw [compileLeaf_eq]
    simp only [Rule.Node.placed, List.mem_singleton, forall_eq]
    cases leafGroup filters env leaf connective q.group with
    | error error => simp only [Except.map, admit?, hstrict, if_true]
    | ok g => exact Iff.rfl
  | .group condition children => by
    have h := compileNodes_isOk_iff hstrict condition q.group children
    rw [Query.group_group] at h
    unfold compileNode
    rw [Rule.Node.placed, ← h]
    cases compileNodes filters env condition q.group children <;> exact Iff.rfl

/-- A run: every node starts on a query of the same table. -/
theorem compileNodes_isOk_iff (hstrict : env.context.isStrict = true) (connective : Connective)
    (q : Query) : (nodes : List Rule.Node) →
      ((compileNodes filters env connective q nodes).isOk = true ↔
        ∀ placed ∈ Rule.placedNodes connective nodes,
          (leafGroup filters env placed.2 placed.1 q.group).isOk = true)
  | [] => iff_of_true rfl fun _ h => absurd h List.not_mem_nil
  | node :: rest => by
    have hnode := compileNode_isOk_iff hstrict connective q node
    simp only [Rule.placedNodes, List.forall_mem_append, ← hnode]
    unfold compileNodes
    cases h : compileNode filters env connective q node with
    | error error => exact iff_of_false Bool.false_ne_true fun h => Bool.false_ne_true h.1
    | ok next =>
      have hrest := compileNodes_isOk_iff hstrict connective next rest
      rw [compileNode_group h] at hrest
      exact hrest.trans ⟨fun h => ⟨rfl, h⟩, And.right⟩

end

variable {filters env} {env' : Environment}

mutual

/-- One step: environments in which the rules of a node come to the same compile it alike. -/
theorem compileNode_outcome (hcontext : env.context = env'.context) {connective : Connective}
    {q r : Query} (hgroup : q.group = r.group) : (node : Rule.Node) →
    (∀ placed ∈ node.placed connective,
      outcome (leafGroup filters env placed.2 placed.1 q.group) =
        outcome (leafGroup filters env' placed.2 placed.1 q.group)) →
      outcome (compileNode filters env connective q node) =
        outcome (compileNode filters env' connective r node)
  | .leaf leaf, h => by
    have h := h (connective, leaf) (List.mem_singleton.mpr rfl)
    unfold compileNode
    rw [compileLeaf_eq, compileLeaf_eq, ← hgroup, hcontext]
    revert h
    simp only
    generalize leafGroup filters env leaf connective q.group = x
    generalize leafGroup filters env' leaf connective q.group = y
    intro h
    cases x <;> cases y <;> cases h
    · simp only [Except.map, admit?]
      split <;> rfl
    · rfl
  | .group condition children, h => by
    have h := compileNodes_outcome (q := q.group) (r := r.group) hcontext
      (by rw [Query.group_group, Query.group_group, hgroup]) children
      (by rw [Query.group_group]; exact h)
    unfold compileNode
    revert h
    generalize compileNodes filters env condition q.group children = x
    generalize compileNodes filters env' condition r.group children = y
    intro h
    cases x <;> cases y <;> cases h <;> rfl

/-- A run: the queries that the nodes start on stay queries of one table. -/
theorem compileNodes_outcome (hcontext : env.context = env'.context) {connective : Connective}
    {q r : Query} (hgroup : q.group = r.group) : (nodes : List Rule.Node) →
    (∀ placed ∈ Rule.placedNodes connective nodes,
      outcome (leafGroup filters env placed.2 placed.1 q.group) =
        outcome (leafGroup filters env' placed.2 placed.1 q.group)) →
      outcome (compileNodes filters env connective q nodes) =
        outcome (compileNodes filters env' connective r nodes)
  | [], _ => rfl
  | node :: rest, h => by
    have hnode := compileNode_outcome hcontext hgroup node fun placed hplaced =>
      h placed (List.mem_append_left _ hplaced)
    unfold compileNodes
    cases hq : compileNode filters env connective q node with
    | error error =>
      cases hr : compileNode filters env' connective r node with
      | error error' =>
        rw [hq, hr] at hnode
        cases hnode
        rfl
      | ok next' =>
        rw [hq, hr] at hnode
        cases hnode
    | ok next =>
      cases hr : compileNode filters env' connective r node with
      | error error =>
        rw [hq, hr] at hnode
        cases hnode
      | ok next' =>
        have hnext := compileNode_group hq
        have hnext' := compileNode_group hr
        refine compileNodes_outcome hcontext ((hnext.trans hgroup).trans hnext'.symm) rest
          fun placed hplaced => ?_
        rw [hnext]
        exact h placed (List.mem_append_right _ hplaced)

end

end

/-- A tree comes to the same with its to-one paths joined and without joins. -/
theorem compileTree_outcome {filters : FilterSet}
    (hcustom : filters.EachCustom CustomPredicate.IgnoresJoins) (registry : Registry)
    (context : CompileContext) (e : Entity) (tree : Rule.Tree) :
    outcome (compileTree filters ⟨registry, context, some (joinTargets filters registry e tree)⟩ tree
        (Query.ofEntity e)) =
      outcome (compileTree filters ⟨registry, context, none⟩ tree (Query.ofEntity e)) := by
  have hcontext : (⟨registry, context, some (joinTargets filters registry e tree)⟩ :
      Environment).context = (⟨registry, context, none⟩ : Environment).context := rfl
  refine compileNodes_outcome hcontext rfl tree.children fun placed hplaced => ?_
  refine leafGroup_outcome hcustom ?_ placed.1
  rw [← tree.placed_leaves]
  exact List.mem_map_of_mem hplaced

/-! ## Joins -/

/-- Joining the paths of a tree never fails. -/
theorem joinAll_ok (filters : FilterSet) (registry : Registry) (tree : Rule.Tree) (q : Query) :
    ∃ joined, joinAll registry (joinTargets filters registry q.entity tree) q = .ok joined := by
  unfold joinAll
  refine @foldlM_ok _ _ _ _ (fun r => r.entity = q.entity) _ _ (fun target htarget r hr => ?_) rfl
  have htoOne : registry.isToOnePath r.entity target.relations = true := by
    obtain ⟨entry, hentry, rfl⟩ := List.mem_map.mp htarget
    obtain ⟨leaf, -, path, -, htoOne, -, htarget⟩ := mem_joinTargets hentry
    rw [htarget, hr]
    exact htoOne
  obtain ⟨⟨tableAlias, joined⟩, hpath⟩ := ok_of_isOk (Query.joinPath_isOk_iff.mpr htoOne)
  refine ⟨joined, ?_, (Query.joinFrom_keeps Query.entity (fun _ _ => rfl) hpath).trans hr⟩
  rw [hpath]
  rfl

end Compile
end Winnow
