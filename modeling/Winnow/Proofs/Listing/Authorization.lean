import Winnow.Proofs.Compile.Outcome
import Winnow.Proofs.Listing.Rules
import Winnow.Proofs.Sample

/-!
# Rules on filters that may not be used

A rule on a filter that the user may not use is refused before its operator, its
operand and its value are looked at (`compileLeaf_forbidden`).  So leniently such
rules can be deleted wherever they stand, strictly no tree compiles that holds
one, and a listing does not depend on what they compare with: payloads that read
alike once it is masked give the same query (`forbidden_contribute_nothing`).
Whether the user may use the filter of an operand is not looked at
(`compileLeaf_opened`): a rule may select the operand and compare its field
(`forbidden_operand_compiles`).
-/

namespace Winnow

open Compile

/-- Whether a rule is on a filter that the user may not use. -/
def FilterSet.forbids (set : FilterSet) (leaf : Rule.Leaf) : Bool :=
  (set.get? leaf.rule).any fun f => !f.isAuthorized

namespace Rule

/-- The rule without its operator and value, when it is on a filter that the user may not use. -/
def Leaf.masked (filters : FilterSet) (leaf : Leaf) : Leaf :=
  if filters.forbids leaf then { leaf with operator := "", value := .null } else leaf

/-- The tree with its rules masked. -/
def Tree.masked (filters : FilterSet) (t : Tree) : Tree := t.mapLeaves (Leaf.masked filters)

mutual

/-- The node without the rules on filters that the user may not use; a group stays, even when it
becomes empty. -/
def Node.permitted (filters : FilterSet) : Node → Option Node
  | .group condition children => some (.group condition (permittedNodes filters children))
  | .leaf leaf => if filters.forbids leaf then none else some (.leaf leaf)

/-- The nodes without the rules on filters that the user may not use. -/
def permittedNodes (filters : FilterSet) : List Node → List Node
  | [] => []
  | node :: rest => (node.permitted filters).toList ++ permittedNodes filters rest

end

/-! ## Replacing rules -/

mutual

theorem Node.mapLeaves_mapLeaves (f g : Leaf → Leaf) : (node : Node) →
    (node.mapLeaves f).mapLeaves g = node.mapLeaves (g ∘ f)
  | .leaf _ => rfl
  | .group condition children =>
    congrArg (Node.group condition) (mapNodeLeaves_mapNodeLeaves f g children)

theorem mapNodeLeaves_mapNodeLeaves (f g : Leaf → Leaf) : (nodes : List Node) →
    mapNodeLeaves g (mapNodeLeaves f nodes) = mapNodeLeaves (g ∘ f) nodes
  | [] => rfl
  | node :: rest => by
    rw [mapNodeLeaves, mapNodeLeaves, mapNodeLeaves, Node.mapLeaves_mapLeaves f g node,
      mapNodeLeaves_mapNodeLeaves f g rest]

end

theorem Tree.mapLeaves_mapLeaves (f g : Leaf → Leaf) (t : Tree) :
    (t.mapLeaves f).mapLeaves g = t.mapLeaves (g ∘ f) := by
  unfold Tree.mapLeaves
  simp only [mapNodeLeaves_mapNodeLeaves]

/-! ## Masking -/

section
variable {filters : FilterSet} {leaf : Leaf}

theorem Leaf.masked_of_permitted (h : filters.forbids leaf = false) :
    leaf.masked filters = leaf := by
  unfold Leaf.masked
  rw [h]
  rfl

/-- A masked rule shows nothing of its operator and value. -/
theorem Leaf.masked_of_forbidden (h : filters.forbids leaf = true) (operator : String)
    (value : Json) :
    { leaf with operator := operator, value := value }.masked filters = leaf.masked filters := by
  have hsame : filters.forbids { leaf with operator := operator, value := value } = true := h
  unfold Leaf.masked
  rw [hsame, h]
  rfl

theorem forbids_masked : filters.forbids (leaf.masked filters) = filters.forbids leaf := by
  unfold Leaf.masked
  split <;> rfl

theorem Leaf.masked_masked : (leaf.masked filters).masked filters = leaf.masked filters := by
  cases h : filters.forbids leaf with
  | false => rw [Leaf.masked_of_permitted (forbids_masked.trans h)]
  | true =>
    have hmasked : leaf.masked filters = { leaf with operator := "", value := .null } := if_pos h
    rw [hmasked, Leaf.masked_of_forbidden h, hmasked]

theorem masked_fillLeaf (user : Int) :
    (fillLeaf filters user leaf).masked filters =
      (fillLeaf filters user (leaf.masked filters)).masked filters := by
  cases h : filters.forbids leaf with
  | false => rw [Leaf.masked_of_permitted h]
  | true =>
    obtain ⟨value, hvalue⟩ := fillLeaf_eq filters user leaf
    obtain ⟨value', hvalue'⟩ := fillLeaf_eq filters user (leaf.masked filters)
    rw [hvalue, hvalue', Leaf.masked_of_forbidden h leaf.operator,
      Leaf.masked_of_forbidden (forbids_masked.trans h) (leaf.masked filters).operator,
      Leaf.masked_masked]

end

/-- Filling in the current user in a masked tree shows nothing of it. -/
theorem Tree.masked_fillUser (filters : FilterSet) (user : Option Int) (t : Tree) :
    (t.fillUser filters user).masked filters =
      ((t.masked filters).fillUser filters user).masked filters := by
  unfold Tree.masked Tree.fillUser
  cases user with
  | none =>
    simp only [Tree.mapLeaves_mapLeaves]
    exact congrArg (t.mapLeaves ·) (funext fun leaf => Leaf.masked_masked.symm)
  | some user =>
    simp only [Tree.mapLeaves_mapLeaves]
    exact congrArg (t.mapLeaves ·) (funext fun leaf => masked_fillLeaf user)

end Rule

/-! ## Rules -/

namespace Compile

section
variable {filters : FilterSet}

/-- A rule on a filter that the user may not use is refused, whatever it compares with. -/
theorem compileLeaf_forbidden {leaf : Rule.Leaf} (h : filters.forbids leaf = true)
    (env : Environment) (connective : Connective) (q : Query) :
    compileLeaf filters env leaf connective q = .error (.unknownFilter leaf.rule) := by
  have hresolve : resolve filters leaf = .error (.unknownFilter leaf.rule) := by
    obtain ⟨f, hf, hauthorized⟩ := (Option.any_eq_true ..).mp h
    unfold resolve
    have hnone : (some f).filter Filter.isAuthorized = none := by
      rw [Option.filter_some, if_neg (by simpa using hauthorized)]
    rw [hf, hnone]
    rfl
  unfold compileLeaf
  rw [hresolve]
  rfl

theorem compileLeaf_masked (env : Environment) (leaf : Rule.Leaf) (connective : Connective)
    (q : Query) :
    compileLeaf filters env (leaf.masked filters) connective q =
      compileLeaf filters env leaf connective q := by
  cases h : filters.forbids leaf with
  | false => rw [Rule.Leaf.masked_of_permitted h]
  | true =>
    rw [compileLeaf_forbidden h, compileLeaf_forbidden (Rule.forbids_masked.trans h)]
    unfold Rule.Leaf.masked
    rw [if_pos h]

/-! ## Trees -/

section
variable (env : Environment)

mutual

/-- One step: rules that compile alike can be exchanged. -/
theorem compileNode_mapLeaves {f : Rule.Leaf → Rule.Leaf}
    (hf : ∀ leaf connective q,
      compileLeaf filters env (f leaf) connective q = compileLeaf filters env leaf connective q)
    (connective : Connective) (q : Query) : (node : Rule.Node) →
      compileNode filters env connective q (node.mapLeaves f) =
        compileNode filters env connective q node
  | .leaf leaf => by
    unfold Rule.Node.mapLeaves compileNode
    rw [hf]
  | .group condition children => by
    unfold Rule.Node.mapLeaves compileNode
    rw [compileNodes_mapLeaves hf condition q.group children]

/-- A run: so they can in trees. -/
theorem compileNodes_mapLeaves {f : Rule.Leaf → Rule.Leaf}
    (hf : ∀ leaf connective q,
      compileLeaf filters env (f leaf) connective q = compileLeaf filters env leaf connective q)
    (connective : Connective) (q : Query) : (nodes : List Rule.Node) →
      compileNodes filters env connective q (Rule.mapNodeLeaves f nodes) =
        compileNodes filters env connective q nodes
  | [] => rfl
  | node :: rest => by
    unfold Rule.mapNodeLeaves compileNodes
    rw [compileNode_mapLeaves hf connective q node]
    cases compileNode filters env connective q node with
    | error error => rfl
    | ok next => exact compileNodes_mapLeaves hf connective next rest

end

theorem compileTree_masked (tree : Rule.Tree) (q : Query) :
    compileTree filters env (tree.masked filters) q = compileTree filters env tree q :=
  compileNodes_mapLeaves env (compileLeaf_masked env) tree.condition q tree.children

variable {env}

mutual

/-- One step: what is left of a node without the rules on filters that may not be used compiles as
the node does, when such rules are skipped. -/
theorem compileNode_permitted (hlenient : env.context.validation = .lenient)
    (connective : Connective) (q : Query) : (node : Rule.Node) →
      compileNodes filters env connective q (node.permitted filters).toList =
        compileNode filters env connective q node
  | .leaf leaf => by
    unfold Rule.Node.permitted
    cases h : filters.forbids leaf with
    | true =>
      have hskips : compileNode filters env connective q (.leaf leaf) = .ok q := by
        refine skips_leaf hlenient ?_ rfl
        rw [compileLeaf_forbidden h]
        rfl
      rw [hskips]
      rfl
    | false => exact compileNodes_single ..
  | .group condition children => by
    rw [Rule.Node.permitted, Option.toList_some, compileNodes_single]
    unfold compileNode
    rw [compileNodes_permitted hlenient condition q.group children]

/-- A run: so they do in trees. -/
theorem compileNodes_permitted (hlenient : env.context.validation = .lenient)
    (connective : Connective) (q : Query) : (nodes : List Rule.Node) →
      compileNodes filters env connective q (Rule.permittedNodes filters nodes) =
        compileNodes filters env connective q nodes
  | [] => rfl
  | node :: rest => by
    rw [Rule.permittedNodes, compileNodes_append,
      compileNode_permitted hlenient connective q node, compileNodes]
    cases compileNode filters env connective q node with
    | error error => rfl
    | ok next => exact compileNodes_permitted hlenient connective next rest

end

end

/-- Strictly no tree compiles that holds a rule on a filter that may not be used. -/
theorem compileNodes_of_forbidden {env : Environment} (hstrict : env.context.isStrict = true)
    (connective : Connective) (q : Query) {nodes : List Rule.Node} {leaf : Rule.Leaf}
    (hleaf : leaf ∈ Rule.nodeLeaves nodes) (h : filters.forbids leaf = true) :
    (compileNodes filters env connective q nodes).isOk = false := by
  rw [← Bool.not_eq_true, compileNodes_isOk_iff filters env hstrict]
  intro hall
  rw [← Rule.placedNodes_leaves connective, List.mem_map] at hleaf
  obtain ⟨placed, hplaced, rfl⟩ := hleaf
  have hgroup := hall placed hplaced
  rw [← map_isOk (q.absorb placed.1), ← compileLeaf_eq, compileLeaf_forbidden h] at hgroup
  cases hgroup

end

end Compile

/-! ## Listings -/

namespace Listing

section
variable {filters : FilterSet} {registry : Registry} {context : CompileContext}

theorem leafPath?_masked (e : Entity) (leaf : Rule.Leaf) :
    leafPath? filters registry e (leaf.masked filters) = leafPath? filters registry e leaf := by
  unfold Rule.Leaf.masked
  split <;> rfl

theorem addTree_masked (tree : Rule.Tree) (q : Query) :
    addTree filters registry context (tree.masked filters) q =
      addTree filters registry context tree q := by
  have hleaves : (tree.masked filters).leaves = tree.leaves.map (Rule.Leaf.masked filters) :=
    Rule.nodeLeaves_mapNodeLeaves _ tree.children
  have hneeds : needsJoins filters registry q.entity (tree.masked filters) =
      needsJoins filters registry q.entity tree := by
    unfold needsJoins
    rw [hleaves, List.any_map]
    exact congrArg tree.leaves.any (funext fun leaf => by
      rw [Function.comp_apply, leafPath?_masked])
  have htargets : joinTargets filters registry q.entity (tree.masked filters) =
      joinTargets filters registry q.entity tree := by
    unfold joinTargets
    rw [hleaves, List.filterMap_map]
    have hpaths : leafPath? filters registry q.entity ∘ Rule.Leaf.masked filters =
        leafPath? filters registry q.entity := funext fun leaf => leafPath?_masked q.entity leaf
    rw [hpaths]
  unfold addTree
  simp only [hneeds, htargets, compileTree_masked]

/-- Payloads that read alike once their rules are masked refine a query alike. -/
theorem addRules_masked {payload payload' : Json} (q : Query)
    (h : (Rule.Tree.read? payload).map (Rule.Tree.masked filters) =
      (Rule.Tree.read? payload').map (Rule.Tree.masked filters)) :
    addRules filters registry context payload q = addRules filters registry context payload' q := by
  have hfilled : ∀ tree : Rule.Tree,
      addTree filters registry context (tree.fillUser filters context.user) q =
        addTree filters registry context ((tree.masked filters).fillUser filters context.user) q := by
    intro tree
    rw [← addTree_masked, Rule.Tree.masked_fillUser, addTree_masked]
  unfold addRules
  cases hread : Rule.Tree.read? payload with
  | none =>
    cases hread' : Rule.Tree.read? payload' with
    | none => rfl
    | some tree' =>
      rw [hread, hread'] at h
      cases h
  | some tree =>
    cases hread' : Rule.Tree.read? payload' with
    | none =>
      rw [hread, hread'] at h
      cases h
    | some tree' =>
      rw [hread, hread'] at h
      simp only
      rw [hfilled tree, hfilled tree', Option.some.inj h]

end

/-- Rules on filters that the user may not use contribute nothing.  Such a rule is refused, whatever
its operator, operand and value.  Leniently a tree compiles as it does without such rules, custom
predicates and all, and strictly no tree compiles that holds one.  The query of a listing does not
depend on the operators and values of such rules.  For this it is the filter of the rule that counts:
whether the user may use the filter of an operand is not looked at. -/
theorem forbidden_contribute_nothing (filters : FilterSet) (env : Environment) :
    (∀ leaf connective q, filters.forbids leaf = true →
      compileLeaf filters env leaf connective q = .error (.unknownFilter leaf.rule)) ∧
    (env.context.validation = .lenient → ∀ connective q nodes,
      compileNodes filters env connective q nodes =
        compileNodes filters env connective q (Rule.permittedNodes filters nodes)) ∧
    (env.context.validation = .strict → ∀ connective q nodes,
      (∃ leaf ∈ Rule.nodeLeaves nodes, filters.forbids leaf = true) →
        (compileNodes filters env connective q nodes).isOk = false) ∧
    (∀ payload payload' q,
      (Rule.Tree.read? payload).map (Rule.Tree.masked filters) =
          (Rule.Tree.read? payload').map (Rule.Tree.masked filters) →
        addRules filters env.registry env.context payload q =
          addRules filters env.registry env.context payload' q) ∧
    ∀ leaf connective q,
      compileLeaf filters.opened env leaf connective q =
        compileLeaf filters env leaf connective q := by
  refine ⟨fun leaf connective q h => compileLeaf_forbidden h env connective q,
    fun hlenient connective q nodes => (compileNodes_permitted hlenient connective q nodes).symm,
    fun hstrict connective q nodes hforbidden => ?_, fun payload payload' q => addRules_masked q,
    compileLeaf_opened filters env⟩
  obtain ⟨leaf, hleaf, h⟩ := hforbidden
  refine compileNodes_of_forbidden ?_ connective q hleaf h
  unfold CompileContext.isStrict
  rw [hstrict]
  rfl

/-- The filters of the sample, with that on companies closed to the user. -/
def closedCompany : FilterSet :=
  ⟨[Filter.plain .text "name" "Name",
    { Filter.plain .text "company" "Company" with
      column := some "company.name", authorization := some false }]⟩

theorem forbidden_contribute_nothing_sample :
    let lenient : Environment := ⟨Sample.registry, Sample.context, none⟩
    let strict : Environment := ⟨Sample.registry, Sample.context.strict, none⟩
    let q := Query.ofEntity Sample.contact
    let leaf : Rule.Leaf := ⟨"company", "begins_with", none, .string "glo"⟩
    closedCompany.forbids leaf = true ∧ leaf ∈ Sample.tree.leaves ∧
      compileLeaf closedCompany lenient leaf .or q = .error (.unknownFilter "company") ∧
      compileNodes closedCompany lenient .and q Sample.tree.children =
        compileNodes closedCompany lenient .and q
          [.group .or [], Sample.rule "name" "not_equal" (.string "Cid"),
            Sample.rule "missing" "equal" .null] ∧
      (compileNodes closedCompany strict .and q Sample.tree.children).isOk = false ∧
      addRules closedCompany Sample.registry Sample.context Sample.ofCompany.toJson q =
        addRules closedCompany Sample.registry Sample.context Sample.missingCompany.toJson q := by
  intro lenient strict q leaf
  have hforbids : closedCompany.forbids leaf = true := by decide +kernel
  have hleaf : leaf ∈ Sample.tree.leaves := .tail _ (.head _)
  have hreads : (Rule.Tree.read? Sample.ofCompany.toJson).map (Rule.Tree.masked closedCompany) =
      (Rule.Tree.read? Sample.missingCompany.toJson).map (Rule.Tree.masked closedCompany) := by
    have hof : Rule.Tree.read? Sample.ofCompany.toJson = some Sample.ofCompany := rfl
    have hmissing : Rule.Tree.read? Sample.missingCompany.toJson = some Sample.missingCompany := rfl
    rw [hof, hmissing]
    rfl
  obtain ⟨hrefused, hdeleted, -, hmasked, -⟩ := forbidden_contribute_nothing closedCompany lenient
  obtain ⟨-, -, hstrict, -, -⟩ := forbidden_contribute_nothing closedCompany strict
  exact ⟨hforbids, hleaf, hrefused leaf .or q hforbids, hdeleted rfl .and q Sample.tree.children,
    hstrict rfl .and q Sample.tree.children ⟨leaf, hleaf, hforbids⟩,
    hmasked Sample.ofCompany.toJson Sample.missingCompany.toJson q hreads⟩

/-- A filter with an operand for the company of a contact, whose own filter may not be used. -/
def closedOperand : FilterSet :=
  ⟨[{ Filter.plain .operand "value" "Value" with
      operands := [⟨"company_id", "Company",
        { Filter.plain .number "company_id" "Company" with authorization := some false }⟩] }]⟩

/-- A rule that selects the operand compares its field all the same: also strictly it compiles, and
which contacts are listed depends on its value. -/
theorem forbidden_operand_compiles :
    let leaf (value : Int) : Rule.Leaf := ⟨"value", "greater", some "company_id", .integer value⟩
    let listed (value : Int) := addRules closedOperand Sample.registry Sample.context
      (Rule.Tree.toJson ⟨.and, [.leaf (leaf value)], by simp⟩) (Query.ofEntity Sample.contact)
    (closedOperand.filters.all fun f => f.operands.all fun operand =>
        !operand.filter.isAuthorized) = true ∧
      (compileLeaf closedOperand ⟨Sample.registry, Sample.context.strict, none⟩ (leaf 0) .and
        (Query.ofEntity Sample.contact)).isOk = true ∧
      (listed 0).toOption.map (Engine.ids Sample.dataset) = some [1, 3] ∧
      (listed 5).toOption.map (Engine.ids Sample.dataset) = some [] := by
  decide +kernel

end Listing
end Winnow
