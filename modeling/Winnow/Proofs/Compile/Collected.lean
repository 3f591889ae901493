import Winnow.Proofs.Compile.Shapes
import Winnow.Proofs.Query.Scopes

/-!
# What rules collect

A tree is compiled by absorbing the group of every rule that can be used, at any
depth (`compileNodes_collects`, `compileNodes_keeps`).  The group of a rule is
the query that its custom predicate left, or one predicate whose questions
remove no scope (`leafGroup_cases`).
-/

namespace Winnow

/-! ## Rules in their groups -/

namespace Rule

mutual

/-- The rules of a node, each with the connective of the group it stands in, depth first. -/
def Node.placed (connective : Connective) : Node → List (Connective × Leaf)
  | .group condition children => placedNodes condition children
  | .leaf leaf => [(connective, leaf)]

/-- The rules of several nodes, each with the connective of its group. -/
def placedNodes (connective : Connective) : List Node → List (Connective × Leaf)
  | [] => []
  | node :: rest => node.placed connective ++ placedNodes connective rest

end

/-- The rules of a tree, each with the connective of its group. -/
def Tree.placed (t : Tree) : List (Connective × Leaf) := placedNodes t.condition t.children

mutual

theorem Node.placed_leaves (connective : Connective) : (node : Node) →
    (node.placed connective).map Prod.snd = node.leaves
  | .leaf _ => rfl
  | .group condition children => placedNodes_leaves condition children

theorem placedNodes_leaves (connective : Connective) : (nodes : List Node) →
    (placedNodes connective nodes).map Prod.snd = nodeLeaves nodes
  | [] => rfl
  | node :: rest => by
    rw [placedNodes, nodeLeaves, List.map_append, Node.placed_leaves connective node,
      placedNodes_leaves connective rest]

end

/-- Every rule of a tree is in one place. -/
theorem Tree.placed_leaves (t : Tree) : t.placed.map Prod.snd = t.leaves :=
  placedNodes_leaves t.condition t.children

end Rule

/-! ## Predicates of columns -/

namespace Operation

variable {op : Operation} {p : Predicate}

theorem interval_questions (op : Operation) (negated : Bool) (low high : Value) :
    predicateQuestions (op.interval negated low high) = [] := by
  cases negated <;> rfl

theorem equality_questions {negated : Bool} (h : op.equality negated = .ok p) :
    predicateQuestions p = [] := by
  unfold equality at h
  split at h
  · cases h
    rfl
  · split at h
    · obtain ⟨day, -, h⟩ := bind_eq_ok h
      cases h
      exact op.interval_questions ..
    · obtain ⟨v, -, h⟩ := bind_eq_ok h
      cases h
      rfl

theorem comparison_questions {comparison : Comparison} (h : op.comparison comparison = .ok p) :
    predicateQuestions p = [] := by
  unfold Operation.comparison at h
  split at h
  · obtain ⟨day, -, h⟩ := bind_eq_ok h
    cases h
    rfl
  · obtain ⟨v, -, h⟩ := bind_eq_ok h
    cases h
    rfl

theorem range_questions {negated : Bool} (h : op.range negated = .ok p) :
    predicateQuestions p = [] := by
  unfold range at h
  split at h
  · split at h
    · obtain ⟨start, -, h⟩ := bind_eq_ok h
      obtain ⟨finish, -, h⟩ := bind_eq_ok h
      cases h
      exact op.interval_questions ..
    · obtain ⟨low, -, h⟩ := bind_eq_ok h
      obtain ⟨high, -, h⟩ := bind_eq_ok h
      cases h
      rfl
  · cases h

theorem membership_questions {negated : Bool} (h : op.membership negated = .ok (some p)) :
    predicateQuestions p = [] := by
  unfold membership at h
  obtain ⟨values, -, h⟩ := bind_eq_ok h
  split at h
  · cases h
  · cases h
    rfl

theorem pattern_questions {before after : String} {negated : Bool}
    (h : op.pattern before after negated = .ok p) : predicateQuestions p = [] := by
  unfold pattern at h
  obtain ⟨text, -, h⟩ := bind_eq_ok h
  cases h
  rfl

theorem window_questions (h : op.window = .ok p) : predicateQuestions p = [] := by
  unfold window at h
  simp only at h
  split at h
  · cases h
  · split at h
    · cases h
    · split at h
      · cases h
        rfl
      · cases h
        rfl

/-- The predicate of an operation asks nothing about related rows. -/
theorem predicate_questions (h : op.predicate = .ok (some p)) : predicateQuestions p = [] := by
  have hsome : ∀ {x : Except CompileError Predicate}, x.map some = .ok (some p) → x = .ok p := by
    intro x hx
    obtain ⟨found, hfound, hsame⟩ := map_eq_ok hx
    rw [hfound, Option.some.inj hsame]
  unfold predicate at h
  split at h
  case h_1 | h_2 => exact equality_questions (hsome h)
  case h_3 | h_4 | h_5 | h_6 => exact comparison_questions (hsome h)
  case h_7 | h_8 => exact range_questions (hsome h)
  case h_9 | h_10 => exact membership_questions h
  case h_11 | h_12 | h_13 | h_14 | h_15 | h_16 => exact pattern_questions (hsome h)
  case h_21 | h_22 => exact window_questions (hsome h)
  all_goals
    cases h
    rfl

end Operation

namespace Compile

/-! ## Rules without custom predicate -/

/-- Whether the questions of a predicate, and those inside them, remove no scope. -/
def AsksKept (p : Predicate) : Prop := ∀ asked ∈ predicateQuestions p, asked.2.KeepsScopes

theorem asksKept_of_nil {p : Predicate} (h : predicateQuestions p = []) : AsksKept p := by
  intro asked hasked
  rw [h] at hasked
  exact absurd hasked List.not_mem_nil

theorem asksKept_of_single {p : Predicate} {link : Link} {sub : Query}
    (h : predicateQuestions p = [(link, sub)]) (hsub : sub.KeepsScopes) : AsksKept p := by
  intro asked hasked
  rw [h, List.mem_singleton] at hasked
  rw [hasked]
  exact hsub

theorem relationQuery_keepsScopes {registry : Registry} {q related : Query} {link : Link}
    {relation : String} (h : q.relationQuery registry relation = .ok (link, related)) :
    related.KeepsScopes := by
  rw [Query.relationQuery_eq] at h
  obtain ⟨⟨found, entity⟩, -, heq⟩ := map_eq_ok h
  cases heq
  exact q.inner_keepsScopes entity

/-- Induction over the shape: the query of every question starts without clauses. -/
theorem Shape.asksKept {registry : Registry} {reads : Query → Column → Prop} {q : Query}
    {p : Predicate} (h : Shape registry reads q p) : AsksKept p := by
  induction h with
  | operation _ hp => exact asksKept_of_nil (Operation.predicate_questions hp)
  | exist _ hlink => exact asksKept_of_single rfl (relationQuery_keepsScopes hlink)
  | related _ hlink _ ih =>
    exact asksKept_of_single rfl ((relationQuery_keepsScopes hlink).addClause .and ih)
  | counted _ _ hlink => exact asksKept_of_single rfl (relationQuery_keepsScopes hlink)

/-- A rule without custom predicate asks questions that remove no scope. -/
theorem resolvedPredicate_asksKept {env : Environment} {r : Resolved} {value : Json} {q : Query}
    {p : Predicate} (h : resolvedPredicate env r value q = .ok (some p)) : AsksKept p := by
  have hreads : MayRead env r.target fun _ _ => True :=
    ⟨fun _ _ => trivial, fun _ _ _ _ => trivial, fun _ _ _ _ => trivial⟩
  exact (resolvedPredicate_shape hreads h).asksKept

/-! ## The groups of rules -/

/-- Whether a rule, in a group with a connective, can be used and hands a blank query to a custom
predicate, which leaves a certain group. -/
def LeavesGroup (filters : FilterSet) (env : Environment) (blank : Query)
    (placed : Connective × Rule.Leaf) (group : Query) : Prop :=
  ∃ r custom, resolve filters placed.2 = .ok r ∧ r.custom? = some custom ∧
    custom.apply env ⟨placed.2.value, placed.1, r.operator, placed.2⟩ blank = .ok group

section
variable {filters : FilterSet} {env : Environment}

theorem LeavesGroup.leafGroup {blank group : Query} {placed : Connective × Rule.Leaf}
    (h : LeavesGroup filters env blank placed group) :
    leafGroup filters env placed.2 placed.1 blank = .ok group := by
  obtain ⟨r, custom, hr, hcustom, happly⟩ := h
  unfold Compile.leafGroup
  rw [hr]
  simp only [bind, Except.bind, hcustom]
  exact happly

/-- The group of a rule is what a custom predicate left, or one predicate that asks questions which
remove no scope. -/
theorem leafGroup_cases {blank group : Query} {placed : Connective × Rule.Leaf}
    (h : leafGroup filters env placed.2 placed.1 blank = .ok group) :
    LeavesGroup filters env blank placed group ∨
      ∃ p : Option Predicate, group = blank.addClauses .and p.toList ∧
        ∀ p' ∈ p, AsksKept p' := by
  unfold leafGroup at h
  obtain ⟨r, hr, h⟩ := bind_eq_ok h
  cases hcustom : r.custom? with
  | some custom =>
    simp only [hcustom] at h
    exact .inl ⟨r, custom, hr, hcustom, h⟩
  | none =>
    simp only [hcustom] at h
    obtain ⟨p, hp, rfl⟩ := map_eq_ok h
    refine .inr ⟨p, rfl, fun p' hp' => ?_⟩
    rw [Option.mem_def.mp hp'] at hp
    exact resolvedPredicate_asksKept hp

/-! ## Trees -/

/-- What became of a rule: its group was absorbed, or it was left out. -/
theorem admit_leaf {leaf : Rule.Leaf} {connective : Connective} {q r : Query}
    (h : compileNode filters env connective q (.leaf leaf) = .ok r) :
    (∃ group, leafGroup filters env leaf connective q.group = .ok group ∧
        r = q.absorb connective group) ∨
      (∃ error, leafGroup filters env leaf connective q.group = .error error) ∧ r = q := by
  unfold compileNode admit? at h
  rw [compileLeaf_eq] at h
  cases hgroup : leafGroup filters env leaf connective q.group with
  | ok group =>
    rw [hgroup] at h
    cases h
    exact .inl ⟨group, rfl, rfl⟩
  | error error =>
    rw [hgroup] at h
    refine .inr ⟨⟨error, rfl⟩, ?_⟩
    simp only [Except.map] at h
    split at h
    · cases h
    · cases h
      rfl

/-- An inner group is compiled by itself and absorbed. -/
theorem compile_inner {condition connective : Connective} {children : List Rule.Node}
    {q r : Query} (h : compileNode filters env connective q (.group condition children) = .ok r) :
    ∃ group, compileNodes filters env condition q.group children = .ok group ∧
      r = q.absorb connective group := by
  unfold compileNode at h
  cases hgroup : compileNodes filters env condition q.group children with
  | error error =>
    rw [hgroup] at h
    cases h
  | ok group =>
    rw [hgroup] at h
    cases h
    exact ⟨group, rfl, rfl⟩

theorem compileNode_group {node : Rule.Node} {connective : Connective} {q r : Query}
    (h : compileNode filters env connective q node = .ok r) : r.group = q.group := by
  cases node with
  | leaf leaf =>
    rcases admit_leaf h with ⟨group, -, rfl⟩ | ⟨-, rfl⟩
    · exact q.absorb_group connective group
    · rfl
  | group condition children =>
    obtain ⟨group, -, rfl⟩ := compile_inner h
    exact q.absorb_group connective group

theorem compileNodes_cons {node : Rule.Node} {rest : List Rule.Node} {connective : Connective}
    {q r : Query} (h : compileNodes filters env connective q (node :: rest) = .ok r) :
    ∃ next, compileNode filters env connective q node = .ok next ∧
      compileNodes filters env connective next rest = .ok r := by
  unfold compileNodes at h
  cases hnext : compileNode filters env connective q node with
  | error error =>
    rw [hnext] at h
    cases h
  | ok next =>
    rw [hnext] at h
    exact ⟨next, rfl, h⟩

/-- What is found in a query that absorbed a group only when it was found in the query or in the
group, and never in a blank query. -/
structure Collected {α : Type} (has : Query → α → Prop) : Prop where
  blank : ∀ (q : Query) (x : α), ¬has q.group x
  absorb : ∀ (q : Query) (connective : Connective) (g : Query) (x : α),
    has (q.absorb connective g) x → has q x ∨ has g x

/-- What is found in a query that absorbed a group when it was found in the query or in the
group. -/
def Kept {α : Type} (has : Query → α → Prop) : Prop :=
  ∀ (q : Query) (connective : Connective) (g : Query) (x : α),
    has q x ∨ has g x → has (q.absorb connective g) x

section
variable {α : Type} {has : Query → α → Prop} {x : α}

mutual

/-- Whatever is in a compiled query and not in what it started from is in the group of some rule. -/
theorem compileNode_collects (hhas : Collected has) {connective : Connective} {q r : Query} :
    (node : Rule.Node) → compileNode filters env connective q node = .ok r → has r x →
      has q x ∨ ∃ placed ∈ node.placed connective, ∃ group,
        leafGroup filters env placed.2 placed.1 q.group = .ok group ∧ has group x
  | .leaf leaf, h, hx => by
    rcases admit_leaf h with ⟨group, hgroup, rfl⟩ | ⟨-, rfl⟩
    · rcases hhas.absorb q connective group x hx with hold | hnew
      · exact .inl hold
      · exact .inr ⟨(connective, leaf), List.mem_singleton_self _, group, hgroup, hnew⟩
    · exact .inl hx
  | .group condition children, h, hx => by
    obtain ⟨group, hgroup, rfl⟩ := compile_inner h
    rcases hhas.absorb q connective group x hx with hold | hnew
    · exact .inl hold
    · rcases compileNodes_collects hhas children hgroup hnew with hnone | hfound
      · exact absurd hnone (hhas.blank q x)
      · exact .inr hfound

theorem compileNodes_collects (hhas : Collected has) {connective : Connective} {q r : Query} :
    (nodes : List Rule.Node) → compileNodes filters env connective q nodes = .ok r → has r x →
      has q x ∨ ∃ placed ∈ Rule.placedNodes connective nodes, ∃ group,
        leafGroup filters env placed.2 placed.1 q.group = .ok group ∧ has group x
  | [], h, hx => by
    cases h
    exact .inl hx
  | node :: rest, h, hx => by
    obtain ⟨next, hnext, hrest⟩ := compileNodes_cons h
    rcases compileNodes_collects hhas rest hrest hx with hfirst | ⟨placed, hplaced, hfound⟩
    · rcases compileNode_collects hhas node hnext hfirst with hold | ⟨placed, hplaced, hfound⟩
      · exact .inl hold
      · exact .inr ⟨placed, List.mem_append_left _ hplaced, hfound⟩
    · rw [compileNode_group hnext] at hfound
      exact .inr ⟨placed, List.mem_append_right _ hplaced, hfound⟩

end

mutual

/-- What a query starts from, and what is in the group of some rule, is in the compiled query. -/
theorem compileNode_keeps (hhas : Kept has) {connective : Connective} {q r : Query} :
    (node : Rule.Node) → compileNode filters env connective q node = .ok r →
      (has q x ∨ ∃ placed ∈ node.placed connective, ∃ group,
        leafGroup filters env placed.2 placed.1 q.group = .ok group ∧ has group x) → has r x
  | .leaf leaf, h, hx => by
    rcases admit_leaf h with ⟨group, hgroup, rfl⟩ | ⟨⟨error, herror⟩, rfl⟩
    · rcases hx with hold | ⟨placed, hplaced, found, hfound, hnew⟩
      · exact hhas q connective group x (.inl hold)
      · rw [List.mem_singleton.mp hplaced, hgroup] at hfound
        cases hfound
        exact hhas q connective group x (.inr hnew)
    · rcases hx with hold | ⟨placed, hplaced, found, hfound, -⟩
      · exact hold
      · rw [List.mem_singleton.mp hplaced, herror] at hfound
        cases hfound
  | .group condition children, h, hx => by
    obtain ⟨group, hgroup, rfl⟩ := compile_inner h
    rcases hx with hold | hfound
    · exact hhas q connective group x (.inl hold)
    · exact hhas q connective group x
        (.inr (compileNodes_keeps hhas children hgroup (.inr hfound)))

theorem compileNodes_keeps (hhas : Kept has) {connective : Connective} {q r : Query} :
    (nodes : List Rule.Node) → compileNodes filters env connective q nodes = .ok r →
      (has q x ∨ ∃ placed ∈ Rule.placedNodes connective nodes, ∃ group,
        leafGroup filters env placed.2 placed.1 q.group = .ok group ∧ has group x) → has r x
  | [], h, hx => by
    cases h
    rcases hx with hold | ⟨placed, hplaced, -⟩
    · exact hold
    · exact absurd hplaced List.not_mem_nil
  | node :: rest, h, hx => by
    obtain ⟨next, hnext, hrest⟩ := compileNodes_cons h
    refine compileNodes_keeps hhas rest hrest ?_
    rcases hx with hold | ⟨placed, hplaced, hfound⟩
    · exact .inl (compileNode_keeps hhas node hnext (.inl hold))
    · rcases List.mem_append.mp hplaced with hfirst | hlater
      · exact .inl (compileNode_keeps hhas node hnext (.inr ⟨placed, hfirst, hfound⟩))
      · rw [← compileNode_group hnext] at hfound
        exact .inr ⟨placed, hlater, hfound⟩

end

end

end
end Compile
end Winnow
