import Winnow.Proofs.Compile.Collected
import Winnow.Proofs.Compile.Resolved
import Winnow.Proofs.Compile.Targets
import Winnow.Proofs.Compile.Typed

/-!
# What rules read

The predicate of a rule without custom predicate reads the rows that it is
about and joined rows (`resolvedPredicate_resolves`): a field of the rows
themselves, a field of a joined path, or a question about related rows, which
reads related rows only.  So the group of a tree reads the qualifier of its
query and the aliases of its joins (`compileNodes_gathers`), and a tree that is
compiled into a closed query leaves it closed (`compileNodes_closed`).
-/

namespace Winnow.Compile

/-! ## Predicates of rules -/

section
variable {env : Environment} {names : List String} {p : Predicate}

theorem resolvesIn_question {own : String} {asked : Link × Query} (htests : predicateTests p = [])
    (hquestions : predicateQuestions p = [asked]) (hasked : Resolves Test.Typed own asked) :
    p.ResolvesIn Test.Typed own names := by
  refine ⟨fun t ht => ?_, fun other hother => ?_⟩
  · rw [htests] at ht
    exact absurd ht List.not_mem_nil
  · rw [hquestions, List.mem_singleton] at hother
    rw [hother]
    exact hasked

/-- Names that cover what a query reads of itself and of joined paths. -/
structure Covers (env : Environment) (names : List String) (q : Query) : Prop where
  own : q.qualifier ∈ names
  joined : ∀ path target, joinOf? env q path = some target → target.tableAlias ∈ names

/-- The query of a question reads no joined path. -/
theorem covers_of_relationQuery {q related : Query} {link : Link} {relation : String}
    (h : q.relationQuery env.registry relation = .ok (link, related)) :
    Covers env [related.qualifier] related := by
  refine ⟨List.mem_singleton_self _, fun path target htarget => ?_⟩
  rw [Query.relationQuery_eq] at h
  obtain ⟨⟨found, e⟩, -, heq⟩ := map_eq_ok h
  cases heq
  cases htarget

/-- Whether a column is one of the rows of a query or of a joined path. -/
def Reaches (env : Environment) (q : Query) (column : Column) : Prop :=
  column.qualifier = q.qualifier ∨
    ∃ path target, joinOf? env q path = some target ∧ column.qualifier = target.tableAlias

theorem reaches_mayRead (env : Environment) (filter : Filter) :
    MayRead env filter (Reaches env) :=
  ⟨fun _ _ => .inl rfl, fun _ _ _ _ => .inl rfl,
    fun _ path target htarget => .inr ⟨path, target, htarget, rfl⟩⟩

/-- Induction over the shape: a question reads the rows that its relation leads to. -/
theorem Shape.resolves {q : Query} (h : Shape env.registry (Reaches env) q p)
    (hcovers : Covers env names q) : p.ResolvesIn Test.Typed q.qualifier names := by
  induction h generalizing names with
  | @operation q op p hreaches hp =>
    have hmem : op.column.qualifier ∈ names := by
      rcases hreaches with hown | ⟨path, target, htarget, hjoined⟩
      · rw [hown]
        exact hcovers.own
      · rw [hjoined]
        exact hcovers.joined path target htarget
    refine ⟨fun t ht => ?_, fun asked hasked => ?_⟩
    · obtain ⟨hsame, htyped⟩ := Operation.predicate_typed hp t ht
      rw [hsame]
      exact ⟨hmem, htyped⟩
    · rw [Operation.predicate_questions hp] at hasked
      exact absurd hasked List.not_mem_nil
  | exist _ hlink => exact resolvesIn_question rfl rfl (Query.resolves_blank hlink)
  | related _ hlink _ ih =>
    exact resolvesIn_question rfl rfl
      (Query.resolves_addClause hlink (ih (covers_of_relationQuery hlink)))
  | counted _ _ hlink => exact resolvesIn_question rfl rfl (Query.resolves_blank hlink)

theorem fieldPredicate_resolves {q : Query} (hcovers : Covers env names q) {field : String}
    {filter : Filter} {operator : Operator} {value : Json}
    (h : fieldPredicate env q field filter operator value = .ok (some p)) :
    p.ResolvesIn Test.Typed q.qualifier names :=
  (fieldPredicate_shape (reaches_mayRead env filter) h).resolves hcovers

/-- The predicate of a rule without custom predicate reads what its query reads of itself and of
joined paths. -/
theorem resolvedPredicate_resolves {r : Resolved} {value : Json} {q : Query}
    (hcovers : Covers env names q) (h : resolvedPredicate env r value q = .ok (some p)) :
    p.ResolvesIn Test.Typed q.qualifier names :=
  (resolvedPredicate_shape (reaches_mayRead env r.target) h).resolves hcovers

end

/-! ## Groups of rules -/

section
variable {filters : FilterSet} {env : Environment}

/-- Trees are compiled by absorbing groups: what the group of every rule has, and absorbing keeps,
the group of a tree has; and what a query has, and absorbing such a group keeps, it has with the tree
compiled into it. -/
structure Absorbs (filters : FilterSet) (env : Environment) (blank : Query)
    (collects has : Query → Prop) : Prop where
  empty : collects blank.group
  leaf : ∀ leaf connective g, leafGroup filters env leaf connective blank.group = .ok g →
    collects g ∧ g.group = blank.group
  inner : ∀ q connective g, q.group = blank.group → g.group = blank.group → collects q →
    collects g → collects (q.absorb connective g)
  outer : ∀ q connective g, q.group = blank.group → g.group = blank.group → has q → collects g →
    has (q.absorb connective g)

theorem Absorbs.toInner {blank : Query} {collects has : Query → Prop}
    (h : Absorbs filters env blank collects has) :
    Absorbs filters env blank collects collects := ⟨h.empty, h.leaf, h.inner, h.inner⟩

mutual

theorem compileNode_absorbs {blank : Query} {collects has : Query → Prop}
    (h : Absorbs filters env blank collects has) {connective : Connective} {q r : Query}
    (hgroup : q.group = blank.group) (hq : has q) :
    (node : Rule.Node) → compileNode filters env connective q node = .ok r → has r
  | .leaf leaf, hr => by
    rcases admit_leaf hr with ⟨g, hg, rfl⟩ | ⟨-, rfl⟩
    · rw [hgroup] at hg
      obtain ⟨hcollects, hsame⟩ := h.leaf leaf connective g hg
      exact h.outer q connective g hgroup hsame hq hcollects
    · exact hq
  | .group condition children, hr => by
    obtain ⟨g, hg, rfl⟩ := compile_inner hr
    rw [hgroup] at hg
    obtain ⟨hcollects, hsame⟩ :=
      compileNodes_absorbs h.toInner (Query.group_group blank) h.empty children hg
    exact h.outer q connective g hgroup (hsame.trans (Query.group_group blank)) hq hcollects

/-- Induction over the nodes: every node starts on what the nodes before it left. -/
theorem compileNodes_absorbs {blank : Query} {collects has : Query → Prop}
    (h : Absorbs filters env blank collects has) {connective : Connective} {q r : Query}
    (hgroup : q.group = blank.group) (hq : has q) :
    (nodes : List Rule.Node) → compileNodes filters env connective q nodes = .ok r →
      has r ∧ r.group = q.group
  | [], hr => by
    cases hr
    exact ⟨hq, rfl⟩
  | node :: rest, hr => by
    obtain ⟨next, hnext, hrest⟩ := compileNodes_cons hr
    have hsame := compileNode_group hnext
    obtain ⟨hr, hkept⟩ := compileNodes_absorbs h (hsame.trans hgroup)
      (compileNode_absorbs h hgroup hq node hnext) rest hrest
    exact ⟨hr, hkept.trans hsame⟩

end

variable (hplain : filters.Plain) {names : List String} {blank : Query}
  (hcovers : Covers env names blank)

include hplain hcovers

/-- The group of a rule without custom predicate is its predicate, if it places a constraint. -/
theorem leafGroup_gathers {leaf : Rule.Leaf} {connective : Connective} {g : Query}
    (h : leafGroup filters env leaf connective blank.group = .ok g) :
    g.Gathers Test.Typed names ∧ g.group = blank.group := by
  unfold leafGroup at h
  obtain ⟨r, hr, h⟩ := bind_eq_ok h
  simp only [custom_none_of_plain hplain hr] at h
  obtain ⟨p, hp, rfl⟩ := map_eq_ok h
  rw [resolvedPredicate_group] at hp
  have hblank : blank.group.Gathers Test.Typed names := .blank
  cases p with
  | none => exact ⟨hblank.of_bare rfl rfl, rfl⟩
  | some p =>
    have hresolves : p.ResolvesIn Test.Typed blank.qualifier names :=
      resolvedPredicate_resolves hcovers hp
    exact ⟨hblank.addClause .and hresolves, rfl⟩

theorem absorbs_gathers :
    Absorbs filters env blank (Query.Gathers Test.Typed names)
      (Query.Gathers Test.Typed names) := by
  have hinner : ∀ (q : Query) (connective : Connective) (g : Query),
      q.group = blank.group → g.group = blank.group →
      q.Gathers Test.Typed names → g.Gathers Test.Typed names →
        (q.absorb connective g).Gathers Test.Typed names :=
    fun q connective g hq hg h hinner => h.absorb hinner (hg.trans hq.symm) connective
  exact ⟨.blank, fun _ _ _ h => leafGroup_gathers hplain hcovers h, hinner, hinner⟩

/-- The group of a tree reads what its query reads of itself and of joined paths. -/
theorem compileNodes_gathers {connective : Connective} {nodes : List Rule.Node} {g : Query}
    (h : compileNodes filters env connective blank.group nodes = .ok g) :
    g.Gathers Test.Typed names ∧ g.group = blank.group :=
  compileNodes_absorbs (q := blank.group) (absorbs_gathers hplain hcovers)
    (Query.group_group blank) .blank nodes h

end

/-- A tree that is compiled into a closed query, whose joins it reads, leaves it closed. -/
theorem compileNodes_closed {filters : FilterSet} {env : Environment} (hplain : filters.Plain)
    {q r : Query} (hq : q.Closed Test.Typed) (hcovers : Covers env q.names q)
    {connective : Connective} {nodes : List Rule.Node}
    (h : compileNodes filters env connective q nodes = .ok r) : r.Closed Test.Typed := by
  have habsorbs : Absorbs filters env q (Query.Gathers Test.Typed q.names)
      fun s => s.Closed Test.Typed ∧ s.names = q.names := by
    obtain ⟨hblank, hleaf, hinner, -⟩ := absorbs_gathers hplain hcovers
    refine ⟨hblank, hleaf, hinner, fun s connective g hs hg ⟨hclosed, hnames⟩ hgathers => ?_⟩
    have hkept : (s.absorb connective g).names = s.names := by
      rw [Query.names_eq_of_bare (hgathers.absorb_eq s connective).1]
      cases g.groupPredicate <;> rfl
    rw [← hnames] at hgathers
    exact ⟨hclosed.absorb hgathers (hg.trans hs.symm) connective, hkept.trans hnames⟩
  exact (compileNodes_absorbs habsorbs rfl ⟨hq, rfl⟩ nodes h).1.1

end Winnow.Compile
