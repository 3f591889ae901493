import Winnow.Proofs.Engine.Joins
import Winnow.Proofs.Engine.Reading
import Winnow.Proofs.Query.Scopes

/-!
# Queries whose names resolve

A query is closed when every column it reads is qualified by a name it binds:
its own qualifier or the alias of a join (`Query.Closed`).  A question about
related rows binds one name only, that of its query, and its link leads there
from the query that asks it (`Resolves`).  Clauses, absorbed groups, joins along
relations, aggregates and orders keep a query closed, as long as what they add
reads names that are bound already.  What else holds of every test that is
added, its `kind`, holds of every test of the query.
-/

namespace Winnow

/-! ## Tests -/

mutual

/-- The tests of a predicate, without those inside questions about related rows. -/
def predicateTests : Predicate → List Test
  | .test t => [t]
  | .nested clauses => clausesTests clauses
  | .related .. | .counted .. | .const _ => []

/-- The tests of clauses, without those inside questions about related rows. -/
def clausesTests : List Clause → List Test
  | [] => []
  | ⟨_, p⟩ :: rest => predicateTests p ++ clausesTests rest

end

theorem clausesTests_eq_flatMap (clauses : List Clause) :
    clausesTests clauses = clauses.flatMap fun clause => predicateTests clause.predicate := by
  induction clauses with
  | nil => rfl
  | cons clause rest ih =>
    obtain ⟨connective, p⟩ := clause
    rw [clausesTests, ih, List.flatMap_cons]

@[simp] theorem clausesTests_append (front back : List Clause) :
    clausesTests (front ++ back) = clausesTests front ++ clausesTests back := by
  simp only [clausesTests_eq_flatMap, List.flatMap_append]

@[simp] theorem clausesTests_single (connective : Connective) (p : Predicate) :
    clausesTests [⟨connective, p⟩] = predicateTests p := by
  rw [clausesTests, clausesTests, List.append_nil]

theorem Query.groupPredicate_tests (g : Query) :
    g.groupPredicate.toList.flatMap predicateTests = clausesTests g.clauses := by
  unfold groupPredicate
  rcases g.clauses with _ | ⟨⟨connective, p⟩, _ | ⟨clause, rest⟩⟩
  · rfl
  · rw [clausesTests_single]
    exact List.flatMap_singleton ..
  · refine (List.flatMap_singleton ..).trans ?_
    rw [predicateTests]

theorem clausesQuestions_eq_flatMap (clauses : List Clause) :
    clausesQuestions clauses = clauses.flatMap fun clause => predicateQuestions clause.predicate := by
  induction clauses with
  | nil => rfl
  | cons clause rest ih =>
    obtain ⟨connective, p⟩ := clause
    rw [clausesQuestions, ih, List.flatMap_cons]

/-- The tests and the questions of the clause that a group becomes are those of its clauses. -/
theorem Query.of_groupPredicate {g : Query} {p : Predicate} (h : g.groupPredicate = some p) :
    (∀ t ∈ predicateTests p, ∃ clause ∈ g.clauses, t ∈ predicateTests clause.predicate) ∧
      ∀ asked ∈ predicateQuestions p,
        ∃ clause ∈ g.clauses, asked ∈ predicateQuestions clause.predicate := by
  have htests := g.groupPredicate_tests
  have hquestions := g.groupPredicate_questions
  rw [h, Option.toList_some, List.flatMap_singleton] at htests hquestions
  rw [htests, clausesTests_eq_flatMap, hquestions, clausesQuestions_eq_flatMap]
  exact ⟨fun t ht => List.mem_flatMap.mp ht, fun asked hasked => List.mem_flatMap.mp hasked⟩

/-! ## Definitions -/

/-- A question about related rows whose link leads from rows under a qualifier to the rows of its
query, which have another qualifier and are the only rows that the query reads; and the same of the
questions inside it. -/
inductive Resolves (kind : Test → Prop) : String → Link × Query → Prop where
  | intro {own : String} {link : Link} {sub : Query} :
      link.parent = own → link.related = sub.qualifier → sub.qualifier ≠ own →
      link.relatedTable = sub.entity.table → sub.joins = [] → sub.aggregates = [] →
      (∀ t ∈ clausesTests sub.clauses, t.column.qualifier = sub.qualifier ∧ kind t) →
      (∀ asked ∈ clausesQuestions sub.clauses, Resolves kind sub.qualifier asked) →
      Resolves kind own (link, sub)

/-- A predicate on the rows under a qualifier that reads some names only. -/
structure Predicate.ResolvesIn (kind : Test → Prop) (own : String) (names : List String)
    (p : Predicate) : Prop where
  tests : ∀ t ∈ predicateTests p, t.column.qualifier ∈ names ∧ kind t
  questions : ∀ asked ∈ predicateQuestions p, Resolves kind own asked

/-- A join of a table under an alias to rows under some names, whose conditions are that global
scopes admit the joined row. -/
structure Join.ResolvesIn (names : List String) (j : Join) : Prop where
  second : j.second.qualifier = j.tableAlias
  first : j.first.qualifier ∈ names
  conditions : ∀ p ∈ j.conditions, ∃ (scope : GlobalScope) (e : Entity),
    p = .test (scope.test e j.tableAlias)

namespace Query

/-- The names that a query binds: its own qualifier and the aliases of its joins. -/
def names (q : Query) : List String := q.qualifier :: q.joins.map Join.tableAlias

/-- A query that collects clauses and nothing else, which read some names only. -/
structure Gathers (kind : Test → Prop) (names : List String) (g : Query) : Prop where
  joins : g.joins = []
  aggregates : g.aggregates = []
  orders : g.orders = []
  tests : ∀ t ∈ clausesTests g.clauses, t.column.qualifier ∈ names ∧ kind t
  questions : ∀ asked ∈ clausesQuestions g.clauses, Resolves kind g.qualifier asked

/-- A query that reads only names it binds; a join reads those bound before it. -/
structure Closed (kind : Test → Prop) (q : Query) : Prop where
  aliases : (q.joins.map Join.tableAlias).Nodup
  joins : ∀ front j back, q.joins = front ++ j :: back →
    j.ResolvesIn (q.qualifier :: front.map Join.tableAlias)
  tests : ∀ t ∈ clausesTests q.clauses, t.column.qualifier ∈ q.names ∧ kind t
  orders : ∀ o ∈ q.orders, ∀ column, o.target = .column column → column.qualifier ∈ q.names
  questions : ∀ asked ∈ q.questions, Resolves kind q.qualifier asked

/-- Whether a query is another one or asked inside it, at any depth. -/
inductive Within : Query → Query → Prop where
  | self (q : Query) : Within q q
  | asked {q sub : Query} {asked : Link × Query} :
      asked ∈ q.questions → Within sub asked.2 → Within sub q

end Query

section
variable {kind : Test → Prop}

/-! ## Questions -/

/-- The query of a question reads its own rows. -/
theorem Query.Gathers.resolves {own : String} {link : Link} {sub : Query}
    (h : sub.Gathers kind [sub.qualifier]) (hparent : link.parent = own)
    (hrelated : link.related = sub.qualifier) (hne : sub.qualifier ≠ own)
    (htable : link.relatedTable = sub.entity.table) : Resolves kind own (link, sub) :=
  .intro hparent hrelated hne htable h.joins h.aggregates
    (fun t ht => (h.tests t ht).imp_left List.mem_singleton.mp) h.questions

/-- The questions inside a question that resolves do. -/
theorem Resolves.asks {own : String} {link : Link} {sub : Query} (h : Resolves kind own (link, sub))
    {asked : Link × Query} (hasked : asked ∈ sub.questions) :
    Resolves kind sub.qualifier asked := by
  obtain ⟨-, -, -, -, -, haggregates, -, hquestions⟩ := h
  unfold Query.questions at hasked
  rw [haggregates] at hasked
  exact hquestions asked hasked

/-- A query inside the query of a question that resolves is asked by one. -/
theorem Resolves.within {own : String} {link : Link} {q sub : Query} (hsub : sub.Within q)
    (h : Resolves kind own (link, q)) : ∃ own link, Resolves kind own (link, sub) := by
  induction hsub generalizing own link with
  | self q => exact ⟨own, link, h⟩
  | asked hmem _ ih => exact ih (h.asks hmem)

mutual

/-- A predicate reads what its tests and its questions read. -/
theorem Predicate.of_mem_reads {name : String} : (p : Predicate) → name ∈ p.reads →
    (∃ t ∈ predicateTests p, t.column.qualifier = name) ∨
      ∃ asked ∈ predicateQuestions p, asked.1.parent = name ∨ name ∈ relatedReads asked.2
  | .test t, h => .inl ⟨t, List.mem_singleton_self t, (List.mem_singleton.mp h).symm⟩
  | .nested clauses, h => of_mem_clausesRead clauses h
  | .related link query _, h | .counted link query _ _, h => by
    refine .inr ⟨(link, query), List.mem_singleton_self _, ?_⟩
    exact (List.mem_cons.mp h).imp_left Eq.symm
  | .const _, h => absurd h List.not_mem_nil

theorem of_mem_clausesRead {name : String} : (clauses : List Clause) → name ∈ clausesRead clauses →
    (∃ t ∈ clausesTests clauses, t.column.qualifier = name) ∨
      ∃ asked ∈ clausesQuestions clauses, asked.1.parent = name ∨ name ∈ relatedReads asked.2
  | [], h => absurd h List.not_mem_nil
  | ⟨_, p⟩ :: rest, h => by
    rw [clausesRead, List.mem_append] at h
    rcases h with h | h
    · refine (Predicate.of_mem_reads p h).imp ?_ ?_
      · exact fun ⟨t, ht, hname⟩ => ⟨t, List.mem_append_left _ ht, hname⟩
      · exact fun ⟨asked, hasked, hname⟩ => ⟨asked, List.mem_append_left _ hasked, hname⟩
    · refine (of_mem_clausesRead rest h).imp ?_ ?_
      · exact fun ⟨t, ht, hname⟩ => ⟨t, List.mem_append_right _ ht, hname⟩
      · exact fun ⟨asked, hasked, hname⟩ => ⟨asked, List.mem_append_right _ hasked, hname⟩

end

/-- The query of a question that resolves reads nothing but its own rows. -/
theorem Resolves.relatedReads_eq {own : String} {asked : Link × Query}
    (h : Resolves kind own asked) : relatedReads asked.2 = [] := by
  induction h with
  | @intro own link sub hparent hrelated hne htable hjoins haggregates htests hquestions ih =>
    have hread : ∀ name ∈ clausesRead sub.clauses, name = sub.qualifier := by
      intro name hname
      rcases of_mem_clausesRead sub.clauses hname with ⟨t, ht, rfl⟩ | ⟨asked, hasked, hread⟩
      · exact (htests t ht).1
      · rw [ih asked hasked] at hread
        obtain ⟨hparent, -⟩ := hquestions asked hasked
        exact hread.elim (fun h => h.symm.trans hparent) fun h => absurd h List.not_mem_nil
    have hreads : relatedReads sub =
        (clausesRead sub.clauses).filter fun name => name != sub.qualifier := by
      cases sub
      rw [relatedReads]
      rfl
    show relatedReads sub = []
    rw [hreads, List.filter_eq_nil_iff]
    intro name hname
    simpa using hread name hname

/-- A predicate reads the names that it resolves in and no others. -/
theorem Predicate.ResolvesIn.reads_subset {own : String} {names : List String} {p : Predicate}
    (h : p.ResolvesIn kind own names) (hown : own ∈ names) : p.reads ⊆ names := by
  intro name hname
  rcases p.of_mem_reads hname with ⟨t, ht, rfl⟩ | ⟨asked, hasked, hread⟩
  · exact (h.tests t ht).1
  · have hresolves := h.questions asked hasked
    rw [hresolves.relatedReads_eq] at hread
    obtain ⟨hparent, -⟩ := hresolves
    rcases hread with rfl | hread
    · exact hparent ▸ hown
    · exact absurd hread List.not_mem_nil

namespace Query

theorem Closed.within {q : Query} (h : q.Closed kind) {sub : Query} (hsub : sub.Within q) :
    sub = q ∨ ∃ own link, Resolves kind own (link, sub) := by
  cases hsub with
  | self => exact .inl rfl
  | asked hmem hwithin => exact .inr (Resolves.within hwithin (h.questions _ hmem))

/-- Whatever asks a question inside a closed query, the question resolves there. -/
theorem Closed.asks {q : Query} (h : q.Closed kind) {outer : Query} (houter : outer.Within q)
    {asked : Link × Query} (hasked : asked ∈ outer.questions) :
    Resolves kind outer.qualifier asked := by
  rcases h.within houter with rfl | ⟨own, link, hresolves⟩
  · exact h.questions asked hasked
  · exact hresolves.asks hasked

/-- Every test of a closed query, at any depth, is of the kind of all that were added. -/
theorem Closed.kind_of_within {q : Query} (h : q.Closed kind) {sub : Query} (hsub : sub.Within q)
    {t : Test} (ht : t ∈ clausesTests sub.clauses) : kind t := by
  rcases h.within hsub with rfl | ⟨own, link, hresolves⟩
  · exact (h.tests t ht).2
  · obtain ⟨-, -, -, -, -, -, htests, -⟩ := hresolves
    exact (htests t ht).2

/-! ## Groups -/

theorem Gathers.blank {names : List String} {q : Query} : q.group.Gathers kind names :=
  ⟨rfl, rfl, rfl, by simp [group, ofEntity, clausesTests],
    fun _ hasked => absurd hasked List.not_mem_nil⟩

theorem Gathers.mono {few many : List String} {g : Query} (h : g.Gathers kind few)
    (hsub : few ⊆ many) : g.Gathers kind many :=
  ⟨h.joins, h.aggregates, h.orders, fun t ht => (h.tests t ht).imp_left fun hq => hsub hq, h.questions⟩

theorem Gathers.addClause {names : List String} {g : Query} (h : g.Gathers kind names)
    (connective : Connective) {p : Predicate} (hp : p.ResolvesIn kind g.qualifier names) :
    (g.addClause connective p).Gathers kind names := by
  refine ⟨h.joins, h.aggregates, h.orders, fun t ht => ?_, fun asked hasked => ?_⟩
  · have hmem : t ∈ clausesTests (g.clauses ++ [⟨connective, p⟩]) := ht
    rw [clausesTests_append, clausesTests_single, List.mem_append] at hmem
    exact hmem.elim (h.tests t) (hp.tests t)
  · have hmem : asked ∈ clausesQuestions (g.clauses ++ [⟨connective, p⟩]) := hasked
    rw [clausesQuestions_append, clausesQuestions_single, List.mem_append] at hmem
    exact hmem.elim (h.questions asked) (hp.questions asked)

/-- The clause that a group becomes reads what the group reads. -/
theorem Gathers.groupPredicate {names : List String} {g : Query} (h : g.Gathers kind names)
    {p : Predicate} (hp : g.groupPredicate = some p) : p.ResolvesIn kind g.qualifier names := by
  have htests := g.groupPredicate_tests
  have hquestions := g.groupPredicate_questions
  rw [hp, Option.toList_some, List.flatMap_singleton] at htests hquestions
  exact ⟨htests ▸ h.tests, hquestions ▸ h.questions⟩

/-- A group that only collects clauses becomes one clause and changes nothing else that names
depend on. -/
theorem Gathers.addGroup_eq {names : List String} {g : Query} (h : g.Gathers kind names)
    (q : Query) (connective : Connective) :
    (q.addGroup connective g).bare = (q.addPredicate connective g.groupPredicate).bare ∧
      (q.addGroup connective g).orders = q.orders := by
  have hbare : (q.addParts g).bare = q.bare := by
    rw [addParts_bare, h.joins, h.aggregates]
    rfl
  have horders : (q.addParts g).orders = q.orders := by
    unfold addParts
    rw [h.joins, h.aggregates, h.orders]
    simp only [List.append_nil, List.foldl_nil]
    exact load_keeps Query.orders (fun _ _ => rfl) q g.eager
  rw [Query.addGroup_eq]
  cases g.groupPredicate with
  | none => exact ⟨hbare, horders⟩
  | some p => exact ⟨congrArg (fun r : Query => r.addClause connective p) hbare, horders⟩

theorem Gathers.absorb_eq {names : List String} {g : Query} (h : g.Gathers kind names)
    (q : Query) (connective : Connective) :
    (q.absorb connective g).bare = (q.addPredicate connective g.groupPredicate).bare ∧
      (q.absorb connective g).orders = q.orders := by
  have hbare : (q.inheritRemoved g).bare = q.bare := inheritRemoved_keeps bare (fun _ _ => rfl) q g
  have horders : (q.inheritRemoved g).orders = q.orders :=
    inheritRemoved_keeps Query.orders (fun _ _ => rfl) q g
  obtain ⟨habsorb, hsame⟩ := h.addGroup_eq (q.inheritRemoved g) connective
  refine ⟨habsorb.trans ?_, hsame.trans horders⟩
  cases g.groupPredicate with
  | none => exact hbare
  | some p => exact congrArg (fun r : Query => r.addClause connective p) hbare

theorem Gathers.of_bare {names : List String} {g r : Query} (h : g.Gathers kind names)
    (hbare : r.bare = g.bare) (horders : r.orders = g.orders) : r.Gathers kind names := by
  have hclauses : r.clauses = g.clauses := (congrArg clauses hbare :)
  refine ⟨(congrArg Query.joins hbare :).trans h.joins,
    (congrArg Query.aggregates hbare :).trans h.aggregates, horders.trans h.orders, ?_, ?_⟩
  · rw [hclauses]
    exact h.tests
  · have hqualifier : r.qualifier = g.qualifier := (congrArg qualifier hbare :)
    rw [hclauses, hqualifier]
    exact h.questions

theorem Gathers.addPredicate {names : List String} {g : Query} (h : g.Gathers kind names)
    (connective : Connective) {p : Option Predicate}
    (hp : ∀ p' ∈ p, p'.ResolvesIn kind g.qualifier names) :
    (g.addPredicate connective p).Gathers kind names := by
  cases p with
  | none => exact h
  | some p => exact h.addClause connective (hp p rfl)

section
variable {names : List String} {g inner : Query} (h : g.Gathers kind names)
  (hinner : inner.Gathers kind names) (hgroup : inner.group = g.group) (connective : Connective)

include h hinner hgroup

theorem Gathers.addGroup : (g.addGroup connective inner).Gathers kind names := by
  obtain ⟨hbare, horders⟩ := hinner.addGroup_eq g connective
  have hadded := h.addPredicate connective fun p hp =>
    qualifier_eq_of_group hgroup ▸ hinner.groupPredicate hp
  refine hadded.of_bare hbare (horders.trans ?_)
  cases inner.groupPredicate <;> rfl

theorem Gathers.absorb : (g.absorb connective inner).Gathers kind names := by
  obtain ⟨hbare, horders⟩ := hinner.absorb_eq g connective
  have hadded := h.addPredicate connective fun p hp =>
    qualifier_eq_of_group hgroup ▸ hinner.groupPredicate hp
  refine hadded.of_bare hbare (horders.trans ?_)
  cases inner.groupPredicate <;> rfl

end

/-! ## Closed queries -/

/-- An empty query. -/
theorem Closed.ofEntity (e : Entity) : (ofEntity e).Closed kind := by
  refine ⟨List.nodup_nil, fun front j back h => ?_, fun t ht => ?_, fun o ho => ?_,
    fun asked hasked => ?_⟩
  · exact absurd h (by simp [Query.ofEntity])
  · exact absurd ht List.not_mem_nil
  · exact absurd ho List.not_mem_nil
  · exact absurd hasked List.not_mem_nil

theorem names_eq_of_bare {q r : Query} (h : r.bare = q.bare) : r.names = q.names := by
  exact (congrArg names h :)

/-- New orders, projections, loads, pages and removed scopes. -/
theorem Closed.of_bare {q r : Query} (h : q.Closed kind) (hbare : r.bare = q.bare)
    (horders : ∀ o ∈ r.orders, ∀ column, o.target = .column column →
      column.qualifier ∈ q.names) : r.Closed kind := by
  have hjoins : r.joins = q.joins := (congrArg Query.joins hbare :)
  have hclauses : r.clauses = q.clauses := (congrArg clauses hbare :)
  have haggregates : r.aggregates = q.aggregates := (congrArg aggregates hbare :)
  have hqualifier : r.qualifier = q.qualifier := (congrArg qualifier hbare :)
  have hnames := names_eq_of_bare hbare
  refine ⟨hjoins ▸ h.aliases, ?_, ?_, hnames ▸ horders, ?_⟩
  · rw [hjoins, hqualifier]
    exact h.joins
  · rw [hclauses, hnames]
    exact h.tests
  · unfold Query.questions
    rw [hclauses, haggregates, hqualifier]
    exact h.questions

theorem Closed.addClause {q : Query} (h : q.Closed kind) (connective : Connective) {p : Predicate}
    (hp : p.ResolvesIn kind q.qualifier q.names) : (q.addClause connective p).Closed kind := by
  refine ⟨h.aliases, h.joins, fun t ht => ?_, h.orders, fun asked hasked => ?_⟩
  · have hmem : t ∈ clausesTests (q.clauses ++ [⟨connective, p⟩]) := ht
    rw [clausesTests_append, clausesTests_single, List.mem_append] at hmem
    exact hmem.elim (h.tests t) (hp.tests t)
  · rcases mem_questions.mp hasked with haggregates | hclauses
    · exact h.questions asked (mem_questions.mpr (.inl haggregates))
    · have hmem : asked ∈ clausesQuestions (q.clauses ++ [⟨connective, p⟩]) := hclauses
      rw [clausesQuestions_append, clausesQuestions_single, List.mem_append] at hmem
      rcases hmem with hold | hnew
      · exact h.questions asked (mem_questions.mpr (.inr hold))
      · exact hp.questions asked hnew

/-- A group that reads the names of the query. -/
theorem Closed.absorb {q g : Query} (h : q.Closed kind) (hg : g.Gathers kind q.names)
    (hgroup : g.group = q.group) (connective : Connective) :
    (q.absorb connective g).Closed kind := by
  obtain ⟨hbare, horders⟩ := hg.absorb_eq q connective
  have hadded : (q.addPredicate connective g.groupPredicate).Closed kind := by
    cases hp : g.groupPredicate with
    | none => exact h
    | some p =>
      exact h.addClause connective (qualifier_eq_of_group hgroup ▸ hg.groupPredicate hp)
  refine hadded.of_bare hbare ?_
  rw [horders]
  cases g.groupPredicate <;> exact h.orders

theorem Closed.addOrder {q : Query} (h : q.Closed kind) {target : OrderTarget}
    (htarget : ∀ column, target = .column column → column.qualifier ∈ q.names)
    (direction : Direction) : (q.addOrder target direction).Closed kind := by
  refine h.of_bare rfl fun o ho => ?_
  rcases List.mem_append.mp ho with hold | hnew
  · exact h.orders o hold
  · rw [List.mem_singleton.mp hnew]
    exact htarget

/-! ## Joins and aggregates -/

theorem names_subset_addJoin (q : Query) (j : Join) : q.names ⊆ (q.addJoin j).names := by
  unfold Query.addJoin
  split
  · exact List.Subset.refl _
  · intro name hname
    refine (List.mem_cons.mp hname).elim (fun h => h ▸ List.mem_cons_self) fun h => ?_
    refine List.mem_cons_of_mem _ ?_
    rw [List.map_append]
    exact List.mem_append_left _ h

/-- After a join its alias is bound, by it or by an earlier join. -/
theorem mem_names_addJoin (q : Query) (j : Join) : j.tableAlias ∈ (q.addJoin j).names := by
  refine List.mem_cons_of_mem _ ?_
  unfold Query.addJoin
  split
  next htaken =>
    obtain ⟨other, hother, hsame⟩ := List.any_eq_true.mp htaken
    exact List.mem_map.mpr ⟨other, hother, beq_iff_eq.mp hsame⟩
  next => simp

theorem Closed.addJoin {q : Query} (h : q.Closed kind) {j : Join}
    (hj : j.ResolvesIn q.names) : (q.addJoin j).Closed kind := by
  have hnames := names_subset_addJoin q j
  revert hnames
  unfold Query.addJoin
  split
  · exact fun _ => h
  next hfree =>
    intro hnames
    refine ⟨aliases_nodup_append h.aliases hfree, fun front other back hsplit => ?_,
      fun t ht => ?_, fun o ho column hcolumn => ?_, h.questions⟩
    · -- the joins before the last are those of the query
      rcases List.eq_nil_or_concat back with rfl | ⟨rest, last, rfl⟩
      · obtain ⟨rfl, hlast⟩ := List.append_inj' hsplit rfl
        cases hlast
        exact hj
      · rw [List.concat_eq_append, ← List.cons_append, ← List.append_assoc] at hsplit
        exact h.joins front other rest (List.append_inj' hsplit rfl).1
    · exact (h.tests t ht).imp_left fun hq => hnames hq
    · exact hnames (h.orders o ho column hcolumn)

theorem Closed.addAggregate {q : Query} (h : q.Closed kind) {a : Aggregate}
    (ha : Resolves kind q.qualifier (a.link, a.query)) : (q.addAggregate a).Closed kind := by
  unfold Query.addAggregate
  split
  · exact h
  · refine ⟨h.aliases, h.joins, h.tests, h.orders, fun asked hasked => ?_⟩
    rcases mem_questions.mp hasked with ⟨b, hb, rfl⟩ | hclauses
    · rcases List.mem_append.mp hb with hold | hnew
      · exact h.questions _ (mem_questions.mpr (.inl ⟨b, hold, rfl⟩))
      · rw [List.mem_singleton.mp hnew]
        exact ha
    · exact h.questions asked (mem_questions.mpr (.inr hclauses))

/-- The query of a relation collects nothing yet; whatever it collects, on its own rows, makes a
question that resolves. -/
theorem resolves_of_relationQuery (kind : Test → Prop) {registry : Registry} {q blank : Query}
    {link : Link} {relation : String} (hlink : q.relationQuery registry relation = .ok (link, blank)) :
    blank.Gathers kind [blank.qualifier] ∧ ∀ sub : Query, sub.group = blank.group →
      sub.Gathers kind [sub.qualifier] → Resolves kind q.qualifier (link, sub) := by
  rw [relationQuery_eq] at hlink
  obtain ⟨⟨found, related⟩, -, heq⟩ := map_eq_ok hlink
  cases heq
  refine ⟨Gathers.blank (q := q.inner related), fun sub hgroup hsub => ?_⟩
  have hqualifier := qualifier_eq_of_group hgroup
  refine hsub.resolves rfl hqualifier.symm ?_ ?_
  · rw [hqualifier]
    exact q.inner_qualifier_ne related
  · rw [entity_eq_of_group hgroup]
    rfl

theorem resolves_blank {registry : Registry} {q blank : Query} {link : Link} {relation : String}
    (hlink : q.relationQuery registry relation = .ok (link, blank)) :
    Resolves kind q.qualifier (link, blank) := by
  obtain ⟨hblank, hresolves⟩ := resolves_of_relationQuery kind hlink
  exact hresolves blank rfl hblank

/-- The same query with one clause. -/
theorem resolves_addClause {registry : Registry} {q blank : Query} {link : Link}
    {relation : String} (hlink : q.relationQuery registry relation = .ok (link, blank))
    {p : Predicate} (hp : p.ResolvesIn kind blank.qualifier [blank.qualifier]) :
    Resolves kind q.qualifier (link, blank.addClause .and p) := by
  obtain ⟨hblank, hresolves⟩ := resolves_of_relationQuery kind hlink
  exact hresolves _ rfl (hblank.addClause .and hp)

/-! ## Joins along relations -/

/-- The join along a to-one relation reads the rows it is joined to. -/
theorem relationJoin_resolves {found : Relation} (hfound : found.isToOne = true)
    (related : Entity) (relation tableAlias : String) {parent : String} {names : List String}
    (hparent : parent ∈ names) :
    ∃ join, relationJoin found related relation parent tableAlias = some join ∧
      join.tableAlias = tableAlias ∧ join.ResolvesIn names := by
  obtain ⟨parentColumn, relatedColumn, hkind⟩ := Engine.linkKind_of_isToOne hfound
  have hlink : (found.link relation parent related.table tableAlias).kind =
      .direct parentColumn relatedColumn := hkind
  unfold relationJoin
  rw [hlink]
  refine ⟨_, rfl, rfl, rfl, hparent, fun p hp => ?_⟩
  obtain ⟨scope, -, rfl⟩ := List.mem_map.mp hp
  exact ⟨scope, related, rfl⟩

/-- Joining a path keeps a query closed when the path starts at a name it binds; the name at the end
of the path is bound then. -/
theorem joinFrom_closed {registry : Registry} {walked relations : List String} {e : Entity}
    {parent tableAlias : String} {q r : Query}
    (h : joinFrom registry walked e parent relations q = .ok (tableAlias, r)) (hq : q.Closed kind)
    (hparent : parent ∈ q.names) :
    r.Closed kind ∧ q.names ⊆ r.names ∧ tableAlias ∈ r.names := by
  induction relations generalizing walked e parent q with
  | nil =>
    cases h
    exact ⟨hq, List.Subset.refl _, hparent⟩
  | cons relation rest ih =>
    unfold joinFrom at h
    rcases hrelated : registry.related e relation with error | ⟨found, related⟩ <;>
      simp only [hrelated] at h
    · cases h
    · cases hfound : found.isToOne <;>
        simp only [hfound, Bool.not_true, Bool.not_false, if_true, Bool.false_eq_true, if_false] at h
      · cases h
      · obtain ⟨join, hjoin, halias, hresolves⟩ := relationJoin_resolves hfound related
          relation (Text.join "_" (walked ++ [relation])) hparent
        simp only [hjoin] at h
        have hbound := mem_names_addJoin q join
        rw [halias] at hbound
        obtain ⟨hr, hnames, hmem⟩ := ih h (hq.addJoin hresolves) hbound
        exact ⟨hr, List.Subset.trans (names_subset_addJoin q join) hnames, hmem⟩

/-- The name at the end of a joined path is the path. -/
theorem joinFrom_alias {registry : Registry} {walked relations : List String} {e : Entity}
    {parent tableAlias : String} {q r : Query}
    (h : joinFrom registry walked e parent relations q = .ok (tableAlias, r))
    (hne : relations ≠ []) : tableAlias = Text.join "_" (walked ++ relations) := by
  induction relations generalizing walked e parent q with
  | nil => exact absurd rfl hne
  | cons relation rest ih =>
    unfold joinFrom at h
    split at h
    · cases h
    · simp only at h
      split at h
      · cases h
      · cases rest with
        | nil =>
          cases h
          rfl
        | cons next rest => exact (ih h (List.cons_ne_nil _ _)).trans (by rw [List.append_assoc]; rfl)

end Query

end

end Winnow
