import Winnow.Proofs.Engine.Related
import Winnow.Proofs.Query.Building
import Winnow.Proofs.Success

/-!
# Queries that the builder makes

`Builds` collects the ways to go on building a query: clauses whose questions
about related rows are asked by queries of `Query.relationQuery`, groups, joins
along relations, aggregates, and whatever changes no clause, join or aggregate.
Each of them keeps a query sound (`Builds.sound`): every question is correlated
with the query that asks it, at every depth (`Correlated`), the conditions of
joins are tests of global scopes, and no two joins share an alias.
-/

namespace Winnow

/-! ## Questions -/

mutual

/-- The questions about related rows that a predicate asks, without those inside their queries. -/
def predicateQuestions : Predicate → List (Link × Query)
  | .test _ | .const _ => []
  | .nested clauses => clausesQuestions clauses
  | .related link query _ | .counted link query _ _ => [(link, query)]

/-- The questions about related rows that clauses ask, without those inside their queries. -/
def clausesQuestions : List Clause → List (Link × Query)
  | [] => []
  | ⟨_, p⟩ :: rest => predicateQuestions p ++ clausesQuestions rest

end

theorem clausesQuestions_append (front back : List Clause) :
    clausesQuestions (front ++ back) = clausesQuestions front ++ clausesQuestions back := by
  induction front with
  | nil => rfl
  | cons clause front ih =>
    obtain ⟨connective, p⟩ := clause
    rw [List.cons_append, clausesQuestions, clausesQuestions, ih, List.append_assoc]

@[simp] theorem clausesQuestions_single (connective : Connective) (p : Predicate) :
    clausesQuestions [⟨connective, p⟩] = predicateQuestions p := by
  rw [clausesQuestions, clausesQuestions, List.append_nil]

namespace Query

/-- The questions about related rows that a query asks in its clauses or aggregates. -/
def questions (q : Query) : List (Link × Query) :=
  q.aggregates.map (fun a => (a.link, a.query)) ++ clausesQuestions q.clauses

theorem mem_questions {q : Query} {asked : Link × Query} :
    asked ∈ q.questions ↔
      (∃ a ∈ q.aggregates, (a.link, a.query) = asked) ∨ asked ∈ clausesQuestions q.clauses := by
  unfold questions
  rw [List.mem_append, List.mem_map]

theorem groupPredicate_questions (g : Query) :
    g.groupPredicate.toList.flatMap predicateQuestions = clausesQuestions g.clauses := by
  unfold groupPredicate
  rcases g.clauses with _ | ⟨⟨connective, p⟩, _ | ⟨clause, rest⟩⟩
  · rw [clausesQuestions]
    rfl
  · rw [clausesQuestions_single]
    exact List.flatMap_singleton ..
  · refine (List.flatMap_singleton ..).trans ?_
    rw [predicateQuestions]

/-- The query without what neither its clauses, its joins nor its aggregates depend on. -/
def bare (q : Query) : Query :=
  { q with
    orders := [], selects := [], eager := [], limit := none, offset := none, removedScopes := [] }

end Query

/-! ## Building -/

/-- Ways to go on building a query. -/
inductive Builds (registry : Registry) : Query → Query → Prop where
  | start (q : Query) : Builds registry q q
  /-- A clause; each of its questions goes on building a query on a related entity. -/
  | clause {q r : Query} (connective : Connective) (p : Predicate) (relation : Link × Query → String)
      (blank : Link × Query → Query) :
      Builds registry q r →
      (∀ asked ∈ predicateQuestions p,
        r.relationQuery registry (relation asked) = .ok (asked.1, blank asked)) →
      (∀ asked ∈ predicateQuestions p, Builds registry (blank asked) asked.2) →
      Builds registry q (r.addClause connective p)
  | group {q r g : Query} (connective : Connective) :
      Builds registry q r → Builds registry r.group g → Builds registry q (r.addGroup connective g)
  | join {q r s : Query} {relations : List String} {tableAlias : String} :
      Builds registry q r → r.joinPath registry relations = .ok (tableAlias, s) →
      Builds registry q s
  | aggregate {q r blank query : Query} {link : Link} (relation : String)
      (function : AggregateFunction) (column : Option String) (name : String) :
      Builds registry q r → r.relationQuery registry relation = .ok (link, blank) →
      Builds registry blank query →
      Builds registry q (r.addAggregate ⟨link, query, function, column, name⟩)
  /-- Orders, projections, loads, paging and removed scopes. -/
  | dress {q r s : Query} : Builds registry q r → s.bare = r.bare → Builds registry q s

/-- Whether the builder makes a query, from an empty query on some entity. -/
def Built (registry : Registry) (q : Query) : Prop :=
  ∃ entity, Builds registry (Query.ofEntity entity) q

section
variable {registry : Registry} {q r : Query} (h : Builds registry q r)

include h

theorem Builds.test (connective : Connective) (t : Test) :
    Builds registry q (r.addTest connective t) :=
  h.clause connective (.test t) (fun _ => "") (fun _ => r) (by simp [predicateQuestions])
    (by simp [predicateQuestions])

/-- Projecting an aggregate over a relation. -/
theorem Builds.of_aggregate {s : Query} {relation name : String} {function : AggregateFunction}
    {column : Option String}
    (hs : r.aggregate registry relation function column = .ok (name, s)) :
    Builds registry q s := by
  unfold Query.aggregate at hs
  simp only at hs
  split at hs
  · cases hs
    exact h
  obtain ⟨⟨link, query⟩, hlink, hs⟩ := bind_eq_ok hs
  cases column with
  | none =>
    cases hs
    exact h.aggregate _ _ _ _ hlink (.start query)
  | some column =>
    simp only at hs
    split at hs
    · cases hs
    · cases hs
      exact h.aggregate _ _ _ _ hlink (.start query)

variable {link : Link} {blank sub : Query} {relation : String}
  (hlink : r.relationQuery registry relation = .ok (link, blank)) (hsub : Builds registry blank sub)

include hlink hsub

theorem Builds.related (connective : Connective) (negated : Bool) :
    Builds registry q (r.addRelated connective link sub negated) :=
  h.clause connective (.related link sub negated) (fun _ => relation) (fun _ => blank)
    (by simpa [predicateQuestions] using hlink) (by simpa [predicateQuestions] using hsub)

theorem Builds.counted (connective : Connective) (op : Comparison) (bound : Int) :
    Builds registry q (r.addCounted connective link sub op bound) :=
  h.clause connective (.counted link sub op bound) (fun _ => relation) (fun _ => blank)
    (by simpa [predicateQuestions] using hlink) (by simpa [predicateQuestions] using hsub)

end

/-! ## Sound queries -/

/-- A question whose link leads from rows under a qualifier to the rows of its query, which have
another qualifier, and the same of the questions inside it. -/
inductive Correlated : String → Link × Query → Prop where
  | intro {qualifier : String} {link : Link} {query : Query} :
      link.parent = qualifier → link.relatedTable = query.entity.table →
      link.related = query.qualifier → query.qualifier ≠ qualifier →
      (∀ asked ∈ clausesQuestions query.clauses, Correlated query.qualifier asked) →
      Correlated qualifier (link, query)

/-- A join whose conditions besides its keys are tests of global scopes. -/
def Join.OnlyScopes (j : Join) : Prop :=
  ∀ p ∈ j.conditions, ∃ (scope : GlobalScope) (entity : Entity) (qualifier : String),
    p = .test (scope.test entity qualifier)

/-- A query whose questions are correlated with it, and whose joins are told apart and ask for
global scopes only. -/
structure Query.Sound (q : Query) : Prop where
  correlated : ∀ asked ∈ q.questions, Correlated q.qualifier asked
  onlyScopes : ∀ j ∈ q.joins, j.OnlyScopes
  aliases : (q.joins.map Join.tableAlias).Nodup

namespace Query

theorem qualifier_eq_of_group {q r : Query} (h : q.group = r.group) :
    q.qualifier = r.qualifier := by
  unfold qualifier
  rw [tableAlias_eq_of_group h, entity_eq_of_group h]

/-- A query on a related entity never has the qualifier of the query that asks it. -/
theorem inner_qualifier_ne (q : Query) (related : Entity) :
    (q.inner related).qualifier ≠ q.qualifier := by
  show (if related.table = q.qualifier then
    some (related.table ++ "_" ++ Text.natText (q.depth + 1)) else none).getD related.table ≠ _
  split
  next heq =>
    intro hsame
    have hlength : (related.table ++ "_" ++ Text.natText (q.depth + 1)).length =
        related.table.length := congrArg String.length (hsame.trans heq.symm)
    rw [String.length_append, String.length_append] at hlength
    have hmark : "_".length = 1 := rfl
    omega
  next hne => exact hne

theorem Sound.of_clauses {q r : Query} (h : q.Sound) (hgroup : r.group = q.group)
    (hjoins : r.joins = q.joins) (haggregates : r.aggregates = q.aggregates)
    (hclauses : ∀ asked ∈ clausesQuestions r.clauses,
      asked ∈ clausesQuestions q.clauses ∨ Correlated q.qualifier asked) : r.Sound := by
  refine ⟨fun asked hasked => ?_, hjoins ▸ h.onlyScopes, hjoins ▸ h.aliases⟩
  rw [qualifier_eq_of_group hgroup]
  rcases mem_questions.mp hasked with hmem | hmem
  · rw [haggregates] at hmem
    exact h.correlated asked (mem_questions.mpr (.inl hmem))
  · rcases hclauses asked hmem with hold | hnew
    · exact h.correlated asked (mem_questions.mpr (.inr hold))
    · exact hnew

theorem Sound.of_bare {q r : Query} (h : q.Sound) (hbare : r.bare = q.bare) : r.Sound := by
  refine h.of_clauses (congrArg group hbare :) (congrArg joins hbare :)
    (congrArg aggregates hbare :) fun asked hasked => .inl ?_
  have hclauses : r.bare.clauses = q.bare.clauses := congrArg clauses hbare
  exact hclauses ▸ hasked

/-- A query without clauses, joins and aggregates. -/
theorem Sound.blank {q : Query} (hclauses : q.clauses = []) (hjoins : q.joins = [])
    (haggregates : q.aggregates = []) : q.Sound := by
  refine ⟨fun asked hasked => ?_, by simp [hjoins], by simp [hjoins]⟩
  rw [questions, hclauses, haggregates, clausesQuestions] at hasked
  exact absurd hasked List.not_mem_nil

/-- A question about related rows whose query is sound. -/
theorem correlated_of_relationQuery {registry : Registry} {q blank sub : Query} {link : Link}
    {relation : String} (hlink : q.relationQuery registry relation = .ok (link, blank))
    (hgroup : sub.group = blank.group) (hsub : sub.Sound) : Correlated q.qualifier (link, sub) := by
  rw [relationQuery_eq] at hlink
  obtain ⟨⟨found, related⟩, -, heq⟩ := map_eq_ok hlink
  cases heq
  have hqualifier := qualifier_eq_of_group hgroup
  refine .intro rfl ?_ hqualifier.symm ?_ fun asked hasked =>
    hsub.correlated asked (mem_questions.mpr (.inr hasked))
  · rw [entity_eq_of_group hgroup]
    rfl
  · rw [hqualifier]
    exact q.inner_qualifier_ne related

theorem Sound.of_relationQuery {registry : Registry} {q blank : Query} {link : Link}
    {relation : String} (hlink : q.relationQuery registry relation = .ok (link, blank)) :
    blank.Sound := by
  rw [relationQuery_eq] at hlink
  obtain ⟨⟨found, related⟩, -, heq⟩ := map_eq_ok hlink
  cases heq
  exact .blank rfl rfl rfl

/-! ## Joins and aggregates keep queries sound -/

theorem Sound.addJoin {q : Query} (h : q.Sound) {join : Join} (hjoin : join.OnlyScopes) :
    (q.addJoin join).Sound := by
  unfold Query.addJoin
  split
  · exact h
  next hfree =>
    refine ⟨h.correlated, fun j hj => ?_, aliases_nodup_append h.aliases hfree⟩
    rcases List.mem_append.mp hj with hj | hj
    · exact h.onlyScopes j hj
    · rw [List.mem_singleton.mp hj]
      exact hjoin

theorem Sound.addJoins {q : Query} (h : q.Sound) {joins : List Join}
    (hjoins : ∀ j ∈ joins, j.OnlyScopes) : (joins.foldl Query.addJoin q).Sound := by
  induction joins generalizing q with
  | nil => exact h
  | cons j joins ih =>
    exact ih (h.addJoin (hjoins j List.mem_cons_self)) fun j' hj' =>
      hjoins j' (List.mem_cons_of_mem j hj')

theorem Sound.addAggregate {q : Query} (h : q.Sound) {a : Aggregate}
    (ha : Correlated q.qualifier (a.link, a.query)) : (q.addAggregate a).Sound := by
  unfold Query.addAggregate
  split
  · exact h
  · refine ⟨fun asked hasked => ?_, h.onlyScopes, h.aliases⟩
    rcases mem_questions.mp hasked with ⟨b, hb, rfl⟩ | hmem
    · rcases List.mem_append.mp hb with hb | hb
      · exact h.correlated _ (mem_questions.mpr (.inl ⟨b, hb, rfl⟩))
      · rw [List.mem_singleton.mp hb]
        exact ha
    · exact h.correlated asked (mem_questions.mpr (.inr hmem))

theorem addAggregate_group (q : Query) (a : Aggregate) : (q.addAggregate a).group = q.group :=
  addAggregate_keeps group (fun _ _ => rfl) q a

theorem addJoin_group (q : Query) (j : Join) : (q.addJoin j).group = q.group :=
  addJoin_keeps group (fun _ _ => rfl) q j

theorem Sound.addAggregates {q : Query} (h : q.Sound) {aggregates : List Aggregate}
    (haggregates : ∀ a ∈ aggregates, Correlated q.qualifier (a.link, a.query)) :
    (aggregates.foldl Query.addAggregate q).Sound := by
  induction aggregates generalizing q with
  | nil => exact h
  | cons a aggregates ih =>
    refine ih (h.addAggregate (haggregates a List.mem_cons_self)) fun b hb => ?_
    rw [qualifier_eq_of_group (addAggregate_group q a)]
    exact haggregates b (List.mem_cons_of_mem a hb)

/-- A join along a relation has the tests of the scopes of the related entity. -/
theorem relationJoin_onlyScopes {found : Relation} {related : Entity}
    {relation parent tableAlias : String} {join : Join}
    (h : relationJoin found related relation parent tableAlias = some join) : join.OnlyScopes := by
  unfold relationJoin at h
  cases hkind : (found.link relation parent related.table tableAlias).kind <;> rw [hkind] at h
  case direct parentColumn relatedColumn =>
    cases h
    intro p hp
    obtain ⟨scope, -, rfl⟩ := List.mem_map.mp hp
    exact ⟨scope, related, tableAlias, rfl⟩
  case pivot => cases h

theorem joinFrom_sound {registry : Registry} {walked : List String} {entity : Entity}
    {parent tableAlias : String} {relations : List String} {q r : Query}
    (h : joinFrom registry walked entity parent relations q = .ok (tableAlias, r)) (hq : q.Sound) :
    r.group = q.group ∧ r.Sound := by
  induction relations generalizing walked entity parent q with
  | nil =>
    cases h
    exact ⟨rfl, hq⟩
  | cons relation rest ih =>
    unfold joinFrom at h
    rcases hrelated : registry.related entity relation with e | ⟨found, related⟩ <;>
      simp only [hrelated] at h
    · cases h
    split at h
    · cases h
    cases hjoin : relationJoin found related relation parent
        (Text.join "_" (walked ++ [relation])) with
    | none =>
      rw [hjoin] at h
      exact ih h hq
    | some join =>
      rw [hjoin] at h
      obtain ⟨hgroup, hr⟩ := ih h (hq.addJoin (relationJoin_onlyScopes hjoin))
      exact ⟨hgroup.trans (addJoin_group q join), hr⟩

/-! ## Building keeps queries sound -/

theorem addParts_bare (q g : Query) :
    (q.addParts g).bare = (g.aggregates.foldl addAggregate (g.joins.foldl addJoin q)).bare := by
  unfold addParts
  exact load_keeps bare (fun _ _ => rfl) _ g.eager

theorem addParts_group (q g : Query) : (q.addParts g).group = q.group := by
  rw [addParts_keeps group (fun _ _ => rfl) (fun _ _ => rfl) (fun _ _ => rfl)]
  exact foldl_keeps group addJoin addJoin_group q g.joins

theorem Sound.addParts {q g : Query} (hq : q.Sound) (hg : g.Sound) (hgroup : g.group = q.group) :
    (q.addParts g).Sound := by
  have hjoins : (g.joins.foldl Query.addJoin q).group = g.group :=
    (foldl_keeps group Query.addJoin addJoin_group q g.joins).trans hgroup.symm
  have hparts := (hq.addJoins hg.onlyScopes).addAggregates fun a ha => by
    rw [qualifier_eq_of_group hjoins]
    exact hg.correlated _ (mem_questions.mpr (.inl ⟨a, ha, rfl⟩))
  exact hparts.of_bare (addParts_bare q g)

theorem Sound.addClause {q : Query} (h : q.Sound) (connective : Connective) {p : Predicate}
    (hp : ∀ asked ∈ predicateQuestions p, Correlated q.qualifier asked) :
    (q.addClause connective p).Sound := by
  refine h.of_clauses rfl rfl rfl fun asked hasked => ?_
  have hmem : asked ∈ clausesQuestions (q.clauses ++ [⟨connective, p⟩]) := hasked
  rw [clausesQuestions_append, clausesQuestions_single, List.mem_append] at hmem
  exact hmem.imp_right (hp asked)

theorem Sound.addGroup {q g : Query} (hq : q.Sound) (hg : g.Sound) (hgroup : g.group = q.group)
    (connective : Connective) : (q.addGroup connective g).Sound := by
  have hparts := hq.addParts hg hgroup
  have hquestions := g.groupPredicate_questions
  rw [addGroup_eq]
  cases hp : g.groupPredicate with
  | none => exact hparts
  | some p =>
    rw [hp, Option.toList_some, List.flatMap_singleton] at hquestions
    refine hparts.addClause connective fun asked hasked => ?_
    rw [qualifier_eq_of_group ((addParts_group q g).trans hgroup.symm)]
    exact hg.correlated asked (mem_questions.mpr (.inr (hquestions ▸ hasked)))

theorem addGroup_group (q : Query) (connective : Connective) (g : Query) :
    (q.addGroup connective g).group = q.group := by
  rw [addGroup_eq]
  cases g.groupPredicate with
  | none => exact addParts_group q g
  | some p => exact addParts_group q g

end Query

/-- Building keeps the table of a query and keeps it sound: induction over the steps, in which the
queries of questions, groups and aggregates are built along. -/
theorem Builds.sound {registry : Registry} {q r : Query} (h : Builds registry q r) (hq : q.Sound) :
    r.group = q.group ∧ r.Sound := by
  induction h with
  | start q => exact ⟨rfl, hq⟩
  | clause connective p relation blank _ hlinks _ ih ihs =>
    obtain ⟨hgroup, hr⟩ := ih hq
    refine ⟨hgroup, hr.addClause connective fun asked hasked => ?_⟩
    have hlink := hlinks asked hasked
    obtain ⟨hsame, hsound⟩ := ihs asked hasked (.of_relationQuery hlink)
    exact Query.correlated_of_relationQuery hlink hsame hsound
  | group connective _ _ ih ihg =>
    obtain ⟨hgroup, hr⟩ := ih hq
    obtain ⟨hsame, hg⟩ := ihg (.blank rfl rfl rfl)
    exact ⟨(Query.addGroup_group ..).trans hgroup, hr.addGroup hg hsame connective⟩
  | join _ hjoin ih =>
    obtain ⟨hgroup, hr⟩ := ih hq
    obtain ⟨hsame, hs⟩ := Query.joinFrom_sound hjoin hr
    exact ⟨hsame.trans hgroup, hs⟩
  | aggregate relation function column name _ hlink _ ih ihs =>
    obtain ⟨hgroup, hr⟩ := ih hq
    obtain ⟨hsame, hsound⟩ := ihs (.of_relationQuery hlink)
    exact ⟨(Query.addAggregate_group ..).trans hgroup,
      hr.addAggregate (Query.correlated_of_relationQuery hlink hsame hsound)⟩
  | dress _ hbare ih =>
    obtain ⟨hgroup, hr⟩ := ih hq
    exact ⟨(congrArg Query.group hbare :).trans hgroup, hr.of_bare hbare⟩

theorem Built.sound {registry : Registry} {q : Query} (h : Built registry q) : q.Sound := by
  obtain ⟨entity, hbuilds⟩ := h
  exact (hbuilds.sound (.blank rfl rfl rfl)).2

end Winnow
