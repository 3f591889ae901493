import Winnow.Proofs.Engine.Aggregates
import Winnow.Proofs.Keyed
import Winnow.Proofs.Query.Built

/-!
# Projected aggregates

An aggregate that a query is given keeps its name: whatever is built later
appends aggregates under other names only (`Builds.aggregates_append`).  So the
engine projects under the name what it aggregates over the related rows
(`project_aggregate`), which are the visible rows that the relation leads to.
-/

namespace Winnow

open Engine Condition

/-! ## Building -/

/-- Aggregates that one query has besides those of another have names of their own. -/
def Query.AddsAggregates (q r : Query) : Prop :=
  ∃ later, r.aggregates = q.aggregates ++ later ∧
    ∀ a ∈ later, q.hasAggregate a.outputName = false

namespace Query

theorem AddsAggregates.of_eq {q r : Query} (h : r.aggregates = q.aggregates) :
    q.AddsAggregates r :=
  ⟨[], by rw [h, List.append_nil], List.forall_mem_nil _⟩

theorem AddsAggregates.congr {q r s : Query} (h : q.AddsAggregates r)
    (heq : s.aggregates = r.aggregates) : q.AddsAggregates s := by
  obtain ⟨later, hlater, hnames⟩ := h
  exact ⟨later, heq.trans hlater, hnames⟩

theorem AddsAggregates.addAggregate {q r : Query} (h : q.AddsAggregates r) (a : Aggregate) :
    q.AddsAggregates (r.addAggregate a) := by
  obtain ⟨later, hlater, hnames⟩ := h
  unfold Query.addAggregate
  split
  next htaken => exact ⟨later, hlater, hnames⟩
  next hfree =>
    refine ⟨later ++ [a], ?_, ?_⟩
    · show r.aggregates ++ [a] = _
      rw [hlater, List.append_assoc]
    · intro b hb
      rcases List.mem_append.mp hb with hb | hb
      · exact hnames b hb
      · rw [List.mem_singleton.mp hb, ← Bool.not_eq_true]
        intro htaken
        refine hfree ?_
        unfold hasAggregate at htaken ⊢
        rw [hlater, List.any_append, htaken, Bool.true_or]

theorem AddsAggregates.addAggregates {q r : Query} (h : q.AddsAggregates r)
    (aggregates : List Aggregate) : q.AddsAggregates (aggregates.foldl Query.addAggregate r) := by
  induction aggregates generalizing r with
  | nil => exact h
  | cons a aggregates ih => exact ih (h.addAggregate a)

theorem addParts_aggregates (q g : Query) :
    (q.addParts g).aggregates =
      (g.aggregates.foldl addAggregate (g.joins.foldl addJoin q)).aggregates := by
  have hbare : (q.addParts g).bare.aggregates = _ := congrArg aggregates (addParts_bare q g)
  exact hbare

theorem addGroup_aggregates (q : Query) (connective : Connective) (g : Query) :
    (q.addGroup connective g).aggregates = (q.addParts g).aggregates := by
  rw [addGroup_eq]
  cases g.groupPredicate <;> rfl

/-- A group adds its aggregates to a query with those that were there. -/
theorem addGroup_aggregates_eq (q : Query) (connective : Connective) (g : Query) :
    ∃ joined : Query, joined.aggregates = q.aggregates ∧
      (q.addGroup connective g).aggregates =
        (g.aggregates.foldl Query.addAggregate joined).aggregates := by
  refine ⟨g.joins.foldl Query.addJoin q, ?_, ?_⟩
  · exact foldl_keeps aggregates Query.addJoin (addJoin_keeps aggregates fun _ _ => rfl) q g.joins
  · rw [addGroup_aggregates, addParts_aggregates]

end Query

/-- Building on keeps the aggregates of a query, and their names to themselves. -/
theorem Builds.aggregates_append {registry : Registry} {q r : Query} (h : Builds registry q r) :
    q.AddsAggregates r := by
  induction h with
  | start q => exact .of_eq rfl
  | clause _ _ _ _ _ _ _ ih => exact ih.congr rfl
  | @group q r g connective _ _ ih _ =>
    obtain ⟨joined, hjoined, haggregates⟩ := Query.addGroup_aggregates_eq r connective g
    exact ((ih.congr hjoined).addAggregates g.aggregates).congr haggregates
  | join _ hjoin ih =>
    exact ih.congr (Query.joinFrom_keeps Query.aggregates (fun _ _ => rfl) hjoin)
  | aggregate _ _ _ _ _ _ _ ih => exact ih.addAggregate _
  | dress _ hbare ih => exact ih.congr (congrArg Query.aggregates hbare :)

namespace Query

/-! ## Aggregates that are asked for -/

/-- The aggregate that a call asks for. -/
def aggregateOver (q : Query) (registry : Registry) (relation : String)
    (function : AggregateFunction) (column : Option String) : Except CompileError Aggregate :=
  (q.relationQuery registry relation).map fun (link, related) =>
    ⟨link, related, function, column, aggregateName relation function column⟩

section
variable {registry : Registry} {relation : String} {function : AggregateFunction}
  {column : Option String}

theorem outputName_of_aggregateOver {q : Query} {a : Aggregate}
    (h : q.aggregateOver registry relation function column = .ok a) :
    a.outputName = aggregateName relation function column := by
  obtain ⟨found, -, rfl⟩ := map_eq_ok h
  rfl

theorem relation_of_aggregateOver {q : Query} {a : Aggregate}
    (h : q.aggregateOver registry relation function column = .ok a) : a.link.name = relation := by
  unfold aggregateOver at h
  rw [relationQuery_eq] at h
  obtain ⟨found, hfound, rfl⟩ := map_eq_ok h
  obtain ⟨related, -, rfl⟩ := map_eq_ok hfound
  rfl

/-- The table that a query is on decides what a call asks for. -/
theorem aggregateOver_congr {q r : Query} (h : q.group = r.group) :
    q.aggregateOver registry relation function column =
      r.aggregateOver registry relation function column := by
  have hdepth : q.group.depth = r.group.depth := congrArg depth h
  have hinner : ∀ related, q.inner related = r.inner related := by
    intro related
    unfold inner
    rw [qualifier_eq_of_group h, show q.depth = r.depth from hdepth]
  unfold aggregateOver
  rw [relationQuery_eq, relationQuery_eq, entity_eq_of_group h, qualifier_eq_of_group h]
  simp only [hinner]

/-- A call leaves a query alone when the name is taken and appends what it asks for otherwise. -/
theorem aggregate_cases {q s : Query} {name : String}
    (h : q.aggregate registry relation function column = .ok (name, s)) :
    name = aggregateName relation function column ∧
      (q.hasAggregate name = true ∧ s = q ∨ q.hasAggregate name = false ∧ ∃ a,
        q.aggregateOver registry relation function column = .ok a ∧ s = q.addAggregate a) := by
  unfold Query.aggregate at h
  simp only at h
  split at h
  next htaken =>
    cases h
    exact ⟨rfl, .inl ⟨htaken, rfl⟩⟩
  next hfree =>
    obtain ⟨⟨link, related⟩, hquery, h⟩ := bind_eq_ok h
    have hover : q.aggregateOver registry relation function column =
        .ok ⟨link, related, function, column, aggregateName relation function column⟩ := by
      unfold aggregateOver
      rw [hquery]
      rfl
    have hfree := Bool.eq_false_iff.mpr hfree
    cases column with
    | none =>
      cases h
      exact ⟨rfl, .inr ⟨hfree, _, hover, rfl⟩⟩
    | some column =>
      simp only at h
      split at h
      · cases h
      · cases h
        exact ⟨rfl, .inr ⟨hfree, _, hover, rfl⟩⟩

end

/-- An aggregate that gets a name of its own is over the query of its relation, and its column is
one of the related entity. -/
theorem aggregate_new {registry : Registry} {q q' : Query} {relation name : String}
    {function : AggregateFunction} {column : Option String}
    (h : q.aggregate registry relation function column = .ok (name, q'))
    (hnew : q.hasAggregate name = false) :
    ∃ found related, registry.related q.entity relation = .ok (found, related) ∧
      q'.aggregates = q.aggregates ++
        [⟨found.link relation q.qualifier related.table (q.inner related).qualifier,
          q.inner related, function, column, name⟩] := by
  obtain ⟨rfl, ⟨htaken, -⟩ | ⟨-, a, hover, rfl⟩⟩ := aggregate_cases h
  · rw [hnew] at htaken
    cases htaken
  · have hadded : (q.addAggregate a).aggregates = q.aggregates ++ [a] := by
      unfold addAggregate
      rw [outputName_of_aggregateOver hover, if_neg (Bool.eq_false_iff.mp hnew)]
    obtain ⟨pair, hquery, rfl⟩ := map_eq_ok hover
    rw [relationQuery_eq] at hquery
    obtain ⟨⟨found, related⟩, hrelated, rfl⟩ := map_eq_ok hquery
    exact ⟨found, related, hrelated, hadded⟩

end Query

/-! ## Projecting -/

namespace Engine

variable (db : Dataset)

theorem value_put (row : Row) (name other : String) (v : Value) :
    Row.value (Keyed.put row name v) other = if name = other then v else row.value other := by
  unfold Row.value
  rw [Keyed.get?_put]
  split <;> rfl

theorem foldl_put_other (frame : Frame) {name : String} {aggregates : List Aggregate} (row : Row)
    (h : ∀ a ∈ aggregates, a.outputName ≠ name) :
    Row.value (aggregates.foldl (fun row a => Keyed.put row a.outputName (aggregate db frame a)) row)
      name = row.value name := by
  induction aggregates generalizing row with
  | nil => rfl
  | cons a aggregates ih =>
    obtain ⟨ha, hrest⟩ := List.forall_mem_cons.mp h
    rw [List.foldl_cons, ih _ hrest, value_put, if_neg ha]

/-- Under the name of the last aggregate that has it a query projects this aggregate. -/
theorem project_aggregate (frame : Frame) {q : Query} {before later : List Aggregate}
    {a : Aggregate} (haggregates : q.aggregates = before ++ a :: later)
    (hlater : ∀ b ∈ later, b.outputName ≠ a.outputName) :
    (project db q frame).value a.outputName = aggregate db frame a := by
  unfold project
  rw [haggregates, List.foldl_append, List.foldl_cons, foldl_put_other db frame _ hlater, value_put,
    if_pos rfl]

/-- The rows of an aggregate over a relation are the visible rows that it leads to. -/
theorem matchingRows_inner {frame : Frame} {q : Query} {row : Row}
    (h : frame.row? q.qualifier = some row) (found : Relation) (related : Entity)
    (relation : String) :
    matchingRows db frame
        (found.link relation q.qualifier related.table (q.inner related).qualifier)
        (q.inner related) = reachedBy db found related row := by
  unfold matchingRows reachedBy
  rw [candidates_link db h]
  exact List.filter_congr fun r _ => relatedHolds_bare db related r

/-- Without a column no value is aggregated, so there is a result only where rows are counted. -/
theorem fold_nil {function : AggregateFunction} (hcount : function ≠ .count)
    (hexists : function ≠ .exists_) (count : Nat) : fold function [] count = .null := by
  cases function with
  | count => exact absurd rfl hcount
  | exists_ => exact absurd rfl hexists
  | sum | min | max | avg => rfl

end Engine
end Winnow
