import Mathlib.Data.List.Nodup
import Winnow.Proofs.Query.Aggregates
import Winnow.Proofs.Text.Cutting

/-!
# Names of aggregates

No two aggregates of a query share a name (`Projects.distinct`).  A call for an
aggregate gives the name of its relation, function and column, and finds the
query with one aggregate of that name; this is the one that was asked for unless
another one had the name before (`aggregates_named`).  Names are told apart when
relations are not named like aggregates themselves (`aggregateName_injective`).
-/

namespace Winnow

open Engine Text

/-! ## Names -/

theorem AggregateFunction.name_injective {f g : AggregateFunction} (h : f.name = g.name) :
    f = g := by
  revert h
  cases f <;> cases g <;> decide

/-- The names of the functions. -/
def functionNames : List String :=
  [AggregateFunction.count, .sum, .min, .max, .avg, .exists_].map AggregateFunction.name

theorem AggregateFunction.name_mem (f : AggregateFunction) : f.name ∈ functionNames := by
  cases f <;> decide

/-- Whether no part of the name of a relation, but perhaps the first, is the name of a function. -/
def PlainRelation (relation : String) : Prop :=
  ∀ piece ∈ (split '_' relation).tail, piece ∉ functionNames

instance (relation : String) : Decidable (PlainRelation relation) :=
  inferInstanceAs (Decidable (∀ piece ∈ _, _))

namespace Query

theorem split_aggregateName (relation : String) (function : AggregateFunction)
    (column : Option String) :
    split '_' (aggregateName relation function column) =
      split '_' relation ++ function.name :: (column.map (split '_')).getD [] := by
  have hname : split '_' function.name = [function.name] := by
    cases function <;> exact split_of_not_mem (by decide)
  have hfront : split '_' (relation ++ "_" ++ function.name) =
      split '_' relation ++ [function.name] := by
    rw [← hname]
    exact split_append_sep '_' relation function.name
  unfold aggregateName
  cases column with
  | none => exact hfront
  | some column =>
    refine (split_append_sep '_' (relation ++ "_" ++ function.name) column).trans ?_
    rw [hfront, List.append_assoc]
    rfl

/-- The first piece that is the name of a function is where a list is cut. -/
theorem cut_at_function {front front' back back' : List String} {f f' : String}
    (hfront : ∀ piece ∈ front, piece ∉ functionNames)
    (hfront' : ∀ piece ∈ front', piece ∉ functionNames) (hf : f ∈ functionNames)
    (hf' : f' ∈ functionNames) (h : front ++ f :: back = front' ++ f' :: back') :
    front = front' ∧ f = f' ∧ back = back' := by
  induction front generalizing front' with
  | nil =>
    cases front' with
    | nil =>
      cases h
      exact ⟨rfl, rfl, rfl⟩
    | cons piece front' =>
      cases h
      exact absurd hf (hfront' f List.mem_cons_self)
  | cons piece front ih =>
    cases front' with
    | nil =>
      cases h
      exact absurd hf' (hfront f' List.mem_cons_self)
    | cons piece' front' =>
      obtain ⟨hpiece, hrest⟩ := List.cons_eq_cons.mp h
      obtain ⟨rfl, hf, hback⟩ := ih (fun p hp => hfront p (List.mem_cons_of_mem _ hp))
        (fun p hp => hfront' p (List.mem_cons_of_mem _ hp)) hrest
      exact ⟨by rw [hpiece], hf, hback⟩

/-- The name of an aggregate tells its relation, its function and its column, when relations are not
named like aggregates. -/
theorem aggregateName_injective {relation relation' : String}
    {function function' : AggregateFunction} {column column' : Option String}
    (hplain : PlainRelation relation) (hplain' : PlainRelation relation')
    (h : aggregateName relation function column = aggregateName relation' function' column') :
    relation = relation' ∧ function = function' ∧ column = column' := by
  have hpieces := congrArg (split '_') h
  rw [split_aggregateName, split_aggregateName] at hpieces
  obtain ⟨first, rest, hrelation⟩ := List.exists_cons_of_ne_nil (split_ne_nil '_' relation)
  obtain ⟨first', rest', hrelation'⟩ := List.exists_cons_of_ne_nil (split_ne_nil '_' relation')
  unfold PlainRelation at hplain hplain'
  rw [hrelation, List.tail_cons] at hplain
  rw [hrelation', List.tail_cons] at hplain'
  rw [hrelation, hrelation'] at hpieces
  obtain ⟨hfirst, hpieces⟩ := List.cons_eq_cons.mp hpieces
  obtain ⟨hrest, hfunction, hcolumn⟩ := cut_at_function hplain hplain' function.name_mem
    function'.name_mem hpieces
  refine ⟨?_, AggregateFunction.name_injective hfunction, ?_⟩
  · have hsame : split '_' relation = split '_' relation' := by
      rw [hrelation, hrelation', hfirst, hrest]
    exact split_injective hsame
  · cases column with
    | none =>
      cases column' with
      | none => rfl
      | some column' => exact absurd hcolumn.symm (split_ne_nil '_' column')
    | some column =>
      cases column' with
      | none => exact absurd hcolumn (split_ne_nil '_' column)
      | some column' => exact congrArg some (split_injective hcolumn)

/-! ## Names apart -/

/-- Whether no two aggregates share a name. -/
def DistinctNames (q : Query) : Prop := (q.aggregates.map Aggregate.outputName).Nodup

theorem DistinctNames.eq {q : Query} (h : q.DistinctNames) {a b : Aggregate}
    (ha : a ∈ q.aggregates) (hb : b ∈ q.aggregates) (hname : a.outputName = b.outputName) : a = b :=
  List.inj_on_of_nodup_map h ha hb hname

theorem hasAggregate_iff {q : Query} {name : String} :
    q.hasAggregate name = true ↔ ∃ a ∈ q.aggregates, a.outputName = name := by
  simp [hasAggregate]

theorem DistinctNames.addAggregate {q : Query} (h : q.DistinctNames) (a : Aggregate) :
    (q.addAggregate a).DistinctNames := by
  unfold Query.addAggregate
  split
  next => exact h
  next hfree =>
    show ((q.aggregates ++ [a]).map Aggregate.outputName).Nodup
    rw [List.map_append, List.map_singleton, ← List.concat_eq_append]
    exact h.concat fun htaken => hfree (hasAggregate_iff.mpr (List.mem_map.mp htaken))

theorem DistinctNames.addAggregates {q : Query} (h : q.DistinctNames) (added : List Aggregate) :
    (added.foldl Query.addAggregate q).DistinctNames := by
  induction added generalizing q with
  | nil => exact h
  | cons a added ih => exact ih (h.addAggregate a)

/-- Whatever group is put in, names stay apart. -/
theorem DistinctNames.addGroup {q : Query} (h : q.DistinctNames) (connective : Connective)
    (g : Query) : (q.addGroup connective g).DistinctNames := by
  obtain ⟨joined, hjoined, haggregates⟩ := addGroup_aggregates_eq q connective g
  have hdistinct : joined.DistinctNames := by
    unfold DistinctNames
    rw [hjoined]
    exact h
  unfold DistinctNames
  rw [haggregates]
  exact hdistinct.addAggregates g.aggregates

theorem mem_addAggregate {q : Query} {a b : Aggregate} :
    b ∈ (q.addAggregate a).aggregates ↔
      b ∈ q.aggregates ∨ b = a ∧ q.hasAggregate a.outputName = false := by
  unfold addAggregate
  cases hfree : q.hasAggregate a.outputName <;> simp

/-- Aggregates are those that were there and some of those that are added. -/
theorem mem_addAggregates {q : Query} {added : List Aggregate} {b : Aggregate}
    (hb : b ∈ (added.foldl Query.addAggregate q).aggregates) : b ∈ q.aggregates ∨ b ∈ added := by
  induction added generalizing q with
  | nil => exact .inl hb
  | cons a added ih =>
    rcases ih hb with hb | hb
    · rcases mem_addAggregate.mp hb with hb | ⟨rfl, -⟩
      · exact .inl hb
      · exact .inr List.mem_cons_self
    · exact .inr (List.mem_cons_of_mem a hb)

theorem hasAggregate_addAggregate (q : Query) (a : Aggregate) :
    (q.addAggregate a).hasAggregate a.outputName = true := by
  unfold addAggregate
  split
  next htaken => exact htaken
  next => exact hasAggregate_iff.mpr ⟨a, List.mem_append_right _ List.mem_cons_self, rfl⟩

/-- The name of an aggregate that is added is taken in the end. -/
theorem hasAggregate_addAggregates {q : Query} {added : List Aggregate} {a : Aggregate}
    (ha : a ∈ added) : (added.foldl Query.addAggregate q).hasAggregate a.outputName = true := by
  induction added generalizing q with
  | nil => cases ha
  | cons first added ih =>
    rcases List.mem_cons.mp ha with rfl | ha
    · obtain ⟨later, hlater, -⟩ :=
        (AddsAggregates.of_eq (q := q.addAggregate a) rfl).addAggregates added
      obtain ⟨b, hb, hname⟩ := hasAggregate_iff.mp (q.hasAggregate_addAggregate a)
      refine hasAggregate_iff.mpr ⟨b, ?_, hname⟩
      rw [List.foldl_cons, hlater]
      exact List.mem_append_left later hb
    · exact ih ha

end Query

/-! ## Calls -/

/-- Ways to go on with a query: calls for aggregates, groups that are collected likewise, and
whatever changes neither its table nor its aggregates. -/
inductive Projects (registry : Registry) : Query → Query → Prop where
  | start (q : Query) : Projects registry q q
  | aggregate {q r s : Query} {relation name : String} {function : AggregateFunction}
      {column : Option String} : Projects registry q r →
      r.aggregate registry relation function column = .ok (name, s) → Projects registry q s
  | group {q r g : Query} (connective : Connective) :
      Projects registry q r → Projects registry r.group g →
      Projects registry q (r.addGroup connective g)
  | other {q r s : Query} : Projects registry q r → s.group = r.group →
      s.aggregates = r.aggregates → Projects registry q s

namespace Projects

variable {registry : Registry} {q r : Query} (h : Projects registry q r)

include h

theorem distinct (hq : q.DistinctNames) : r.DistinctNames := by
  induction h with
  | start q => exact hq
  | aggregate _ hcall ih =>
    obtain ⟨-, ⟨-, rfl⟩ | ⟨-, a, -, rfl⟩⟩ := Query.aggregate_cases hcall
    · exact ih hq
    · exact (ih hq).addAggregate a
  | @group q r g connective _ _ ih _ => exact (ih hq).addGroup connective g
  | other _ _ haggregates ih =>
    unfold Query.DistinctNames
    rw [haggregates]
    exact ih hq

theorem group_eq : r.group = q.group := by
  induction h with
  | start q => rfl
  | aggregate _ hcall ih =>
    obtain ⟨-, ⟨-, rfl⟩ | ⟨-, a, -, rfl⟩⟩ := Query.aggregate_cases hcall
    · exact ih
    · exact (Query.addAggregate_group _ a).trans ih
  | @group q r g connective _ _ ih _ => exact (Query.addGroup_group r connective g).trans ih
  | other _ hgroup _ ih => exact hgroup.trans ih

/-- Aggregates keep their names. -/
theorem addsAggregates : q.AddsAggregates r := by
  induction h with
  | start q => exact .of_eq rfl
  | aggregate _ hcall ih =>
    obtain ⟨-, ⟨-, rfl⟩ | ⟨-, a, -, rfl⟩⟩ := Query.aggregate_cases hcall
    · exact ih
    · exact ih.addAggregate a
  | @group q r g connective _ _ ih _ =>
    obtain ⟨joined, hjoined, haggregates⟩ := Query.addGroup_aggregates_eq r connective g
    exact ((ih.congr hjoined).addAggregates g.aggregates).congr haggregates
  | other _ _ haggregates ih => exact ih.congr haggregates

end Projects

/-- Whether every aggregate of a query is one that a call asks for. -/
def Query.AllAsked (registry : Registry) (q : Query) : Prop :=
  ∀ a ∈ q.aggregates, ∃ relation function column,
    q.aggregateOver registry relation function column = .ok a

theorem Query.AllAsked.of_group {registry : Registry} {q r : Query} (hgroup : r.group = q.group)
    (hq : q.AllAsked registry) {a : Aggregate} (ha : a ∈ q.aggregates) :
    ∃ relation function column, r.aggregateOver registry relation function column = .ok a := by
  obtain ⟨relation, function, column, hover⟩ := hq a ha
  exact ⟨relation, function, column, (Query.aggregateOver_congr hgroup).trans hover⟩

theorem Projects.allAsked {registry : Registry} {q r : Query} (h : Projects registry q r)
    (hq : q.AllAsked registry) : r.AllAsked registry := by
  induction h with
  | start q => exact hq
  | @aggregate q r s relation name function column _ hcall ih =>
    obtain ⟨-, ⟨-, rfl⟩ | ⟨-, a, hover, rfl⟩⟩ := Query.aggregate_cases hcall
    · exact ih hq
    · intro b hb
      have hgroup := Query.addAggregate_group r a
      rcases Query.mem_addAggregate.mp hb with hb | ⟨rfl, -⟩
      · exact (ih hq).of_group hgroup hb
      · exact ⟨relation, function, column, (Query.aggregateOver_congr hgroup).trans hover⟩
  | @group q r g connective _ hg ih ihg =>
    intro b hb
    obtain ⟨joined, hjoined, haggregates⟩ := Query.addGroup_aggregates_eq r connective g
    have hgroup := Query.addGroup_group r connective g
    rw [haggregates] at hb
    rcases Query.mem_addAggregates hb with hb | hb
    · rw [hjoined] at hb
      exact (ih hq).of_group hgroup hb
    · have hblank : r.group.AllAsked registry := fun a ha => absurd ha List.not_mem_nil
      exact (ihg hblank).of_group (hgroup.trans hg.group_eq.symm) hb
  | other _ hgroup haggregates ih =>
    intro b hb
    rw [haggregates] at hb
    exact (ih hq).of_group hgroup hb

/-- Under the name of one of its aggregates a query projects this one. -/
theorem Query.DistinctNames.project {q : Query} (h : q.DistinctNames) {a : Aggregate}
    (ha : a ∈ q.aggregates) (db : Dataset) (frame : Frame) :
    (project db q frame).value a.outputName = Engine.aggregate db frame a := by
  obtain ⟨before, later, hsplit⟩ := List.append_of_mem ha
  refine project_aggregate db frame hsplit ?_
  intro b hb hname
  unfold DistinctNames at h
  rw [hsplit, List.map_append, List.map_cons] at h
  have hrest := (List.nodup_append.mp h).2.1
  exact (List.nodup_cons.mp hrest).1 (List.mem_map.mpr ⟨b, hb, hname⟩)

/-- An aggregate of a group gives way to one that has its name. -/
theorem Query.DistinctNames.addGroup_holder {q g : Query} (hq : q.DistinctNames)
    (hg : g.DistinctNames) (connective : Connective) {a : Aggregate} (ha : a ∈ g.aggregates) :
    ∃ b ∈ (q.addGroup connective g).aggregates, b.outputName = a.outputName ∧
      (b = a ↔ ∀ c ∈ q.aggregates, c.outputName = a.outputName → c = a) := by
  have hdistinct := hq.addGroup connective g
  obtain ⟨joined, hjoined, haggregates⟩ := addGroup_aggregates_eq q connective g
  obtain ⟨b, hb, hname⟩ := hasAggregate_iff.mp (hasAggregate_addAggregates (q := joined) ha)
  refine ⟨b, haggregates ▸ hb, hname, ?_, ?_⟩
  · rintro rfl c hc hcname
    obtain ⟨later, hlater, -⟩ := (AddsAggregates.of_eq hjoined).addAggregates g.aggregates
    refine hdistinct.eq ?_ (haggregates ▸ hb) hcname
    rw [haggregates, hlater]
    exact List.mem_append_left later hc
  · intro hall
    rcases mem_addAggregates hb with hb | hb
    · exact hall b (hjoined ▸ hb) hname
    · exact hg.eq hb ha hname

section
variable {registry : Registry} {relation name : String} {function : AggregateFunction}
  {column : Option String}

/-- After a call one aggregate has the name: the one that was asked for, or one that had it before. -/
theorem Query.DistinctNames.aggregate_holder {q s : Query} (hq : q.DistinctNames)
    (hcall : q.aggregate registry relation function column = .ok (name, s)) :
    ∃ a ∈ s.aggregates, a.outputName = name ∧
      (a ∈ q.aggregates ∨ q.aggregateOver registry relation function column = .ok a) ∧
      (q.aggregateOver registry relation function column = .ok a ↔
        ∀ b ∈ q.aggregates, b.outputName = name →
          q.aggregateOver registry relation function column = .ok b) := by
  obtain ⟨rfl, ⟨htaken, rfl⟩ | ⟨hfree, a, hover, rfl⟩⟩ := aggregate_cases hcall
  · obtain ⟨a, ha, hname⟩ := hasAggregate_iff.mp htaken
    refine ⟨a, ha, hname, .inl ha, ?_, fun hall => hall a ha hname⟩
    intro hover b hb hbname
    rw [hq.eq hb ha (hbname.trans hname.symm)]
    exact hover
  · have hname := outputName_of_aggregateOver hover
    refine ⟨a, mem_addAggregate.mpr (.inr ⟨rfl, hname ▸ hfree⟩), hname, .inr hover, ?_⟩
    refine iff_of_true hover fun b hb hbname => ?_
    rw [hasAggregate_iff.mpr ⟨b, hb, hbname⟩] at hfree
    cases hfree

/-- When relations are not named like aggregates, an aggregate that has the name is the one that a call
asks for. -/
theorem Query.AllAsked.over_of_plain {q : Query} (hq : q.AllAsked registry)
    (hplain : PlainRelation relation) {a : Aggregate} (ha : a ∈ q.aggregates)
    (haplain : PlainRelation a.link.name)
    (hname : a.outputName = aggregateName relation function column) :
    q.aggregateOver registry relation function column = .ok a := by
  obtain ⟨relation', function', column', hover⟩ := hq a ha
  rw [relation_of_aggregateOver hover] at haplain
  obtain ⟨rfl, rfl, rfl⟩ := aggregateName_injective haplain hplain
    ((outputName_of_aggregateOver hover).symm.trans hname)
  exact hover

end

/-- No two aggregates of a query share a name, whatever groups are put in.  A call gives the name of its
relation, function and column, and one aggregate has it from then on, by which the query sorts when
it is sorted by the name.  That is the one that was asked for unless another one had the name before,
which never happens when relations are not named like aggregates.  An aggregate of a group gives way
in the same way to one that has its name. -/
theorem aggregates_named {registry : Registry} {blank q : Query} (hblank : blank.aggregates = [])
    (h : Projects registry blank q) :
    q.DistinctNames ∧ q.AllAsked registry ∧
    (∀ connective g, (q.addGroup connective g).DistinctNames) ∧
    (∀ connective g, Projects registry q.group g → ∀ a ∈ g.aggregates,
      ∃ b ∈ (q.addGroup connective g).aggregates, b.outputName = a.outputName ∧
        (b = a ↔ ∀ c ∈ q.aggregates, c.outputName = a.outputName → c = a)) ∧
    ∀ relation function column name s,
      q.aggregate registry relation function column = .ok (name, s) →
      name = Query.aggregateName relation function column ∧
      ∃ a, a.outputName = name ∧
        (q.aggregateOver registry relation function column = .ok a ↔
          ∀ b ∈ q.aggregates, b.outputName = name →
            q.aggregateOver registry relation function column = .ok b) ∧
        (PlainRelation relation → (∀ b ∈ q.aggregates, PlainRelation b.link.name) →
          q.aggregateOver registry relation function column = .ok a) ∧
        ∀ r, Projects registry s r →
          a ∈ r.aggregates ∧ (∀ b ∈ r.aggregates, b.outputName = name → b = a) ∧
          ∀ db frame direction,
            sortKeys (r.forgetOrders.addOrder (.output name) direction) frame
              (project db r frame) = [Engine.aggregate db frame a] := by
  have hnone : ∀ a ∈ blank.aggregates, False := by
    rw [hblank]
    exact fun a ha => List.not_mem_nil ha
  have hdistinct : q.DistinctNames := h.distinct (by
    unfold Query.DistinctNames
    rw [hblank]
    exact List.nodup_nil)
  have hasked : q.AllAsked registry := h.allAsked fun a ha => (hnone a ha).elim
  refine ⟨hdistinct, hasked, fun connective g => hdistinct.addGroup connective g, ?_, ?_⟩
  · intro connective g hg a ha
    have hgroup : g.DistinctNames := hg.distinct List.nodup_nil
    exact hdistinct.addGroup_holder hgroup connective ha
  · intro relation function column name s hcall
    have hname := (Query.aggregate_cases hcall).1
    obtain ⟨a, ha, haname, horigin, hover⟩ := hdistinct.aggregate_holder hcall
    refine ⟨hname, a, haname, hover, ?_, ?_⟩
    · intro hplain hplains
      rcases horigin with hold | hnew
      · exact hasked.over_of_plain hplain hold (hplains a hold) (haname.trans hname)
      · exact hnew
    · intro r hr
      have hbuilt : r.DistinctNames :=
        hr.distinct ((Projects.start q).aggregate hcall |>.distinct hdistinct)
      obtain ⟨later, hlater, -⟩ := hr.addsAggregates
      have hmem : a ∈ r.aggregates := by
        rw [hlater]
        exact List.mem_append_left later ha
      refine ⟨hmem, fun b hb hbname => hbuilt.eq hb hmem (hbname.trans haname.symm), ?_⟩
      intro db frame direction
      show [(project db r frame).value name] = [Engine.aggregate db frame a]
      rw [← haname, hbuilt.project hmem]

/-! ## A sample -/

/-- Orders with a total and the greatest total of their items. -/
def sampleOrder : Entity :=
  ((Entity.make "order" "orders").addColumn "total" .integer).addColumn "max_total" .integer

/-- Customers have orders. -/
def sampleCustomer : Entity :=
  (Entity.make "customer" "customers").addRelation "orders"
    (Relation.hasMany "order" "customer_id")

def sampleShop : Registry := ⟨[("customer", sampleCustomer), ("order", sampleOrder)]⟩

/-- Customers are sorted by the number of their orders when the sum of the totals is projected too. -/
theorem aggregates_named_sample :
    ∃ s t a,
      (Query.ofEntity sampleCustomer).aggregate sampleShop "orders" .sum (some "total") =
        .ok ("orders_sum_total", s) ∧
      s.countRelated sampleShop "orders" = .ok ("orders_count", t) ∧
      s.aggregateOver sampleShop "orders" .count none = .ok a ∧
      ∀ db frame direction,
        sortKeys (t.forgetOrders.addOrder (.output "orders_count") direction) frame
          (project db t frame) = [Engine.aggregate db frame a] := by
  have hsome : ((Query.ofEntity sampleCustomer).aggregate sampleShop "orders" .sum
      (some "total")).toOption.map (fun p => (p.1, p.2.aggregates.map fun a => a.link.name,
        (p.2.countRelated sampleShop "orders").toOption.map Prod.fst)) =
      some ("orders_sum_total", ["orders"], some "orders_count") := by
    decide +kernel
  obtain ⟨⟨name, s⟩, hs, heq⟩ := Option.map_eq_some_iff.mp hsome
  obtain ⟨rfl, hlinks, ht⟩ : name = "orders_sum_total" ∧
      s.aggregates.map (fun a => a.link.name) = ["orders"] ∧
      (s.countRelated sampleShop "orders").toOption.map Prod.fst = some "orders_count" := by
    simpa using heq
  obtain ⟨⟨name, t⟩, ht, rfl⟩ := Option.map_eq_some_iff.mp ht
  have hcall := ok_of_toOption hs
  have hcount : s.aggregate sampleShop "orders" .count none = .ok (_, t) := ok_of_toOption ht
  have hplain : PlainRelation "orders" := by decide +kernel
  have hprojects : Projects sampleShop (Query.ofEntity sampleCustomer) s :=
    (Projects.start _).aggregate hcall
  obtain ⟨-, -, -, -, hcalls⟩ := aggregates_named rfl hprojects
  obtain ⟨-, a, -, -, hover, hlater⟩ := hcalls "orders" .count none _ t hcount
  refine ⟨s, t, a, hcall, hcount, hover hplain ?_, (hlater t (.start t)).2.2⟩
  intro b hb
  have hmem := List.mem_map_of_mem (f := fun a : Aggregate => a.link.name) hb
  rw [hlinks, List.mem_singleton] at hmem
  rw [hmem]
  exact hplain

/-- A call over a relation that does not exist, refused otherwise, gives the name of an aggregate over
another relation. -/
theorem unknown_relation_named :
    ∃ s,
      (Query.ofEntity sampleCustomer).aggregate sampleShop "orders" .sum (some "max_total") =
        .ok ("orders_sum_max_total", s) ∧
      s.aggregate sampleShop "orders_sum" .max (some "total") = .ok ("orders_sum_max_total", s) ∧
      s.aggregates.map (fun a => (a.link.name, a.function, a.column)) =
        [("orders", .sum, some "max_total")] ∧
      (s.aggregateOver sampleShop "orders_sum" .max (some "total")).isOk = false ∧
      ((Query.ofEntity sampleCustomer).aggregate sampleShop "orders_sum" .max
        (some "total")).isOk = false := by
  have hsome : ((Query.ofEntity sampleCustomer).aggregate sampleShop "orders" .sum
      (some "max_total")).toOption.map (fun p => (p.1, p.2.hasAggregate "orders_sum_max_total",
        (p.2.aggregateOver sampleShop "orders_sum" .max (some "total")).isOk)) =
      some ("orders_sum_max_total", true, false) := by
    decide +kernel
  have hfields : ((Query.ofEntity sampleCustomer).aggregate sampleShop "orders" .sum
      (some "max_total")).toOption.map (fun p =>
        p.2.aggregates.map fun a => (a.link.name, a.function, a.column)) =
      some [("orders", .sum, some "max_total")] := by
    decide +kernel
  obtain ⟨⟨name, s⟩, hs, heq⟩ := Option.map_eq_some_iff.mp hsome
  simp only [Prod.mk.injEq] at heq
  obtain ⟨rfl, htaken, hover⟩ := heq
  rw [hs] at hfields
  have hname : Query.aggregateName "orders_sum" .max (some "total") = "orders_sum_max_total" := by
    decide
  refine ⟨s, ok_of_toOption hs, ?_, Option.some.inj hfields, hover, by decide +kernel⟩
  unfold Query.aggregate
  simp only [hname, htaken, if_true]

end Winnow
