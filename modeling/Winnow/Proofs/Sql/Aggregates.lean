import Winnow.Proofs.Query.Aggregates
import Winnow.Proofs.Sql.Rows
import Winnow.Proofs.Sql.Statements

/-!
# Aggregates of rendered statements

An aggregate that is read from a text stands for that of its column in the rows
of its sub-query (`Output.Yields`).  The sub-query of a projected aggregate has
the visible related rows, each as often as the engine (`subquery_rows`), so where
the aggregate names a column, or counts, the engine projects the value that the
text stands for (`aggregates_agree`).  Without a column the text names one all
the same, and an integer sum can leave the range in which decimals are exact;
there the two differ (`aggregates_differ`).
-/

namespace Winnow.Sql

open Engine Condition

/-- The values that an aggregate reads in the rows of its sub-query. -/
def columnValues (rows : List Frame) (column : Option Column) : List Value :=
  match column with
  | some column => rows.map fun env => read env column
  | none => []

/-- Whether an output is an aggregate that stands for a value, inside the rows that some names are
bound to. -/
inductive Output.Yields (db : Dataset) (env : Frame) : Output → Value → Prop
  | aggregate {function : AggregateFunction} {column : Option Column} {body : Subquery}
      {name : String} {v : Value} :
    AggregateOf (body.rows db env).length (nonNull (columnValues (body.rows db env) column))
      function v → Output.Yields db env (.aggregate function column body name) v

/-- How many rows there are, or whether any, does not depend on their values. -/
theorem aggregateOf_counts {count : Nat} {values others : List Value}
    {function : AggregateFunction} {v : Value} (h : function = .count ∨ function = .exists_)
    (haggregate : AggregateOf count values function v) : AggregateOf count others function v := by
  rcases h with rfl | rfl
  · cases haggregate with
    | count => exact .count
    | none hcount => exact absurd rfl hcount
  · cases haggregate with
    | exists_ => exact .exists_
    | none _ hexists => exact absurd rfl hexists

/-! ## The rows of a sub-query -/

section
variable (db : Dataset)

/-- The condition of the sub-query of an aggregate shows the rows that the related entity does. -/
theorem queryValue_inner {inner : Frame} {q : Query} {related : Entity} {row : Row}
    (h : inner.row? (q.inner related).qualifier = some row) :
    queryValue (truths db inner).answers (q.inner related) = related.shows row := by
  have hscopes := scopesHold_eq_shows (q := q.inner related) rfl h
  have htests : (q.inner related).scopeTests.all (truths db inner).answers.test =
      scopesHold inner (q.inner related) := by
    unfold scopesHold Query.scopeTests
    rw [List.all_map, List.all_map]
    refine congrArg (List.all _) (funext fun scope => ?_)
    show (testFormula (scope.test _ _)).value _ = _
    rw [testFormula_scope]
    rfl
  unfold queryValue
  rw [htests, hscopes]
  exact Bool.and_true _

variable {env : Frame} {q : Query} {row : Row} (h : env.row? q.qualifier = some row)

include h in
/-- The rows of the sub-query of an aggregate are the visible rows that the relation leads to, each
as often; through a pivot they may come in another order. -/
theorem subquery_rows (found : Relation) (related : Entity) (relation : String)
    (hpivot : PivotApart
      (found.link relation q.qualifier related.table (q.inner related).qualifier)) :
    (((subqueryOf (found.link relation q.qualifier related.table (q.inner related).qualifier)
        (q.inner related)).rows db env).map fun inner =>
          inner.row? (q.inner related).qualifier).Perm
      ((reachedBy db found related row).map some) := by
  have hcorrelated : Correlated q.qualifier
      (found.link relation q.qualifier related.table (q.inner related).qualifier,
        q.inner related) := by
    refine .intro rfl rfl rfl (q.inner_qualifier_ne related) ?_
    intro asked hasked
    cases hasked
  have hsame : SameRows db env env _ _ := sameRows hcorrelated hpivot h h
  have hlinked := hsame.related
  rw [candidates_link db h] at hlinked
  -- whether an inner row is shown depends on the row of the related table only
  let shown : Option Row → Bool := fun r => r.any related.shows
  have hshown : ∀ inner ∈ linkRows db env
      (found.link relation q.qualifier related.table (q.inner related).qualifier, q.inner related),
      queryValue (truths db inner).answers (q.inner related) =
        shown (inner.row? (q.inner related).qualifier) := by
    intro inner hinner
    obtain ⟨r, -, hr⟩ := List.mem_map.mp (hlinked.subset (List.mem_map_of_mem hinner))
    rw [queryValue_inner db hr.symm, ← hr]
    rfl
  rw [hsame.rows, List.filter_congr hshown]
  have hfilter := hlinked.filter shown
  rw [List.filter_map, List.filter_map] at hfilter
  exact hfilter

include h in
/-- An aggregate over the visible related rows is the one that its output stands for. -/
theorem yields_of_aggregateOf {found : Relation} {related : Entity} {relation name : String}
    {function : AggregateFunction} {column : Option String} {a : Aggregate}
    (ha : a = ⟨found.link relation q.qualifier related.table (q.inner related).qualifier,
      q.inner related, function, column, name⟩)
    (hpivot : PivotApart a.link) {v : Value}
    (hv : AggregateOf (reachedBy db found related row).length
      (nonNull ((reachedBy db found related row).map fun other => other.value (column.getD "id")))
      function v) : (outputOf a).Yields db env v := by
  subst ha
  have hrows := subquery_rows db h found related relation hpivot
  generalize hbody : subqueryOf _ (q.inner related) = body at hrows
  have hlength : (body.rows db env).length = (reachedBy db found related row).length := by
    simpa using hrows.length_eq
  rw [← hlength] at hv
  have hcolumn : ((reachedBy db found related row).map fun other =>
      Row.value other (column.getD "id")).Perm (columnValues (body.rows db env)
        (some ((q.inner related).column (column.getD "id")))) := by
    have hread := hrows.map (fieldOf (column.getD "id"))
    rw [List.map_map, List.map_map] at hread
    exact hread.symm
  have hnamed : AggregateOf (body.rows db env).length (nonNull (columnValues (body.rows db env)
      (some ((q.inner related).column (column.getD "id"))))) function v :=
    hv.perm (hcolumn.filter _)
  unfold outputOf
  simp only [hbody]
  cases function with
  | count => exact .aggregate (aggregateOf_counts (.inl rfl) hv)
  | exists_ => exact .aggregate (aggregateOf_counts (.inr rfl) hv)
  | sum | min | max | avg => exact .aggregate hnamed

end

/-! ## Both back ends -/

section
variable {registry : Registry} {q q' r : Query} {relation name : String}
  {function : AggregateFunction} {column : Option String}

/-- Where an aggregate names a column or counts, and its values can be aggregated, the engine
projects the aggregate of the visible related rows, and so does the rendered statement. -/
theorem aggregates_agree (db : Dataset) (hbuilt : Built registry q)
    (haggregate : q.aggregate registry relation function column = .ok (name, q'))
    (hnew : q.hasAggregate name = false) (hlater : Builds registry q' r)
    (hcolumn : column ≠ none ∨ function = .count ∨ function = .exists_) :
    ∃ found related link sub,
      registry.related q.entity relation = .ok (found, related) ∧
      q.relationQuery registry relation = .ok (link, sub) ∧
      (∀ d rendered, renderSelect d r = .ok rendered → ∃ s, readSelect d rendered = some s ∧
        outputOf ⟨link, sub, function, column, name⟩ ∈ s.outputs) ∧
      ∀ frame row, Frame.row? frame r.qualifier = some row →
        Aggregable (nonNull ((reachedBy db found related row).map
          fun other => other.value (column.getD "id"))) function →
        AggregateOf (reachedBy db found related row).length
            (nonNull ((reachedBy db found related row).map
              fun other => other.value (column.getD "id"))) function
            ((project db r frame).value name) ∧
          (PivotApart link → (outputOf ⟨link, sub, function, column, name⟩).Yields db frame
            ((project db r frame).value name)) := by
  obtain ⟨found, related, hrelated, haggregates⟩ := Query.aggregate_new haggregate hnew
  obtain ⟨later, happend, hnames⟩ := hlater.aggregates_append
  rw [haggregates, List.append_assoc] at happend
  obtain ⟨hgroup', hsound'⟩ := ((Builds.start q).of_aggregate haggregate).sound hbuilt.sound
  have hqualifier : r.qualifier = q.qualifier :=
    Query.qualifier_eq_of_group ((hlater.sound hsound').1.trans hgroup')
  have hlink : q.relationQuery registry relation =
      .ok (found.link relation q.qualifier related.table (q.inner related).qualifier,
        q.inner related) := by
    rw [Query.relationQuery_eq, hrelated]
    rfl
  refine ⟨found, related, _, _, hrelated, hlink, ?_, ?_⟩
  · intro d rendered hrender
    refine ⟨selectOf d r, readSelect_rendered hrender, ?_⟩
    refine List.mem_append_right _ (List.mem_map_of_mem ?_)
    rw [happend]
    exact List.mem_append_right _ List.mem_cons_self
  · intro frame row hrow hvalues
    rw [hqualifier] at hrow
    have hother : ∀ b ∈ later, b.outputName ≠ name := by
      intro b hb hname
      have htaken : q'.hasAggregate name = true := by
        unfold Query.hasAggregate
        rw [haggregates, List.any_append]
        simp
      rw [← hname, hnames b hb] at htaken
      cases htaken
    have hproject := project_aggregate db frame happend hother
    have hfolded : AggregateOf (reachedBy db found related row).length
        (nonNull ((reachedBy db found related row).map
          fun other => other.value (column.getD "id"))) function
        ((project db r frame).value name) := by
      rw [hproject]
      unfold Engine.aggregate
      simp only [matchingRows_inner db hrow]
      cases column with
      | some column => exact aggregateOf_fold _ hvalues
      | none =>
        have hcounts : function = .count ∨ function = .exists_ :=
          hcolumn.resolve_left fun hne => hne rfl
        have hnone : Aggregable (nonNull []) function := by
          rcases hcounts with rfl | rfl <;> trivial
        exact aggregateOf_counts hcounts (aggregateOf_fold _ hnone)
    exact ⟨hfolded, fun hpivot => yields_of_aggregateOf db hrow rfl hpivot hfolded⟩

/-- Without a column nothing but a count has a value, whatever the text names. -/
theorem project_without_column (db : Dataset)
    (haggregate : q.aggregate registry relation function none = .ok (name, q'))
    (hnew : q.hasAggregate name = false) (hcount : function ≠ .count) (hexists : function ≠ .exists_)
    (frame : Frame) : (project db q' frame).value name = .null := by
  obtain ⟨found, related, -, haggregates⟩ := Query.aggregate_new haggregate hnew
  have hproject := project_aggregate db frame haggregates (List.forall_mem_nil _)
  exact hproject.trans (fold_nil hcount hexists _)

end

/-! ## A sample -/

namespace Sample

/-- Deals with an aggregate over their subdeals. -/
def withSubdeals (function : AggregateFunction) (column : Option String) :
    Except CompileError (String × Query) :=
  (Query.ofEntity deal).aggregate registry "subdeals" function column

/-- The query with the aggregate. -/
def aggregated (function : AggregateFunction) (column : Option String) : Query :=
  ((withSubdeals function column).toOption.map Prod.snd).getD (Query.ofEntity deal)

/-- A deal whose subdeals have certain amounts, numbered from 2 on. -/
def family (amounts : List Value) : Dataset :=
  ⟨[("deals", [("id", .integer 1)] :: amounts.mapIdx fun i amount =>
    [("amount", amount), ("id", .integer (i + 2)), ("parent_id", .integer 1)])]⟩

/-- The frame of the deal. -/
def parent : Frame := [("deals", some [("id", .integer 1)])]

/-- What the subdeals have in a column. -/
def ofSubdeals (amounts : List Value) (column : String) : List Value :=
  (reachedBy (family amounts) (Relation.hasMany "deal" "parent_id") deal [("id", .integer 1)]).map
    fun other => other.value column

end Sample

open Sql.Sample

/-- The amounts of three subdeals, one of them null, add up alike. -/
theorem aggregates_agree_subdeals :
    ∃ link sub, (Query.ofEntity deal).relationQuery Sample.registry "subdeals" = .ok (link, sub) ∧
      AggregateOf 3 [.integer 3, .integer 4] .sum
        ((project (family [.integer 3, .null, .integer 4]) (aggregated .sum (some "amount"))
          parent).value "subdeals_sum_amount") ∧
      (outputOf ⟨link, sub, .sum, some "amount", "subdeals_sum_amount"⟩).Yields
        (family [.integer 3, .null, .integer 4]) parent
        ((project (family [.integer 3, .null, .integer 4]) (aggregated .sum (some "amount"))
          parent).value "subdeals_sum_amount") := by
  have haggregated : withSubdeals .sum (some "amount") =
    .ok ("subdeals_sum_amount", aggregated .sum (some "amount")) := rfl
  obtain ⟨found, related, link, sub, hrelated, hlink, -, hvalues⟩ :=
    aggregates_agree (family [.integer 3, .null, .integer 4])
      ⟨deal, .start (Query.ofEntity deal)⟩ haggregated rfl (.start _) (.inl (by decide))
  cases hrelated
  cases hlink
  have hamounts : nonNull (ofSubdeals [.integer 3, .null, .integer 4] "amount") =
      [.integer 3, .integer 4] := by
    decide +kernel
  have hlength : (reachedBy (family [.integer 3, .null, .integer 4])
      (Relation.hasMany "deal" "parent_id") deal [("id", .integer 1)]).length = 3 := by
    decide +kernel
  have hsum : Aggregable [.integer 3, .integer 4] .sum := by
    refine ⟨by simp [Value.IsNumber, Value.isOf], ?_⟩
    intro numbers hnumbers
    have hinjective : Function.Injective Value.integer := fun a b h => Value.integer.inj h
    obtain rfl : [3, 4] = numbers := List.map_injective_iff.mpr hinjective hnumbers
    decide
  have hboth := hvalues parent [("id", .integer 1)] rfl
  unfold ofSubdeals at hamounts
  rw [Option.getD_some, hamounts, hlength] at hboth
  obtain ⟨hvalue, hyields⟩ := hboth hsum
  exact ⟨_, _, rfl, hvalue, hyields (by decide)⟩

/-- The sum of one integer is this integer. -/
theorem sum_single {n : Int} {v : Value} (h : AggregateOf 1 [.integer n] .sum v) : v = .integer n := by
  cases h with
  | none _ _ hnil => cases hnil
  | @integers numbers _ hperm =>
    have hinjective : Function.Injective Value.integer := fun a b h => Value.integer.inj h
    have hnumbers : [n] = numbers :=
      List.map_injective_iff.mpr hinjective (List.singleton_perm.mp hperm)
    rw [← hnumbers, List.sum_singleton]
  | decimals _ hother =>
    obtain ⟨w, hw, hinteger⟩ := hother
    rw [List.mem_singleton.mp hw] at hinteger
    cases hinteger

/-- The greatest of some values is one of them. -/
theorem max_mem {count : Nat} {values : List Value} {v : Value} (hne : values ≠ [])
    (h : AggregateOf count values .max v) : v ∈ values := by
  cases h with
  | none _ _ hnil => exact absurd hnil hne
  | max hmem => exact hmem

/-- One amount beyond 2^53 is not its own sum, and where no column is given the greatest of the keys
that the text names is projected as null. -/
theorem aggregates_differ :
    (withSubdeals .sum (some "amount") =
        .ok ("subdeals_sum_amount", aggregated .sum (some "amount")) ∧
      ofSubdeals [.integer 9007199254740993] "amount" = [.integer 9007199254740993] ∧
      ¬ AggregateOf 1 [.integer 9007199254740993] .sum
        ((project (family [.integer 9007199254740993]) (aggregated .sum (some "amount"))
          parent).value "subdeals_sum_amount")) ∧
    (withSubdeals .max none = .ok ("subdeals_max", aggregated .max none) ∧
      (∃ body, (aggregated .max none).aggregates.map outputOf =
        [.aggregate .max (some (.field "deals_1" "id")) body "subdeals_max"]) ∧
      ofSubdeals [.null, .null] "id" = [.integer 2, .integer 3] ∧
      ¬ AggregateOf 2 [.integer 2, .integer 3] .max
        ((project (family [.null, .null]) (aggregated .max none) parent).value "subdeals_max")) := by
  refine ⟨⟨rfl, by decide +kernel, ?_⟩, rfl, ⟨_, rfl⟩, by decide +kernel, ?_⟩
  · have hvalue : (project (family [.integer 9007199254740993]) (aggregated .sum (some "amount"))
        parent).value "subdeals_sum_amount" = .integer 9007199254740992 := by
      decide +kernel
    intro hsum
    have hexact := sum_single hsum
    rw [hvalue] at hexact
    exact absurd hexact (by decide)
  · have hnull : (project (family [.null, .null]) (aggregated .max none) parent).value
        "subdeals_max" = .null := by
      decide +kernel
    intro hmax
    have hmem := max_mem (List.cons_ne_nil _ _) hmax
    rw [hnull] at hmem
    exact absurd hmem (by decide)

end Winnow.Sql
