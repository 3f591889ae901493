import Winnow.Proofs.Listing.Conjoining

/-!
# What tables conjoin

A table asks nothing of rows.  It counts related rows, joins the paths that it
is sorted through (`tablePaths`), and orders the query, also where it comes
after other refinements (`orderTable_alwaysConjoin`): what requested orders sort
by depends on the entity alone (`sortTargets_conjoins`), and the default order
applies just where the query has no order yet.
-/

namespace Winnow.Listing

open Engine Compile Condition

/-! ## Joined paths -/

/-- What sorting by a column of a table sorts by. -/
def columnTarget? (registry : Registry) (e : Entity) (column : TableColumn) : Option OrderTarget :=
  if column.counts then
    some (.output (Query.aggregateName column.countRelation .count none))
  else match column.relation with
    | some relation =>
      let relations := Text.split '.' relation
      if registry.isToOnePath e relations then
        some (.column (.field (Text.join "_" relations) (column.relationField.getD column.key)))
      else none
    | none => if e.hasColumn column.key then some (.column (.field e.table column.key)) else none

/-- The path that a column of a table is sorted through. -/
def columnPath? (registry : Registry) (e : Entity) (column : TableColumn) : Option (List String) :=
  if column.counts then none
  else (column.relation.map (Text.split '.')).filter (registry.isToOnePath e)

/-- The column of a table that a requested order names, if it can be sorted by. -/
def sortColumn? (columns : List TableColumn) (sort : SortField) : Option TableColumn :=
  columns.find? fun c => c.key == sort.field && c.sortable

/-- The sort keys of a table. -/
def tableOrders (registry : Registry) (e : Entity) (columns : List TableColumn)
    (sorts : List SortField) : List Order :=
  sorts.filterMap fun sort => ((sortColumn? columns sort).bind (columnTarget? registry e)).map
    fun target => ⟨target, sort.direction⟩

/-- The paths that a table is sorted through, by requested orders or, without any that can be
followed, by default. -/
def tablePaths (registry : Registry) (e : Entity) (columns : List TableColumn)
    (sorts defaultOrder : List SortField) : List (List String) :=
  sorts.filterMap (fun sort => (sortColumn? columns sort).bind (columnPath? registry e)) ++
    if (tableOrders registry e columns sorts).isEmpty then
      (if defaultOrder.isEmpty then e.defaultOrder else defaultOrder).filterMap
        (sortPath? registry e)
    else []

section
variable {db : Dataset} {registry : Registry} {e : Entity} {allowed : List String → Prop}
  {q : Query}

/-! ## Counts -/

section
variable {relation name : String} {q r : Query}

/-- What counts do not change: all but the aggregates. -/
theorem countRelated_keeps {γ : Type} (f : Query → γ)
    (hf : ∀ q aggregates, f { q with aggregates := aggregates } = f q)
    (h : q.countRelated registry relation = .ok (name, r)) : f r = f q := by
  unfold Query.countRelated Query.aggregate at h
  simp only at h
  split at h
  · cases h
    rfl
  · obtain ⟨asked, -, h⟩ := bind_eq_ok h
    cases h
    exact Query.addAggregate_keeps f hf q _

/-- Related rows can be counted on every query of the entity. -/
theorem countRelated_ok (hfound : ∃ found, registry.related e relation = .ok found)
    (hq : q.entity = e) :
    ∃ r, q.countRelated registry relation =
      .ok (Query.aggregateName relation .count none, r) := by
  obtain ⟨⟨found, related⟩, hfound⟩ := hfound
  unfold Query.countRelated Query.aggregate
  simp only
  split
  · exact ⟨q, rfl⟩
  · rw [Query.relationQuery_eq, hq, hfound]
    exact ⟨_, rfl⟩

theorem aggregateName_count_injective {relation other : String}
    (h : Query.aggregateName relation .count none = Query.aggregateName other .count none) :
    relation = other := by
  unfold Query.aggregateName at h
  simpa using h

/-- Whether all counts that a query projects are of relations of the entity. -/
def CountsRelated (registry : Registry) (e : Entity) (q : Query) : Prop :=
  ∀ relation, q.hasAggregate (Query.aggregateName relation .count none) = true →
    ∃ found, registry.related e relation = .ok found

theorem countRelated_related (hq : q.entity = e) (hcounts : CountsRelated registry e q)
    (h : q.countRelated registry relation = .ok (name, r)) :
    CountsRelated registry e r ∧ ∃ found, registry.related e relation = .ok found := by
  unfold Query.countRelated Query.aggregate at h
  simp only at h
  split at h
  next hhas =>
    cases h
    exact ⟨hcounts, hcounts relation hhas⟩
  next hfree =>
    obtain ⟨⟨link, blank⟩, hlink, h⟩ := bind_eq_ok h
    cases h
    rw [Query.relationQuery_eq, hq] at hlink
    obtain ⟨found, hfound, -⟩ := map_eq_ok hlink
    refine ⟨fun other hother => ?_, found, hfound⟩
    unfold Query.addAggregate at hother
    rw [if_neg hfree] at hother
    unfold Query.hasAggregate at hother
    rw [List.any_append, Bool.or_eq_true] at hother
    rcases hother with hold | hnew
    · exact hcounts other hold
    · have hsame : Query.aggregateName relation .count none =
          Query.aggregateName other .count none := by simpa using hnew
      rw [← aggregateName_count_injective hsame]
      exact ⟨found, hfound⟩

end

/-- The relations that columns of a table count exist. -/
theorem addCounts_related {columns : List TableColumn} {r : Query}
    (h : addCounts registry columns (Query.ofEntity e) = .ok r) :
    ∀ column ∈ columns, column.counts = true →
      ∃ found, registry.related e column.countRelation = .ok found := by
  have hstep : ∀ column ∈ columns.filter TableColumn.counts, ∀ q r : Query,
      (q.countRelated registry column.countRelation).map Prod.snd = .ok r →
        q.entity = e ∧ CountsRelated registry e q → r.entity = e ∧ CountsRelated registry e r := by
    rintro column - q r hstep ⟨hq, hcounts⟩
    obtain ⟨⟨name, next⟩, hcount, rfl⟩ := map_eq_ok hstep
    exact ⟨(countRelated_keeps Query.entity (fun _ _ => rfl) hcount).trans hq,
      (countRelated_related hq hcounts hcount).1⟩
  intro column hcolumn hcounts
  obtain ⟨q, r, ⟨hq, hrelated⟩, hr⟩ := foldlM_each h hstep
    ⟨rfl, fun relation hhas => by cases hhas⟩ column (List.mem_filter.mpr ⟨hcolumn, hcounts⟩)
  obtain ⟨⟨name, next⟩, hcount, -⟩ := map_eq_ok hr
  exact (countRelated_related hq hrelated hcount).2

theorem addCounts_orders {columns : List TableColumn} {q r : Query}
    (h : addCounts registry columns q = .ok r) : r.orders = q.orders := by
  unfold addCounts at h
  refine @foldlM_keeps _ _ _ _ (fun s => s.orders = q.orders) _ _ _ h
    (fun column _ s next hstep hkept => ?_) rfl
  obtain ⟨⟨name, next⟩, hcount, rfl⟩ := map_eq_ok hstep
  exact (countRelated_keeps Query.orders (fun _ _ => rfl) hcount).trans hkept

section
variable (hunique : UniqueToOne db registry e) (hapart : AliasesApart e.table allowed)
  {columns : List TableColumn} (hcounts : ∀ column ∈ columns, column.counts = true →
    ∃ found, registry.related e column.countRelation = .ok found)

section
include hcounts

theorem countRelated_conjoins {column : TableColumn} (hcolumn : column ∈ columns)
    (hcount : column.counts = true) (hq : Tracked db registry e allowed q) :
    ∃ r, q.countRelated registry column.countRelation =
        .ok (Query.aggregateName column.countRelation .count none, r) ∧
      Tracked db registry e allowed r ∧ Conjoins e q [] r ∧ r.orders = q.orders := by
  obtain ⟨r, hr⟩ := countRelated_ok (hcounts column hcolumn hcount) hq.entity_eq
  obtain ⟨htracked, hconjoins⟩ := hq.keep (countRelated_keeps Query.group (fun _ _ => rfl) hr)
    (countRelated_keeps Query.removedScopes (fun _ _ => rfl) hr)
    (countRelated_keeps Query.clauses (fun _ _ => rfl) hr)
    (countRelated_keeps Query.joins (fun _ _ => rfl) hr)
  exact ⟨r, hr, htracked, hconjoins, countRelated_keeps Query.orders (fun _ _ => rfl) hr⟩

theorem addCounts_alwaysConjoin :
    AlwaysConjoin db registry e allowed (addCounts registry columns) [] := by
  refine foldlM_conjoins_nothing fun column hcolumn q hq => ?_
  obtain ⟨hcolumn, hcount⟩ := List.mem_filter.mp hcolumn
  obtain ⟨r, hr, htracked, hconjoins, -⟩ := countRelated_conjoins hcounts hcolumn hcount hq
  exact ⟨r, congrArg (Except.map Prod.snd) hr, htracked, hconjoins⟩

end

include hunique hapart hcounts

omit hunique hapart hcounts in
theorem tableOrders_cons (sort : SortField) (rest : List SortField) :
    tableOrders registry e columns (sort :: rest) =
      (((sortColumn? columns sort).bind (columnTarget? registry e)).map fun target =>
        ⟨target, sort.direction⟩).toList ++ tableOrders registry e columns rest := by
  unfold tableOrders
  rw [List.filterMap_cons]
  cases (sortColumn? columns sort).bind (columnTarget? registry e) <;> rfl

/-- Sorting by a column joins its path or counts its relation, and keeps the orders for now. -/
theorem sortTarget_conjoins {column : TableColumn} (hcolumn : column ∈ columns)
    (hallowed : Allows allowed (columnPath? registry e column).toList)
    (hq : Tracked db registry e allowed q) :
    ∃ r, sortTarget registry column q = .ok (columnTarget? registry e column, r) ∧
      Tracked db registry e allowed r ∧ Conjoins e q [] r ∧ r.orders = q.orders := by
  have hself : Tracked db registry e allowed q ∧ Conjoins e q [] q ∧ q.orders = q.orders :=
    ⟨hq, .refl e q, rfl⟩
  unfold sortTarget columnTarget?
  unfold columnPath? at hallowed
  by_cases hcount : column.counts = true
  · obtain ⟨r, hr, hrest⟩ := countRelated_conjoins hcounts hcolumn hcount hq
    refine ⟨r, ?_, hrest⟩
    simp only [hcount, if_true, hr, bind, Except.bind]
  · simp only [hcount, Bool.false_eq_true, if_false] at hallowed ⊢
    cases hrelation : column.relation with
    | none =>
      simp only [hq.entity_eq]
      have hcolumn : q.column column.key = .field e.table column.key :=
        congrArg (Column.field · column.key) hq.qualifier_eq
      rw [hcolumn]
      split <;> exact ⟨q, rfl, hself⟩
    | some relation =>
      rw [hrelation] at hallowed
      simp only [hq.entity_eq]
      by_cases htoOne : registry.isToOnePath e (Text.split '.' relation) = true
      · obtain ⟨r, hr, htracked, hconjoins, -⟩ := hq.joinPath hunique hapart
          (Text.split_ne_nil '.' relation) htoOne (hallowed _ (by simp [Option.filter, htoOne]))
        have horders := Query.joinFrom_keeps Query.orders (fun _ _ => rfl) hr
        refine ⟨r, ?_, htracked, hconjoins, horders⟩
        simp only [htoOne, Bool.not_true, Bool.false_eq_true, if_false, if_true, hr, bind,
          Except.bind]
      · simp only [htoOne, Bool.not_false, if_true, Bool.false_eq_true, if_false]
        exact ⟨q, rfl, hself⟩

/-- Induction over the requested orders: what they sort by depends on the entity alone. -/
theorem sortTargets_conjoins {sorts : List SortField}
    (hallowed : Allows allowed
      (sorts.filterMap fun sort => (sortColumn? columns sort).bind (columnPath? registry e)))
    (hq : Tracked db registry e allowed q) :
    ∃ r, sortTargets registry columns sorts q = .ok (tableOrders registry e columns sorts, r) ∧
      Tracked db registry e allowed r ∧ Conjoins e q [] r ∧ r.orders = q.orders := by
  induction sorts generalizing q with
  | nil => exact ⟨q, rfl, hq, .refl e q, rfl⟩
  | cons sort rest ih =>
    obtain ⟨hfirst, hrest⟩ := hallowed.of_cons
    unfold sortTargets
    rw [tableOrders_cons, show (columns.find? fun c => c.key == sort.field && c.sortable) =
      sortColumn? columns sort from rfl]
    cases hfind : sortColumn? columns sort with
    | none => exact ih hrest hq
    | some column =>
      rw [hfind] at hfirst
      obtain ⟨next, hnext, htracked, hconjoins, horders⟩ :=
        sortTarget_conjoins hunique hapart hcounts (List.mem_of_find?_eq_some hfind) hfirst hq
      obtain ⟨r, hr, htracked', hconjoins', horders'⟩ := ih hrest htracked
      refine ⟨r, ?_, htracked', hconjoins.trans hconjoins', horders'.trans horders⟩
      simp only [hnext, hr, bind, Except.bind, Option.bind_some]
      cases columnTarget? registry e column <;> rfl

/-- A table orders a query and counts related rows; it falls back to the default order only where
the query is not ordered yet. -/
theorem orderTable_alwaysConjoin {order defaultOrder : List SortField}
    (hallowed : Allows allowed (tablePaths registry e columns order defaultOrder)) {alone : Query}
    (h : orderTable registry columns order defaultOrder (Query.ofEntity e) = .ok alone) :
    AlwaysConjoin db registry e allowed (orderTable registry columns order defaultOrder) [] := by
  have hpaths : Allows allowed
      (order.filterMap fun sort => (sortColumn? columns sort).bind (columnPath? registry e)) :=
    fun whole hwhole => hallowed whole (List.mem_append_left _ hwhole)
  -- up to the default order everything goes as it does alone
  have hsort : ∀ q, Tracked db registry e allowed q → ∃ counted r,
      addCounts registry columns q = .ok counted ∧
        sortTargets registry columns order counted =
          .ok (tableOrders registry e columns order, r) ∧
        Tracked db registry e allowed r ∧ Conjoins e q [] r ∧ r.orders = q.orders := by
    intro q hq
    obtain ⟨counted, hcounted, htracked, hconjoins⟩ := addCounts_alwaysConjoin hcounts q hq
    obtain ⟨r, hr, htracked', hconjoins', horders⟩ :=
      sortTargets_conjoins hunique hapart hcounts hpaths htracked
    exact ⟨counted, r, hcounted, hr, htracked', hconjoins.trans hconjoins',
      horders.trans (addCounts_orders hcounted)⟩
  obtain ⟨start, sorted, hstart, hsorted, htracked, -, hunordered⟩ := hsort _ .ofEntity
  intro q hq
  obtain ⟨counted, r, hcounted, hr, htracked', hconjoins, -⟩ := hsort q hq
  unfold orderTable at h ⊢
  simp only [hstart, hsorted, hcounted, hr, bind, Except.bind] at h ⊢
  by_cases hnone : (tableOrders registry e columns order).isEmpty = true
  · have hempty : sorted.orders.isEmpty = true := by
      rw [hunordered]
      rfl
    have hdefault : Allows allowed ((if defaultOrder.isEmpty then e.defaultOrder
        else defaultOrder).filterMap (sortPath? registry e)) := by
      intro whole hwhole
      refine hallowed whole (List.mem_append_right _ ?_)
      rw [if_pos hnone]
      exact hwhole
    simp only [hnone, hempty, Bool.not_true, Bool.false_eq_true, if_false, htracked.entity_eq,
      htracked'.entity_eq] at h ⊢
    split
    · exact ⟨r, rfl, htracked', hconjoins⟩
    · obtain ⟨s, hs, htracked'', hconjoins'⟩ :=
        orderByAll_alwaysConjoin hunique hapart htracked.group_eq h hdefault r htracked'
      exact ⟨s, hs, htracked'', hconjoins.trans hconjoins'⟩
  · simp only [hnone, Bool.not_false, if_true]
    obtain ⟨hordered, hkept⟩ := htracked'.keep
      (r := { r with orders := tableOrders registry e columns order }) rfl rfl rfl rfl
    exact ⟨_, rfl, hordered, hconjoins.trans hkept⟩

end

end

end Winnow.Listing
