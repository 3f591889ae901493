import Winnow.Proofs.Engine.JoinAliases
import Winnow.Proofs.Listing.Closed
import Winnow.Proofs.Listing.Scopes
import Winnow.Proofs.Listing.Tables
import Winnow.Resource.Listing

/-!
# What accepted orders sort by

A sort key of a listing or a table comes from a sort field, a column of the
table, or the default order of the entity.  `Sorted` says what it reads: a
column of the entity, a column at the end of a path that is joined under the
qualifier of the key, an aggregate of the query, or a name in the form of an
aggregate's, which nothing checks.  Every part of a listing and of a table keeps
this, and where joined paths have different aliases the join under the
qualifier is that of the path (`orders_executable`).
-/

namespace Winnow

open Compile

/-! ## Sort keys that can be read -/

namespace Query

/-- What the rows of a query can be sorted by: a column of its entity, a column of the entity that
a path leads to under the join of that path, or an aggregate that is projected. -/
inductive CanSortBy (registry : Registry) (q : Query) : OrderTarget → Prop where
  | own {name : String} (hcolumn : q.entity.hasColumn name = true) :
      CanSortBy registry q (.column (q.column name))
  | joined {path : List String} {join : Join} {target : Entity} {name : String}
      (hjoin : join ∈ q.joins) (hstep : IsStep registry q.entity q.qualifier path join)
      (hwalk : registry.walk q.entity path = .ok target)
      (hcolumn : target.hasColumn name = true) :
      CanSortBy registry q (.column (.field join.tableAlias name))
  | projected {name : String} (haggregate : q.hasAggregate name = true) :
      CanSortBy registry q (.output name)

/-- Whether walks along some paths go through different paths under different aliases only. -/
def AliasesDiffer (paths : List (List String)) : Prop :=
  ∀ path ∈ steps paths, ∀ other ∈ steps paths,
    Text.join "_" path = Text.join "_" other → path = other

instance (paths : List (List String)) : Decidable (AliasesDiffer paths) :=
  inferInstanceAs (Decidable (∀ path ∈ steps paths, ∀ other ∈ steps paths,
    Text.join "_" path = Text.join "_" other → path = other))

theorem FirstJoins.of_same {registry : Registry} {q r : Query} {walked : List (List String)}
    (h : FirstJoins registry q walked) (hgroup : r.group = q.group) (hjoins : r.joins = q.joins) :
    FirstJoins registry r walked where
  closed := h.closed
  nodup := by
    rw [hjoins]
    exact h.nodup
  hasJoin_iff := by
    unfold hasJoin
    rw [hjoins]
    exact h.hasJoin_iff
  first := by
    rw [hjoins, entity_eq_of_group hgroup, qualifier_eq_of_group hgroup]
    exact h.first

end Query

namespace Listing

open Query

/-- Whether a sort key is a name that one of some sort fields gives: it has the form of an
aggregate's name and is no column of the entity. -/
def NamesOutput (e : Entity) (sorts : List SortField) (target : OrderTarget) : Prop :=
  ∃ sort ∈ sorts, target = .output (Text.trim sort.field) ∧
    namesAggregate (Text.trim sort.field) = true ∧ e.hasColumn (Text.trim sort.field) = false

/-- What an accepted sort key of a query reads, where some paths may be joined and some sort fields
may name outputs. -/
inductive SortsBy (registry : Registry) (e : Entity) (paths : List (List String))
    (sorts : List SortField) (q : Query) : OrderTarget → Prop where
  | own {name : String} (hcolumn : e.hasColumn name = true) :
      SortsBy registry e paths sorts q (.column (.field e.table name))
  | along {path : List String} {target : Entity} {name : String} (hpath : path ∈ steps paths)
      (hbound : q.hasJoin (Text.join "_" path) = true) (hwalk : registry.walk e path = .ok target)
      (hcolumn : target.hasColumn name = true) :
      SortsBy registry e paths sorts q (.column (.field (Text.join "_" path) name))
  | projected {name : String} (haggregate : q.hasAggregate name = true) :
      SortsBy registry e paths sorts q (.output name)
  | named {target : OrderTarget} (hnamed : NamesOutput e sorts target) :
      SortsBy registry e paths sorts q target

/-- A query of an entity to which some paths were joined, with sort keys that read what it has or
what some sort fields name. -/
structure Sorted (registry : Registry) (e : Entity) (paths : List (List String))
    (sorts : List SortField) (orders : List Order) (q : Query) : Prop where
  group_eq : q.group = ofEntity e
  joins : ∃ walked, FirstJoins registry q walked ∧ ∀ path ∈ walked, path ∈ steps paths
  orders : ∀ o ∈ orders, SortsBy registry e paths sorts q o.target

section
variable {registry : Registry} {e : Entity} {paths : List (List String)}
  {sorts : List SortField} {orders : List Order} {q r : Query}

theorem Sorted.ofEntity : Sorted registry e paths sorts [] (ofEntity e) where
  group_eq := rfl
  joins := ⟨[], .ofEntity e, fun _ hpath => absurd hpath List.not_mem_nil⟩
  orders _ ho := absurd ho List.not_mem_nil

theorem Sorted.entity_eq (h : Sorted registry e paths sorts orders q) : q.entity = e :=
  entity_eq_of_group (r := Query.ofEntity e) h.group_eq

theorem Sorted.qualifier_eq (h : Sorted registry e paths sorts orders q) : q.qualifier = e.table :=
  qualifier_eq_of_group (r := Query.ofEntity e) h.group_eq

/-- A sort key still reads what a query has when joins and aggregates are added. -/
theorem SortsBy.mono {target : OrderTarget} (h : SortsBy registry e paths sorts q target)
    (hjoins : ∀ a, q.hasJoin a = true → r.hasJoin a = true)
    (haggregates : ∀ name, q.hasAggregate name = true → r.hasAggregate name = true) :
    SortsBy registry e paths sorts r target := by
  cases h with
  | own hcolumn => exact .own hcolumn
  | along hpath hbound hwalk hcolumn => exact .along hpath (hjoins _ hbound) hwalk hcolumn
  | projected haggregate => exact .projected (haggregates _ haggregate)
  | named hnamed => exact .named hnamed

/-- What else is in a query does not matter, and aggregates may be added. -/
theorem Sorted.keep (h : Sorted registry e paths sorts orders q) (hgroup : r.group = q.group)
    (hjoins : r.joins = q.joins)
    (haggregates : ∀ name, q.hasAggregate name = true → r.hasAggregate name = true) :
    Sorted registry e paths sorts orders r where
  group_eq := hgroup.trans h.group_eq
  joins := by
    obtain ⟨walked, hfirst, hwalked⟩ := h.joins
    exact ⟨walked, hfirst.of_same hgroup hjoins, hwalked⟩
  orders o ho := by
    refine (h.orders o ho).mono (fun a ha => ?_) haggregates
    unfold hasJoin at ha ⊢
    rwa [hjoins]

/-- Without sort keys it does not matter which sort fields may name outputs. -/
theorem Sorted.unsorted {others : List SortField} (h : Sorted registry e paths sorts orders q) :
    Sorted registry e paths others [] q :=
  ⟨h.group_eq, h.joins, fun _ ho => absurd ho List.not_mem_nil⟩

/-- A sort key that reads what the query has can be put behind the others. -/
theorem Sorted.append (h : Sorted registry e paths sorts orders q) {target : OrderTarget}
    (htarget : SortsBy registry e paths sorts q target) (direction : Direction) :
    Sorted registry e paths sorts (orders ++ [⟨target, direction⟩]) q := by
  refine ⟨h.group_eq, h.joins, fun o ho => ?_⟩
  rcases List.mem_append.mp ho with ho | ho
  · exact h.orders o ho
  · rw [List.mem_singleton.mp ho]
    exact htarget

theorem Sorted.aliases (h : Sorted registry e paths sorts orders q) :
    (q.joins.map Join.tableAlias).Nodup := by
  obtain ⟨walked, hfirst, -⟩ := h.joins
  exact hfirst.nodup

/-- Where the aliases of joined paths differ, a key along a path reads the join of that path. -/
theorem Sorted.canSortBy (h : Sorted registry e paths sorts orders q)
    (hdiffer : AliasesDiffer paths) {o : Order} (ho : o ∈ orders) :
    CanSortBy registry q o.target ∨ NamesOutput e sorts o.target := by
  have hsorts := h.orders o ho
  generalize o.target = target at hsorts ⊢
  cases hsorts with
  | own hcolumn =>
    refine .inl ?_
    rw [← h.entity_eq] at hcolumn
    rw [← h.qualifier_eq]
    exact .own hcolumn
  | @along path target name hpath hbound hwalk hcolumn =>
    obtain ⟨walked, hfirst, hwalked⟩ := h.joins
    obtain ⟨other, hother, hsame⟩ := (hfirst.hasJoin_iff _).mp hbound
    obtain rfl := hdiffer other (hwalked other hother) path hpath hsame
    obtain ⟨first, join, hfind, hjoin, halias, hstep⟩ := hfirst.own hother
    have hshared := List.find?_some hfind
    rw [beq_iff_eq] at hshared
    have hwalkedFirst := hwalked first (List.mem_of_find?_eq_some hfind)
    obtain rfl := hdiffer first hwalkedFirst other hpath hshared
    rw [← h.entity_eq] at hwalk
    rw [← halias]
    exact .inl (.joined hjoin hstep hwalk hcolumn)
  | projected haggregate => exact .inl (.projected haggregate)
  | named hnamed => exact .inr hnamed

/-! ## Joined paths -/

theorem mem_steps_of_start {whole path : List String} (hwhole : whole ∈ paths) (hne : path ≠ [])
    (h : path <+: whole) : path ∈ steps paths :=
  List.mem_flatMap.mpr ⟨whole, hwhole, mem_stepsFrom_of_start [] hne h⟩

/-- Joining a path keeps what sort keys read, and binds its alias. -/
theorem Sorted.joinPath (h : Sorted registry e paths sorts orders q) {path : List String}
    (hpath : path ∈ paths) (hne : path ≠ []) {tableAlias : String}
    (hjoin : q.joinPath registry path = .ok (tableAlias, r)) :
    Sorted registry e paths sorts orders r ∧ tableAlias = Text.join "_" path ∧
      r.hasJoin tableAlias = true := by
  obtain ⟨walked, hfirst, hwalked⟩ := h.joins
  obtain ⟨halias, hgroup, hlast⟩ := joinPath_steps (FirstJoins.step registry) hfirst hjoin
  have halias : tableAlias = Text.join "_" path := halias.trans (if_neg hne)
  have hkept : ∀ a, q.hasJoin a = true → r.hasJoin a = true := by
    intro a ha
    obtain ⟨other, hother, hsame⟩ := (hfirst.hasJoin_iff a).mp ha
    exact (hlast.hasJoin_iff a).mpr ⟨other, List.mem_append_left _ hother, hsame⟩
  have haggregates : r.aggregates = q.aggregates :=
    joinFrom_keeps Query.aggregates (fun _ _ => rfl) hjoin
  refine ⟨⟨hgroup.trans h.group_eq, ⟨_, hlast, fun other hother => ?_⟩, fun o ho => ?_⟩, halias, ?_⟩
  · rcases List.mem_append.mp hother with hother | hother
    · exact hwalked other hother
    · exact List.mem_flatMap.mpr ⟨path, hpath, hother⟩
  · refine (h.orders o ho).mono hkept fun name hname => ?_
    unfold hasAggregate at hname ⊢
    rwa [haggregates]
  · refine (hlast.hasJoin_iff tableAlias).mpr ⟨path, List.mem_append_right _ ?_, halias.symm⟩
    exact mem_stepsFrom_of_start [] hne (List.prefix_refl path)

/-! ## Sort fields -/

/-- A sort field is a column, a name that nothing checks, or a column at the end of a path. -/
theorem orderBy_sorted {sort : SortField} (hsort : sort ∈ sorts)
    (hpath : ∀ path ∈ sortPath? registry e sort, path ∈ paths)
    (hq : Sorted registry e paths sorts q.orders q) (h : orderBy registry sort q = .ok r) :
    Sorted registry e paths sorts r.orders r := by
  obtain rfl := hq.entity_eq
  cases orderBy_step h with
  | own hcolumn =>
    have hsame : q.column (Text.trim sort.field) = .field q.entity.table (Text.trim sort.field) :=
      congrArg (Column.field · _) hq.qualifier_eq
    have hsorts : SortsBy registry q.entity paths sorts q
        (.column (q.column (Text.trim sort.field))) := by
      rw [hsame]
      exact .own hcolumn
    exact (hq.append hsorts sort.direction).keep rfl rfl fun _ hname => hname
  | named hcolumn hform =>
    have hnamed : NamesOutput q.entity sorts (.output (Text.trim sort.field)) :=
      ⟨sort, hsort, rfl, hform, hcolumn⟩
    exact (hq.append (.named hnamed) sort.direction).keep rfl rfl fun _ hname => hname
  | @along path target tableAlias joined hcolumn hform hread hrelated hwalk htarget hjoin =>
    have hmem : path.relations ∈ paths := by
      refine hpath _ ?_
      unfold sortPath?
      simp only [hcolumn, hform, ← hread, hrelated, Bool.or_self, Bool.false_eq_true, if_false,
        if_true]
      rfl
    have hne : path.relations ≠ [] := by simpa [FieldPath.isRelated] using hrelated
    obtain ⟨hjoined, rfl, hbound⟩ := hq.joinPath hmem hne hjoin
    have hsorts : SortsBy registry q.entity paths sorts joined
        (.column (.field (Text.join "_" path.relations) path.column)) :=
      .along (mem_steps_of_start hmem hne (List.prefix_refl _)) hbound hwalk htarget
    rw [← joinFrom_keeps Query.orders (fun _ _ => rfl) hjoin] at hjoined
    exact (hjoined.append hsorts sort.direction).keep rfl rfl fun _ hname => hname

theorem orderByAll_sorted
    (hpaths : ∀ path ∈ sorts.filterMap (sortPath? registry e), path ∈ paths)
    (hq : Sorted registry e paths sorts q.orders q) (h : orderByAll registry sorts q = .ok r) :
    Sorted registry e paths sorts r.orders r := by
  refine @foldlM_keeps _ _ _ _ (fun q => Sorted registry e paths sorts q.orders q) _ _ _ h
    (fun sort hsort q r hstep hq => ?_) hq
  refine orderBy_sorted hsort (fun path hpath => hpaths path ?_) hq hstep
  exact List.mem_filterMap.mpr ⟨sort, hsort, hpath⟩

/-! ## Rules and requests -/

theorem Sorted.addPredicate (h : Sorted registry e paths sorts orders q) (connective : Connective)
    (p : Option Predicate) :
    Sorted registry e paths sorts orders (q.addPredicate connective p) := by
  cases p with
  | none => exact h
  | some p => exact h.keep rfl rfl fun _ hname => hname

theorem addPredicate_orders (q : Query) (connective : Connective) (p : Option Predicate) :
    (q.addPredicate connective p).orders = q.orders := by
  cases p <;> rfl

theorem joinAll_sorted {filters : FilterSet} {tree : Rule.Tree}
    (hpaths : ∀ path ∈ treePaths filters registry e tree, path ∈ paths)
    (hq : Sorted registry e paths sorts orders q)
    (h : joinAll registry (joinTargets filters registry e tree) q = .ok r) :
    Sorted registry e paths sorts orders r := by
  refine foldlM_keeps h (fun t ht q r hstep hq => ?_) hq
  obtain ⟨⟨tableAlias, joined⟩, hjoin, rfl⟩ := map_eq_ok hstep
  obtain ⟨hne, hpath, -⟩ := joinTargets_paths ht
  exact (hq.joinPath (hpaths _ hpath) hne hjoin).1

section
variable {filters : FilterSet} {context : CompileContext}

/-- A tree whose rules are handed to no custom predicate brings no sort key of its own. -/
theorem addTree_sorted {tree : Rule.Tree}
    (hnone : ∀ placed ∈ tree.placed, ∀ r, resolve filters placed.2 = .ok r → r.custom? = none)
    (hpaths : ∀ path ∈ treePaths filters registry e tree, path ∈ paths)
    (hq : Sorted registry e paths sorts orders q)
    (h : addTree filters registry context tree q = .ok r) :
    Sorted registry e paths sorts orders r ∧ r.orders = q.orders := by
  have hput : ∀ {env : Environment} {start group : Query},
      compileTree filters env tree q.group = .ok group →
        Sorted registry e paths sorts orders start → start.orders = q.orders →
          Sorted registry e paths sorts orders (putRules start group) ∧
            (putRules start group).orders = q.orders := by
    intro env start group hgroup hstart hkept
    have hput : putRules start group = start.addPredicate .and group.groupPredicate :=
      Query.absorb_of_clauses (compileNodes_clauses hnone hgroup) start .and
    rw [hput]
    exact ⟨hstart.addPredicate .and _, (addPredicate_orders ..).trans hkept⟩
  unfold addTree at h
  split at h
  · rw [hq.entity_eq] at h
    obtain ⟨joined, hjoined, h⟩ := bind_eq_ok h
    obtain ⟨group, hgroup, h⟩ := bind_eq_ok h
    cases h
    exact hput hgroup (joinAll_sorted hpaths hq hjoined)
      (joinAll_keeps Query.orders (fun _ _ => rfl) hjoined)
  · obtain ⟨group, hgroup, h⟩ := bind_eq_ok h
    cases h
    exact hput hgroup hq rfl

theorem addRules_sorted {payload : Json}
    (hnone : ∀ placed ∈ placedRules filters context payload, ∀ r,
      resolve filters placed.2 = .ok r → r.custom? = none)
    (hpaths : ∀ path ∈ (Rule.Tree.read? payload).toList.flatMap (treePaths filters registry e),
      path ∈ paths)
    (hq : Sorted registry e paths sorts orders q)
    (h : addRules filters registry context payload q = .ok r) :
    Sorted registry e paths sorts orders r ∧ r.orders = q.orders := by
  unfold addRules at h
  unfold placedRules at hnone
  cases hread : Rule.Tree.read? payload with
  | none =>
    rw [hread] at h
    cases h
    exact ⟨hq, rfl⟩
  | some tree =>
    simp only [hread] at h hnone
    rw [hread, Option.toList_some, List.flatMap_singleton,
      ← Rule.treePaths_fillUser filters registry e context.user] at hpaths
    exact addTree_sorted hnone hpaths hq h

theorem search_sorted {settings : QuerySettings} {parameters : Parameters}
    (hq : Sorted registry e paths sorts orders q)
    (h : search registry context settings {} parameters q = .ok r) :
    Sorted registry e paths sorts orders r ∧ r.orders = q.orders := by
  rcases search_cases h with ⟨-, rfl⟩ | ⟨text, fields, found, group, -, -, -, hgroup, rfl⟩
  · exact ⟨hq, rfl⟩
  · rw [absorb_of_unextended rfl hgroup]
    exact ⟨hq.addPredicate .and _, addPredicate_orders ..⟩

end

/-- A requested order takes the place of the one before. -/
theorem requestOrder_sorted {parameters : Parameters}
    (hpaths : ∀ path ∈ parameters.order.filterMap (sortPath? registry e), path ∈ paths)
    (hq : Sorted registry e paths sorts q.orders q)
    (h : requestOrder registry parameters q = .ok r) :
    Sorted registry e paths (if parameters.order.isEmpty then sorts else parameters.order)
      r.orders r := by
  rcases requestOrder_cases h with ⟨hnone, rfl⟩ | ⟨hsome, h⟩
  · rwa [if_pos hnone]
  · rw [if_neg (by simp [hsome])]
    have hforgot : Sorted registry e paths parameters.order [] q.forgetOrders :=
      hq.unsorted.keep rfl rfl fun _ hname => hname
    exact orderByAll_sorted hpaths hforgot h

theorem requestSelect_sorted {parameters : Parameters}
    (hq : Sorted registry e paths sorts orders q) (h : requestSelect parameters q = .ok r) :
    Sorted registry e paths sorts orders r ∧ r.orders = q.orders := by
  rcases requestSelect_cases h with rfl | rfl
  · exact ⟨hq, rfl⟩
  · refine ⟨?_, select_keeps _ (fun _ _ => rfl) ..⟩
    refine hq.keep (select_keeps _ (fun _ _ => rfl) ..) (select_keeps _ (fun _ _ => rfl) ..)
      fun name hname => ?_
    rwa [select_keeps (Query.hasAggregate · name) fun _ _ => rfl]

theorem requestLoad_sorted {parameters : Parameters}
    (hq : Sorted registry e paths sorts orders q)
    (h : requestLoad registry parameters q = .ok r) :
    Sorted registry e paths sorts orders r ∧ r.orders = q.orders := by
  obtain rfl := requestLoad_eq h
  refine ⟨?_, load_keeps _ (fun _ _ => rfl) ..⟩
  refine hq.keep (load_keeps _ (fun _ _ => rfl) ..) (load_keeps _ (fun _ _ => rfl) ..)
    fun name hname => ?_
  rwa [load_keeps (Query.hasAggregate · name) fun _ _ => rfl]

theorem requestTake_sorted {settings : QuerySettings} {parameters : Parameters}
    (hq : Sorted registry e paths sorts orders q) :
    Sorted registry e paths sorts orders (requestTake settings parameters q) ∧
      (requestTake settings parameters q).orders = q.orders := by
  rcases requestTake_cases settings parameters q with h | ⟨limit, h⟩ <;> rw [h]
  · exact ⟨hq, rfl⟩
  · exact ⟨hq.keep rfl rfl fun _ hname => hname, rfl⟩

section
variable {context : CompileContext} {settings : QuerySettings} {parameters : Parameters}

/-- Of the parts of a request only its order touches sort keys. -/
theorem request_orders_once (hq : Sorted registry e paths sorts orders q)
    (h : request registry context settings {} parameters q = .ok r) :
    ∃ searched ordered, Sorted registry e paths sorts orders searched ∧
      searched.orders = q.orders ∧ requestOrder registry parameters searched = .ok ordered ∧
        ∀ {sorts orders}, Sorted registry e paths sorts orders ordered →
          Sorted registry e paths sorts orders r ∧ r.orders = ordered.orders := by
  obtain ⟨searched, ordered, selected, loaded, hsearch, horder, hselect, hload, rfl⟩ :=
    request_parts h
  obtain ⟨hsearched, hkept⟩ := search_sorted hq hsearch
  refine ⟨searched, ordered, hsearched, hkept, horder, fun hordered => ?_⟩
  obtain ⟨hselected, hselect⟩ := requestSelect_sorted hordered hselect
  obtain ⟨hloaded, hload⟩ := requestLoad_sorted hselected hload
  obtain ⟨htaken, htake⟩ := requestTake_sorted hloaded
  exact ⟨htaken, htake.trans (hload.trans hselect)⟩

theorem request_sorted
    (hpaths : ∀ path ∈ parameters.order.filterMap (sortPath? registry e), path ∈ paths)
    (hq : Sorted registry e paths sorts q.orders q)
    (h : request registry context settings {} parameters q = .ok r) :
    Sorted registry e paths (if parameters.order.isEmpty then sorts else parameters.order)
      r.orders r := by
  obtain ⟨searched, ordered, hsearched, hkept, horder, hrest⟩ := request_orders_once hq h
  rw [← hkept] at hsearched
  obtain ⟨hsorted, hsame⟩ := hrest (requestOrder_sorted hpaths hsearched horder)
  rwa [hsame]

theorem request_unsorted (hnone : parameters.order = [])
    (hq : Sorted registry e paths sorts [] q)
    (h : request registry context settings {} parameters q = .ok r) :
    Sorted registry e paths sorts [] r ∧ r.orders = q.orders := by
  obtain ⟨searched, ordered, hsearched, hkept, horder, hrest⟩ := request_orders_once hq h
  rcases requestOrder_cases horder with ⟨-, rfl⟩ | ⟨hsome, -⟩
  swap
  · rw [hnone] at hsome
    cases hsome
  obtain ⟨hsorted, hsame⟩ := hrest hsearched
  exact ⟨hsorted, hsame.trans hkept⟩

end

/-! ## Tables -/

theorem countRelated_projects {relation name : String}
    (h : q.countRelated registry relation = .ok (name, r)) :
    name = aggregateName relation .count none ∧ r.hasAggregate name = true ∧
      ∀ other, q.hasAggregate other = true → r.hasAggregate other = true := by
  unfold Query.countRelated Query.aggregate at h
  simp only at h
  split at h
  next hhas =>
    cases h
    exact ⟨rfl, hhas, fun _ hother => hother⟩
  next hfree =>
    obtain ⟨asked, -, h⟩ := bind_eq_ok h
    cases h
    unfold addAggregate
    rw [if_neg hfree]
    unfold hasAggregate
    refine ⟨rfl, ?_, fun other hother => ?_⟩
    · simp
    · rw [List.any_append, hother, Bool.true_or]

theorem Sorted.countRelated (h : Sorted registry e paths sorts orders q) {relation name : String}
    (hcount : q.countRelated registry relation = .ok (name, r)) :
    Sorted registry e paths sorts orders r :=
  h.keep (countRelated_keeps Query.group (fun _ _ => rfl) hcount)
    (countRelated_keeps Query.joins (fun _ _ => rfl) hcount) (countRelated_projects hcount).2.2

theorem addCounts_sorted {columns : List TableColumn} (hq : Sorted registry e paths sorts orders q)
    (h : addCounts registry columns q = .ok r) : Sorted registry e paths sorts orders r := by
  refine foldlM_keeps h (fun column _ q r hstep hq => ?_) hq
  obtain ⟨⟨name, next⟩, hcount, rfl⟩ := map_eq_ok hstep
  exact hq.countRelated hcount

/-- Whether what a column of a table shows through to-one relations is a column of the entity at
their end. -/
def ShowsColumn (registry : Registry) (e : Entity) (column : TableColumn) : Prop :=
  ∀ path ∈ columnPath? registry e column, ∀ target, registry.walk e path = .ok target →
    target.hasColumn (column.relationField.getD column.key) = true

/-- What sorting by a column sorts by is found in the query with the joins and counts that this
needs. -/
theorem sortTarget_sorted {column : TableColumn} {target : Option OrderTarget}
    (hshows : ShowsColumn registry e column)
    (hpath : ∀ path ∈ columnPath? registry e column, path ∈ paths)
    (hq : Sorted registry e paths sorts orders q)
    (h : sortTarget registry column q = .ok (target, r)) :
    target = columnTarget? registry e column ∧ r.orders = q.orders ∧
      Sorted registry e paths sorts orders r ∧
        ∀ found ∈ target, SortsBy registry e paths sorts r found := by
  obtain rfl := hq.entity_eq
  unfold columnTarget?
  unfold ShowsColumn columnPath? at hshows
  unfold columnPath? at hpath
  cases sortTarget_step h with
  | counted hcounts hcount =>
    obtain ⟨rfl, hprojected, -⟩ := countRelated_projects hcount
    rw [if_pos hcounts]
    refine ⟨rfl, countRelated_keeps Query.orders (fun _ _ => rfl) hcount, hq.countRelated hcount,
      fun found hfound => ?_⟩
    cases hfound
    exact .projected hprojected
  | @joined relation tableAlias _ hcounts hrelation htoOne hjoin =>
    simp only [hcounts, hrelation, Bool.false_eq_true, if_false, Option.map_some,
      Option.filter_some, htoOne, if_true] at hshows hpath ⊢
    have hne := Text.split_ne_nil '.' relation
    have hmem := hpath _ rfl
    obtain ⟨hjoined, rfl, hbound⟩ := hq.joinPath hmem hne hjoin
    obtain ⟨shown, hwalk⟩ := Registry.walk_of_isToOnePath htoOne
    refine ⟨rfl, joinFrom_keeps Query.orders (fun _ _ => rfl) hjoin, hjoined,
      fun found hfound => ?_⟩
    cases hfound
    exact .along (mem_steps_of_start hmem hne (List.prefix_refl _)) hbound hwalk
      (hshows _ rfl shown hwalk)
  | own hcounts hrelation hcolumn =>
    have hsame : q.column column.key = .field q.entity.table column.key :=
      congrArg (Column.field · _) hq.qualifier_eq
    simp only [hcounts, hrelation, hcolumn, hsame, Bool.false_eq_true, if_false, if_true]
    refine ⟨trivial, trivial, hq, fun found hfound => ?_⟩
    cases hfound
    exact .own hcolumn
  | many hcounts hrelation htoOne =>
    simp only [hcounts, hrelation, htoOne, Bool.false_eq_true, if_false]
    exact ⟨trivial, trivial, hq, by simp⟩
  | unknown hcounts hrelation hcolumn =>
    simp only [hcounts, hrelation, hcolumn, Bool.false_eq_true, if_false]
    exact ⟨trivial, trivial, hq, by simp⟩

/-- Induction over the requested orders: what is found for one is still there after the later
ones. -/
theorem sortTargets_sorted {columns : List TableColumn} {requested : List SortField}
    {found : List Order}
    (hshows : ∀ sort ∈ requested, ∀ column ∈ sortColumn? columns sort,
      ShowsColumn registry e column)
    (hpaths : ∀ path ∈ requested.filterMap fun sort =>
      (sortColumn? columns sort).bind (columnPath? registry e), path ∈ paths)
    (hq : Sorted registry e paths sorts orders q)
    (h : sortTargets registry columns requested q = .ok (found, r)) :
    found = tableOrders registry e columns requested ∧ r.orders = q.orders ∧
      Sorted registry e paths sorts (orders ++ found) r := by
  induction requested generalizing q orders found with
  | nil =>
    cases h
    refine ⟨rfl, rfl, ?_⟩
    rwa [List.append_nil]
  | cons sort rest ih =>
    have hrest : ∀ path ∈ rest.filterMap fun sort =>
        (sortColumn? columns sort).bind (columnPath? registry e), path ∈ paths := by
      intro path hpath
      obtain ⟨other, hother, hread⟩ := List.mem_filterMap.mp hpath
      exact hpaths path (List.mem_filterMap.mpr ⟨other, List.mem_cons_of_mem _ hother, hread⟩)
    have ih := fun {q orders found} =>
      @ih q orders found (fun other hother => hshows other (List.mem_cons_of_mem _ hother)) hrest
    unfold sortTargets at h
    rw [show (columns.find? fun c => c.key == sort.field && c.sortable) =
      sortColumn? columns sort from rfl] at h
    rw [tableOrders_cons]
    cases hcolumn : sortColumn? columns sort with
    | none =>
      rw [hcolumn] at h
      exact ih hq h
    | some column =>
      rw [hcolumn] at h
      obtain ⟨⟨target, next⟩, htarget, h⟩ := bind_eq_ok h
      obtain ⟨⟨others, last⟩, hothers, h⟩ := bind_eq_ok h
      have hpath : ∀ path ∈ columnPath? registry e column, path ∈ paths := by
        intro path hpath
        refine hpaths path (List.mem_filterMap.mpr ⟨sort, List.mem_cons_self, ?_⟩)
        rw [hcolumn]
        exact hpath
      obtain ⟨hsame, hkept, hnext, hfound⟩ := sortTarget_sorted
        (hshows sort List.mem_cons_self column hcolumn) hpath hq htarget
      rw [Option.bind_some, ← hsame]
      cases target with
      | none =>
        cases h
        obtain ⟨hlater, hkept', hlast⟩ := ih hnext hothers
        exact ⟨hlater, hkept'.trans hkept, hlast⟩
      | some target =>
        cases h
        obtain ⟨hlater, hkept', hlast⟩ :=
          ih (hnext.append (hfound target rfl) sort.direction) hothers
        refine ⟨congrArg (_ :: ·) hlater, hkept'.trans hkept, ?_⟩
        rwa [List.append_cons]

/-- A table sorts an unsorted query by its columns, or else by the default order of the entity. -/
theorem orderTable_sorted {columns : List TableColumn} {requested : List SortField}
    (hshows : ∀ sort ∈ requested, ∀ column ∈ sortColumn? columns sort,
      ShowsColumn registry e column)
    (hpaths : ∀ path ∈ tablePaths registry e columns requested [], path ∈ paths)
    (hq : Sorted registry e paths e.defaultOrder [] q) (hunsorted : q.orders = [])
    (h : orderTable registry columns requested [] q = .ok r) :
    Sorted registry e paths e.defaultOrder r.orders r := by
  unfold orderTable at h
  obtain ⟨counted, hcounted, h⟩ := bind_eq_ok h
  obtain ⟨⟨found, last⟩, htargets, h⟩ := bind_eq_ok h
  obtain ⟨hfound, hkept, hlast⟩ := sortTargets_sorted hshows
    (fun path hpath => hpaths path (List.mem_append_left _ hpath)) (addCounts_sorted hq hcounted)
    htargets
  have hnone : last.orders = [] := hkept.trans ((addCounts_orders hcounted).trans hunsorted)
  simp only [hnone, List.isEmpty_nil, Bool.not_true, Bool.false_eq_true, if_false, if_true] at h
  split at h
  · cases h
    exact hlast.keep rfl rfl fun _ hname => hname
  next hempty =>
    have hempty : found.isEmpty = true := by simpa using hempty
    rw [hlast.entity_eq] at h
    have hstart : Sorted registry e paths e.defaultOrder last.orders last := by
      rw [hnone]
      exact hlast.unsorted
    refine orderByAll_sorted (fun path hpath => hpaths path ?_) hstart h
    refine List.mem_append_right _ ?_
    rw [if_pos (hfound ▸ hempty)]
    exact hpath

end

end Listing

/-! ## Listings and tables -/

namespace ListingService

open Listing Query

/-- Whether no rule of a listing is handed to a custom predicate. -/
def Start.Plain (start : Start) : Prop :=
  ∀ payload ∈ start.rules, ∀ placed ∈ placedRules start.resource.filters start.context payload,
    ∀ r, resolve start.resource.filters placed.2 = .ok r → r.custom? = none

namespace Start

/-- The paths that the rules of a listing are read through. -/
def rulePaths (registry : Registry) (start : Start) : List (List String) :=
  start.rules.toList.flatMap fun payload => (Rule.Tree.read? payload).toList.flatMap
    (treePaths start.resource.filters registry start.query.entity)

/-- The paths that a listing joins: for its rules, the default order, and the requested one. -/
def listingPaths (registry : Registry) (start : Start) (order : List SortField) :
    List (List String) :=
  start.rulePaths registry ++ (start.query.entity.defaultOrder ++ order).filterMap
    (sortPath? registry start.query.entity)

/-- The paths that a table joins: for its rules, and for the columns that it is sorted by. -/
def tablePaths (registry : Registry) (start : Start) (order : List SortField) :
    List (List String) :=
  start.rulePaths registry ++
    Listing.tablePaths registry start.query.entity start.resource.tableColumns order []

/-- The order of a listing: the requested one, or by default that of the entity. -/
def listingOrder (start : Start) (order : List SortField) : List SortField :=
  if order.isEmpty then start.query.entity.defaultOrder else order

/-- Whether every column that requested orders sort a table by shows a column that exists. -/
def ShowsColumns (registry : Registry) (start : Start) (order : List SortField) : Prop :=
  ∀ sort ∈ order, ∀ column ∈ sortColumn? start.resource.tableColumns sort,
    ShowsColumn registry start.query.entity column

end Start

section
variable {s : ListingService} {store : FilterStore} {caller : Caller} {resource : Resource}
  {source : RuleSource} {view : String} {start : Start}

theorem start_eq (h : s.start store caller resource source view = .ok start) :
    start.resource = resource ∧ start.query = Query.ofEntity start.query.entity := by
  unfold ListingService.start at h
  obtain ⟨context, -, h⟩ := bind_eq_ok h
  obtain ⟨q, hq, h⟩ := bind_eq_ok h
  obtain ⟨e, -, hq⟩ := bind_eq_ok hq
  cases hq
  cases h
  exact ⟨rfl, rfl⟩

theorem addRules_sorted {paths : List (List String)} {sorts : List SortField} {orders : List Order}
    {q r : Query} (hplain : start.Plain)
    (hpaths : ∀ path ∈ start.rulePaths s.catalog.registry, path ∈ paths)
    (hq : Sorted s.catalog.registry start.query.entity paths sorts orders q)
    (h : s.addRules start q = .ok r) :
    Sorted s.catalog.registry start.query.entity paths sorts orders r ∧ r.orders = q.orders := by
  unfold ListingService.addRules at h
  unfold Start.rulePaths at hpaths
  cases hrules : start.rules with
  | none =>
    rw [hrules] at h
    cases h
    exact ⟨hq, rfl⟩
  | some payload =>
    rw [hrules] at h
    rw [hrules, Option.toList_some, List.flatMap_singleton] at hpaths
    exact Listing.addRules_sorted (hplain payload hrules) hpaths hq (liftCompile_eq_ok h)

section
variable {identifier : String} {request : ListingRequest} {q : Query}
  (hresource : s.catalog.get identifier = .ok resource)
  (hstart : s.start store caller resource request.source
    (request.view.getD SavedFilter.defaultView) = .ok start)
  (hplain : start.Plain)

include hresource hstart hplain

/-- A listing is sorted by default first, and then as requested if it is. -/
theorem listing_sorted {paths : List (List String)}
    (hpaths : start.listingPaths s.catalog.registry request.parameters.order ⊆ paths)
    (h : s.listing store caller identifier request = .ok q) :
    Sorted s.catalog.registry start.query.entity paths
      (start.listingOrder request.parameters.order) q.orders q := by
  obtain ⟨-, hquery⟩ := start_eq hstart
  unfold ListingService.listing at h
  simp only [hresource, hstart, bind, Except.bind] at h
  obtain ⟨ordered, hordered, h⟩ := bind_eq_ok h
  obtain ⟨ruled, hruled, h⟩ := bind_eq_ok h
  have hordered : orderByAll s.catalog.registry start.query.entity.defaultOrder
      (Query.ofEntity start.query.entity) = .ok ordered := by
    rw [← hquery]
    exact liftCompile_eq_ok hordered
  unfold Start.listingPaths at hpaths
  rw [List.filterMap_append] at hpaths
  obtain ⟨hrules, horders⟩ := List.append_subset.mp hpaths
  obtain ⟨hdefault, hrequested⟩ := List.append_subset.mp horders
  have hsorted := orderByAll_sorted (fun _ hpath => hdefault hpath) .ofEntity hordered
  obtain ⟨hruled, hkept⟩ := addRules_sorted hplain (fun _ hpath => hrules hpath) hsorted hruled
  rw [← hkept] at hruled
  exact request_sorted (fun _ hpath => hrequested hpath) hruled h

/-- A table is sorted when everything else is done. -/
theorem table_sorted {paths : List (List String)}
    (hpaths : start.tablePaths s.catalog.registry request.parameters.order ⊆ paths)
    (hshows : start.ShowsColumns s.catalog.registry request.parameters.order)
    (h : s.table store caller identifier request = .ok q) :
    Sorted s.catalog.registry start.query.entity paths start.query.entity.defaultOrder
      q.orders q := by
  obtain ⟨rfl, hquery⟩ := start_eq hstart
  unfold ListingService.table at h
  simp only [hresource, hstart, bind, Except.bind] at h
  obtain ⟨ruled, hruled, h⟩ := bind_eq_ok h
  obtain ⟨requested, hrequested, h⟩ := bind_eq_ok h
  rw [hquery] at hruled
  obtain ⟨hrules, htable⟩ := List.append_subset.mp hpaths
  obtain ⟨hruled, hkept⟩ := addRules_sorted hplain (fun _ hpath => hrules hpath) .ofEntity hruled
  obtain ⟨hunsorted, hsame⟩ := request_unsorted rfl hruled hrequested
  exact orderTable_sorted hshows (fun _ hpath => htable hpath) hunsorted (hsame.trans hkept)
    (liftCompile_eq_ok h)

end

end

/-- A sort key of a listing or a table whose rules are handed to no custom predicate is a column of
the entity, a column of the entity that is joined under its qualifier, an aggregate of the query, or
a name in the form of an aggregate's: of a listing one of the requested order, or without one of the
default order, and of a table one of the default order.  Paths must have different aliases for their
own joins to be found under them, and the columns that a table is sorted by must show columns that
exist. -/
theorem orders_executable (s : ListingService) (store : FilterStore) (caller : Caller)
    (identifier : String) (request : ListingRequest) (resource : Resource) (start : Start)
    (hresource : s.catalog.get identifier = .ok resource)
    (hstart : s.start store caller resource request.source
      (request.view.getD SavedFilter.defaultView) = .ok start)
    (hplain : start.Plain) (q : Query) :
    (s.listing store caller identifier request = .ok q →
      AliasesDiffer (start.listingPaths s.catalog.registry request.parameters.order) →
      (q.joins.map Join.tableAlias).Nodup ∧ ∀ o ∈ q.orders,
        CanSortBy s.catalog.registry q o.target ∨
          NamesOutput start.query.entity (start.listingOrder request.parameters.order) o.target) ∧
    (s.table store caller identifier request = .ok q →
      AliasesDiffer (start.tablePaths s.catalog.registry request.parameters.order) →
      start.ShowsColumns s.catalog.registry request.parameters.order →
      (q.joins.map Join.tableAlias).Nodup ∧ ∀ o ∈ q.orders,
        CanSortBy s.catalog.registry q o.target ∨
          NamesOutput start.query.entity start.query.entity.defaultOrder o.target) := by
  refine ⟨fun h hdiffer => ?_, fun h hdiffer hshows => ?_⟩
  · have hsorted := listing_sorted hresource hstart hplain (List.Subset.refl _) h
    exact ⟨hsorted.aliases, fun o ho => hsorted.canSortBy hdiffer ho⟩
  · have hsorted := table_sorted hresource hstart hplain (List.Subset.refl _) hshows h
    exact ⟨hsorted.aliases, fun o ho => hsorted.canSortBy hdiffer ho⟩

/-! ## A sample -/

/-- Contacts in a table of their names, of the companies that their managers are at, and of the
numbers of contacts who report to them. -/
def sampleResource : Resource where
  identifier := "contacts"
  entity := "contact"
  filters := Sample.filters
  tableColumns := [.ofKey "name", .related "manager|company|name" "manager.company" "name",
    .count "reports"]

def sampleService : ListingService := ⟨⟨managedRegistry, [("contacts", sampleResource)]⟩, {}⟩

def sampleCaller : Caller := { user := 1, time := ⟨0, 0⟩ }

/-- Contacts at a company of a certain name, by that of their manager, by the number of contacts who
report to them, and by name. -/
def sampleRequest : ListingRequest where
  parameters := { order := [⟨"manager|company|name", .ascending⟩, ⟨"reports_count", .descending⟩,
    ⟨"name", .ascending⟩] }
  source := { rules := some Sample.ofCompany.toJson }

/-- What the listing and the table start from. -/
def sampleStart : Start where
  resource := sampleResource
  rules := some Sample.ofCompany.toJson
  context := { now := ⟨0, 0⟩, user := some 1 }
  query := Query.ofEntity managedContact

theorem sampleService_start : sampleService.start {} sampleCaller sampleResource
    sampleRequest.source SavedFilter.defaultView = .ok sampleStart :=
  rfl

theorem sampleStart_plain : sampleStart.Plain :=
  fun _ _ _ _ _ hr => custom_none_of_plain Sample.filters_plain hr

theorem sampleStart_showsColumns :
    sampleStart.ShowsColumns managedRegistry sampleRequest.parameters.order := by
  intro sort hsort column hcolumn path hpath target hwalk
  simp only [sampleRequest, List.mem_cons, List.not_mem_nil, or_false] at hsort
  obtain rfl | rfl | rfl := hsort <;> cases hcolumn <;> cases hpath
  cases hwalk
  rfl

/-- What the listing and the table sort by. -/
def sampleOrders : List Order :=
  [⟨.column (.field "manager_company" "name"), .ascending⟩, ⟨.output "reports_count", .descending⟩,
    ⟨.column (.field "contacts" "name"), .ascending⟩]

/-- Both sort alike, but a listing takes the number of reports for granted, which a table counts. -/
theorem orders_executable_sample :
    ∃ listed tabled, sampleService.listing {} sampleCaller "contacts" sampleRequest = .ok listed ∧
      sampleService.table {} sampleCaller "contacts" sampleRequest = .ok tabled ∧
      listed.orders = sampleOrders ∧ tabled.orders = sampleOrders ∧
      (∀ o ∈ listed.orders, CanSortBy managedRegistry listed o.target ∨
        NamesOutput managedContact sampleRequest.parameters.order o.target) ∧
      ∀ o ∈ tabled.orders, CanSortBy managedRegistry tabled o.target := by
  have hlisted : (sampleService.listing {} sampleCaller "contacts" sampleRequest).toOption.map
      Query.orders = some sampleOrders := by
    decide +kernel
  have htabled : (sampleService.table {} sampleCaller "contacts" sampleRequest).toOption.map
      Query.orders = some sampleOrders := by
    decide +kernel
  obtain ⟨listed, hlist, hlistOrders⟩ := Option.map_eq_some_iff.mp hlisted
  obtain ⟨tabled, htable, htableOrders⟩ := Option.map_eq_some_iff.mp htabled
  obtain ⟨hlistings, -⟩ := orders_executable sampleService {} sampleCaller "contacts" sampleRequest
    sampleResource sampleStart rfl sampleService_start sampleStart_plain listed
  obtain ⟨-, htables⟩ := orders_executable sampleService {} sampleCaller "contacts" sampleRequest
    sampleResource sampleStart rfl sampleService_start sampleStart_plain tabled
  obtain ⟨-, hlistings⟩ := hlistings (ok_of_toOption hlist) (by decide +kernel)
  obtain ⟨-, htables⟩ := htables (ok_of_toOption htable) (by decide +kernel)
    sampleStart_showsColumns
  refine ⟨listed, tabled, ok_of_toOption hlist, ok_of_toOption htable, hlistOrders, htableOrders,
    hlistings, fun o ho => ?_⟩
  -- contacts have no default order, so no name is left that nothing projects
  refine (htables o ho).resolve_right ?_
  rintro ⟨sort, hsort, -⟩
  exact absurd hsort List.not_mem_nil

/-- A listing of the same resource, by the number of visits. -/
def visitsRequest : ListingRequest where
  parameters := { order := [⟨"visits_count", .descending⟩] }

/-- Contacts have neither a column nor a relation for the number of visits that a listing, which
projects no aggregate, is sorted by. -/
theorem unprojected_order_accepted :
    ∃ start q, sampleService.start {} sampleCaller sampleResource visitsRequest.source
        SavedFilter.defaultView = .ok start ∧ start.Plain ∧
      sampleService.listing {} sampleCaller "contacts" visitsRequest = .ok q ∧
      ∃ o ∈ q.orders, o.target = .output "visits_count" ∧
        ¬ CanSortBy managedRegistry q o.target := by
  have hrun : (sampleService.listing {} sampleCaller "contacts" visitsRequest).toOption.map
      (fun q => (q.orders, q.hasAggregate "visits_count")) =
        some ([⟨.output "visits_count", .descending⟩], false) := by
    decide +kernel
  obtain ⟨q, hq, hparts⟩ := Option.map_eq_some_iff.mp hrun
  obtain ⟨horders, hnone⟩ := Prod.mk.inj hparts
  refine ⟨{ sampleStart with rules := none }, q, rfl, ?_, ok_of_toOption hq,
    ⟨.output "visits_count", .descending⟩, ?_, rfl, fun hsorts => ?_⟩
  · intro payload hpayload
    cases hpayload
  · rw [horders]
    exact List.mem_singleton_self _
  · cases hsorts with
    | projected haggregate =>
      rw [hnone] at haggregate
      cases haggregate

end ListingService
end Winnow
