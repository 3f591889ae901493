import Winnow.Listing.Table
import Winnow.Proofs.Compile.Agreement
import Winnow.Proofs.Compile.Closed
import Winnow.Proofs.Listing.Narrowing
import Winnow.Proofs.Listing.Scopes

/-!
# Queries of listings are closed

Whatever a listing is refined by, in whatever order and how often, its query
reads only names that it binds (`refine_resolves`).  Rules, requests, exports
and tables keep a query closed one by one: rules join the paths they read before
they are compiled, and orders join the path they sort by; a search asks
questions instead of joining.
-/

namespace Winnow

open Compile

namespace Query

/-! ## Joins and aggregates -/

/-- A query that is closed and binds some names. -/
structure ClosedOver (names : List String) (q : Query) : Prop where
  closed : q.Closed Test.Typed
  binds : names ⊆ q.names

theorem joinPath_closedOver {registry : Registry} {relations names : List String}
    {tableAlias : String} {q r : Query}
    (h : q.joinPath registry relations = .ok (tableAlias, r)) (hq : q.ClosedOver names) :
    r.ClosedOver names ∧ tableAlias ∈ r.names := by
  obtain ⟨hclosed, hbinds, hmem⟩ :=
    joinFrom_closed h hq.closed List.mem_cons_self
  exact ⟨⟨hclosed, List.Subset.trans hq.binds hbinds⟩, hmem⟩

theorem aggregate_closedOver {registry : Registry} {relation name : String}
    {function : AggregateFunction} {column : Option String} {names : List String} {q r : Query}
    (h : q.aggregate registry relation function column = .ok (name, r))
    (hq : q.ClosedOver names) : r.ClosedOver names := by
  have hadd : ∀ {link : Link} {blank : Query} (column : Option String),
      q.relationQuery registry relation = .ok (link, blank) →
        (q.addAggregate ⟨link, blank, function, column, name⟩).ClosedOver names := by
    intro link blank column hlink
    refine ⟨hq.closed.addAggregate (resolves_blank hlink), ?_⟩
    rw [addAggregate_keeps Query.names fun _ _ => rfl]
    exact hq.binds
  unfold Query.aggregate at h
  simp only at h
  split at h
  · cases h
    exact hq
  obtain ⟨⟨link, blank⟩, hlink, h⟩ := bind_eq_ok h
  cases column with
  | none =>
    cases h
    exact hadd none hlink
  | some column =>
    simp only at h
    split at h
    · cases h
    · cases h
      exact hadd (some column) hlink

theorem countRelated_closedOver {registry : Registry} {relation name : String}
    {names : List String} {q r : Query} (h : q.countRelated registry relation = .ok (name, r))
    (hq : q.ClosedOver names) : r.ClosedOver names :=
  aggregate_closedOver h hq

end Query

namespace Listing

/-! ## Rules -/

section
variable {filters : FilterSet} {registry : Registry} {tree : Rule.Tree} {q r : Query}

/-- Joining targets one by one binds the names at the ends of their paths. -/
theorem joinPaths_closedOver {targets : List JoinTarget} {names : List String}
    (hq : q.ClosedOver names)
    (h : targets.foldlM (fun q target => (q.joinPath registry target.relations).map Prod.snd) q =
      .ok r) :
    r.ClosedOver names ∧ q.names ⊆ r.names ∧
      ∀ target ∈ targets, target.relations ≠ [] → Text.join "_" target.relations ∈ r.names := by
  induction targets generalizing q with
  | nil =>
    cases h
    exact ⟨hq, List.Subset.refl _, by simp⟩
  | cons target rest ih =>
    rw [List.foldlM_cons] at h
    obtain ⟨joined, hjoined, h⟩ := bind_eq_ok h
    obtain ⟨⟨tableAlias, next⟩, hpath, hnext⟩ := map_eq_ok hjoined
    cases hnext
    obtain ⟨hclosed, hbound⟩ := Query.joinPath_closedOver hpath ⟨hq.closed, List.Subset.refl _⟩
    obtain ⟨hr, hkept, hrest⟩ := ih ⟨hclosed.closed, List.Subset.trans hq.binds hclosed.binds⟩ h
    refine ⟨hr, List.Subset.trans hclosed.binds hkept, fun other hother hne => ?_⟩
    rcases List.mem_cons.mp hother with rfl | hother
    · have halias := Query.joinFrom_alias hpath hne
      rw [halias] at hbound
      exact hkept hbound
    · exact hrest other hother hne

/-- Joining the targets of a tree binds the names that its rules read joined paths under. -/
theorem joinAll_covers (context : CompileContext) (hq : q.Closed Test.Typed)
    (h : joinAll registry (joinTargets filters registry q.entity tree) q = .ok r) :
    r.ClosedOver q.names ∧ Covers
      ⟨registry, context, some (joinTargets filters registry q.entity tree)⟩ r.names q := by
  obtain ⟨hr, hbinds, hbound⟩ := joinPaths_closedOver ⟨hq, List.Subset.refl _⟩ h
  refine ⟨hr, hbinds List.mem_cons_self, fun path target htarget => ?_⟩
  unfold joinOf? at htarget
  split at htarget
  · have hget : (joinTargets filters registry q.entity tree).get? path.relationPath =
        some target := htarget
    have hmem := Keyed.mem_of_get? hget
    obtain ⟨leaf, -, joined, hread, -, -, rfl⟩ := mem_joinTargets hmem
    exact hbound _ (Keyed.mem_values_of_get? hget) (leafPath?_relations hread).1
  · cases htarget

theorem covers_of_no_joins {context : CompileContext} :
    Covers ⟨registry, context, none⟩ q.names q := by
  refine ⟨List.mem_cons_self, fun path target htarget => ?_⟩
  unfold joinOf? at htarget
  split at htarget <;> cases htarget

variable {context : CompileContext} (hplain : filters.Plain) (hq : q.Closed Test.Typed)

include hplain hq

theorem addTree_closed (h : addTree filters registry context tree q = .ok r) :
    r.Closed Test.Typed := by
  unfold addTree at h
  split at h
  · obtain ⟨joined, hjoined, h⟩ := bind_eq_ok h
    obtain ⟨group, hgroup, h⟩ := bind_eq_ok h
    cases h
    obtain ⟨hclosed, hcovers⟩ := joinAll_covers context hq hjoined
    obtain ⟨hgathers, hsame⟩ := compileNodes_gathers hplain hcovers hgroup
    have hkept : joined.group = q.group := joinAll_keeps Query.group (fun _ _ => rfl) hjoined
    exact hclosed.closed.absorb hgathers (hsame.trans hkept.symm) .and
  · obtain ⟨group, hgroup, h⟩ := bind_eq_ok h
    cases h
    obtain ⟨hgathers, hsame⟩ := compileNodes_gathers hplain covers_of_no_joins hgroup
    exact hq.absorb hgathers hsame .and

theorem addRules_closed {payload : Json}
    (h : addRules filters registry context payload q = .ok r) : r.Closed Test.Typed := by
  unfold addRules at h
  split at h
  · exact addTree_closed hplain hq h
  · cases h
    exact hq

theorem compileNested_closed (h : compileNested filters registry context tree q = .ok r) :
    r.Closed Test.Typed :=
  compileNodes_closed hplain hq covers_of_no_joins h

theorem compileJoined_closed (h : compileJoined filters registry context tree q = .ok r) :
    r.Closed Test.Typed := by
  unfold compileJoined at h
  obtain ⟨joined, hjoined, h⟩ := bind_eq_ok h
  obtain ⟨hclosed, hcovers⟩ := joinAll_covers context hq hjoined
  have hdepth : joined.depth = q.depth := joinAll_keeps Query.depth (fun _ _ => rfl) hjoined
  refine compileNodes_closed hplain hclosed.closed
    ⟨List.mem_cons_self, fun path target htarget => ?_⟩ h
  unfold joinOf? at htarget
  rw [hdepth] at htarget
  exact hcovers.joined path target htarget

end

/-! ## Search -/

section
variable {registry : Registry} {context : CompileContext} {settings : QuerySettings} {q r : Query}

theorem searchPredicate_eq_ok {env : Environment} {column : SearchableColumn} {text : String}
    {p : Predicate} (h : searchPredicate env q column text = .ok (some p)) :
    fieldPredicate env q column.field (Filter.plain .text column.field column.field)
      (searchOperation column.operator) (.string text) = .ok (some p) := by
  unfold searchPredicate at h
  simp only at h
  split at h
  · cases h
  · exact h

/-- Clauses appended one by one. -/
theorem foldl_addClause_gathers {names : List String} {g : Query}
    (hg : g.Gathers Test.Typed names) (connective : Connective) {ps : List Predicate}
    (hps : ∀ p ∈ ps, p.ResolvesIn Test.Typed g.qualifier names) :
    (ps.foldl (fun q p => q.addClause connective p) g).Gathers Test.Typed names ∧
      (ps.foldl (fun q p => q.addClause connective p) g).group = g.group := by
  induction ps generalizing g with
  | nil => exact ⟨hg, rfl⟩
  | cons p ps ih =>
    exact ih (hg.addClause connective (hps p List.mem_cons_self))
      fun p' hp' => hps p' (List.mem_cons_of_mem p hp')

/-- Matches are clauses of the group. -/
theorem addMatches_gathers {names : List String} {mode : SearchMatch} {g : Query}
    (hg : g.Gathers Test.Typed names) {ps : List Predicate}
    (hps : ∀ p ∈ ps, p.ResolvesIn Test.Typed g.qualifier names) :
    (addMatches mode g ps).Gathers Test.Typed names ∧ (addMatches mode g ps).group = g.group := by
  cases ps with
  | nil => exact ⟨hg, rfl⟩
  | cons p ps =>
    exact foldl_addClause_gathers (hg.addClause .and (hps p List.mem_cons_self)) _
      fun p' hp' => hps p' (List.mem_cons_of_mem p hp')

/-- A search tests its fields by questions, not by joins, or looks up a key. -/
theorem searchGroup_gathers {parameters : Parameters} {fields : List SearchableColumn}
    {text : String} {g : Query}
    (h : searchGroup ⟨registry, context, none⟩ settings parameters fields text q = .ok g) :
    g.Gathers Test.Typed q.names ∧ g.group = q.group := by
  have hblank : q.group.Gathers Test.Typed q.names := .blank
  unfold searchGroup at h
  simp only at h
  split at h
  next key hkey =>
    cases h
    refine ⟨hblank.addClause .and ⟨fun t ht => ?_, fun asked hasked => ?_⟩, rfl⟩
    · rw [predicateTests, List.mem_singleton] at ht
      rw [ht]
      have hinteger : (Value.integer key).isOf .integer = true := rfl
      exact ⟨List.mem_cons_self, Test.typed_compare _ _ hinteger⟩
    · exact absurd hasked List.not_mem_nil
  next =>
    obtain ⟨predicates, hpredicates, h⟩ := bind_eq_ok h
    cases h
    refine addMatches_gathers hblank fun p hp => ?_
    obtain ⟨found, hfound, hsame⟩ := List.mem_filterMap.mp hp
    cases hsame
    obtain ⟨⟨column, value⟩, -, hread⟩ := of_mem_mapM hpredicates hfound
    have hresolves : p.ResolvesIn Test.Typed q.qualifier q.names :=
      fieldPredicate_resolves covers_of_no_joins (searchPredicate_eq_ok hread)
    exact hresolves

theorem search_closed {scope : SearchScope} (hextend : scope.extend = .ok)
    {parameters : Parameters} (hq : q.Closed Test.Typed)
    (h : search registry context settings scope parameters q = .ok r) : r.Closed Test.Typed := by
  unfold search at h
  split at h
  · cases h
    exact hq
  · obtain ⟨fields, -, h⟩ := bind_eq_ok h
    obtain ⟨found, hfound, h⟩ := bind_eq_ok h
    obtain ⟨group, hgroup, h⟩ := bind_eq_ok h
    rw [hextend] at hgroup
    cases hgroup
    cases h
    obtain ⟨hgathers, hsame⟩ := searchGroup_gathers (liftCompile_eq_ok hfound)
    have hblank : q.group.Gathers Test.Typed q.names := .blank
    refine hq.absorb (hblank.addGroup hgathers hsame .and) ?_ .and
    exact Query.addGroup_group ..

end

/-! ## Orders, projections and pages -/

section
variable {registry : Registry} {q r : Query}

theorem orderBy_closed {sort : SortField} (hq : q.Closed Test.Typed)
    (h : orderBy registry sort q = .ok r) : r.Closed Test.Typed := by
  cases orderBy_step h with
  | own =>
    refine hq.addOrder (fun column hcolumn => ?_) sort.direction
    cases hcolumn
    exact List.mem_cons_self
  | named => exact hq.addOrder (fun column hcolumn => by cases hcolumn) sort.direction
  | along _ _ _ _ _ _ hjoin =>
    obtain ⟨hclosed, hbound⟩ := Query.joinPath_closedOver hjoin ⟨hq, List.Subset.refl _⟩
    refine hclosed.closed.addOrder (fun column hcolumn => ?_) sort.direction
    cases hcolumn
    exact hbound

theorem orderByAll_closed {sorts : List SortField} (hq : q.Closed Test.Typed)
    (h : orderByAll registry sorts q = .ok r) : r.Closed Test.Typed :=
  foldlM_keeps h (fun _ _ _ _ hstep hclosed => orderBy_closed hclosed hstep) hq

theorem requestOrder_closed {parameters : Parameters} (hq : q.Closed Test.Typed)
    (h : requestOrder registry parameters q = .ok r) : r.Closed Test.Typed := by
  rcases requestOrder_cases h with ⟨-, rfl⟩ | ⟨-, h⟩
  · exact hq
  · refine orderByAll_closed ?_ h
    exact hq.of_bare rfl fun o ho => absurd ho List.not_mem_nil

theorem requestSelect_closed {parameters : Parameters} (hq : q.Closed Test.Typed)
    (h : requestSelect parameters q = .ok r) : r.Closed Test.Typed := by
  rcases requestSelect_cases h with rfl | rfl
  · exact hq
  · refine hq.of_bare (Query.select_keeps Query.bare (fun _ _ => rfl) ..) ?_
    rw [Query.select_keeps Query.orders fun _ _ => rfl]
    exact hq.orders

theorem requestLoad_closed {parameters : Parameters} (hq : q.Closed Test.Typed)
    (h : requestLoad registry parameters q = .ok r) : r.Closed Test.Typed := by
  rw [requestLoad_eq h]
  refine hq.of_bare (Query.load_keeps Query.bare (fun _ _ => rfl) ..) ?_
  rw [Query.load_keeps Query.orders fun _ _ => rfl]
  exact hq.orders

theorem requestTake_closed (settings : QuerySettings) (parameters : Parameters)
    (hq : q.Closed Test.Typed) : (requestTake settings parameters q).Closed Test.Typed := by
  rcases requestTake_cases settings parameters q with h | ⟨limit, h⟩ <;> rw [h]
  · exact hq
  · exact hq.of_bare rfl hq.orders

theorem request_closed {context : CompileContext} {settings : QuerySettings} {scope : SearchScope}
    (hextend : scope.extend = .ok) {parameters : Parameters} (hq : q.Closed Test.Typed)
    (h : Listing.request registry context settings scope parameters q = .ok r) :
    r.Closed Test.Typed := by
  obtain ⟨searched, ordered, selected, loaded, hsearch, horder, hselect, hload, rfl⟩ :=
    request_parts h
  have hordered := requestOrder_closed (search_closed hextend hq hsearch) horder
  exact requestTake_closed settings parameters
    (requestLoad_closed (requestSelect_closed hordered hselect) hload)

end

/-! ## Exports -/

section
variable {context : CompileContext} {column : String} {q r : Query}

theorem periodBounds_isOf {type : ColumnType} {start finish : Date} {low high : Value}
    (h : periodBounds context column type start finish = .ok (low, high)) :
    low.isOf type = true ∧ high.isOf type = true := by
  unfold periodBounds at h
  split at h
  · cases h
    exact ⟨rfl, rfl⟩
  · cases h
    exact ⟨rfl, rfl⟩
  · cases h

theorem addPeriod_closed {type : ColumnType} {period : Period} (hq : q.Closed Test.Typed)
    (h : addPeriod context column type period q = .ok r) : r.Closed Test.Typed := by
  obtain ⟨start, finish, low, high, -, hbounds, rfl⟩ := addPeriod_cases h
  obtain ⟨hlow, hhigh⟩ := periodBounds_isOf hbounds
  refine hq.addClause .and ⟨fun t ht => ?_, fun asked hasked => ?_⟩
  · obtain ⟨hcolumn, htyped⟩ := halfOpen_typed hlow hhigh t ht
    rw [hcolumn]
    exact ⟨List.mem_cons_self, htyped⟩
  · exact absurd hasked List.not_mem_nil

theorem export_closed {period : Option Period} (hq : q.Closed Test.Typed)
    (h : Listing.export_ context column period q = .ok r) : r.Closed Test.Typed := by
  have horder : ∀ q : Query, q.Closed Test.Typed →
      (q.forgetOrders.orderByColumn column .descending).Closed Test.Typed := by
    intro q hq
    have hforget : q.forgetOrders.Closed Test.Typed :=
      hq.of_bare rfl fun o ho => absurd ho List.not_mem_nil
    refine hforget.addOrder (fun other hother => ?_) .descending
    cases hother
    exact List.mem_cons_self
  obtain ⟨type, bounded, -, ⟨-, rfl⟩ | ⟨days, -, hbounded⟩, rfl⟩ := export_cases h
  · exact horder bounded hq
  · exact horder bounded (addPeriod_closed hq hbounded)

end

/-! ## Tables -/

section
variable {registry : Registry} {q r : Query} {names : List String}

theorem addCounts_closedOver {columns : List TableColumn} (hq : q.ClosedOver names)
    (h : addCounts registry columns q = .ok r) : r.ClosedOver names := by
  refine foldlM_keeps h (fun column _ q r hstep hclosed => ?_) hq
  obtain ⟨⟨name, next⟩, hcount, hnext⟩ := map_eq_ok hstep
  cases hnext
  exact Query.countRelated_closedOver hcount hclosed

/-- What a column sorts by is bound once its joins are in place. -/
theorem sortTarget_closedOver {column : TableColumn} {target : Option OrderTarget}
    (hq : q.ClosedOver names) (h : sortTarget registry column q = .ok (target, r)) :
    r.ClosedOver names ∧ ∀ found ∈ target, ∀ column, found = .column column →
      column.qualifier ∈ r.names := by
  cases sortTarget_step h with
  | counted _ hcount => exact ⟨Query.countRelated_closedOver hcount hq, by simp⟩
  | joined _ _ _ hjoin =>
    obtain ⟨hclosed, hbound⟩ := Query.joinPath_closedOver hjoin hq
    refine ⟨hclosed, fun found hfound column hcolumn => ?_⟩
    cases hfound
    cases hcolumn
    exact hbound
  | own =>
    refine ⟨hq, fun found hfound column hcolumn => ?_⟩
    cases hfound
    cases hcolumn
    exact List.mem_cons_self
  | many => exact ⟨hq, by simp⟩
  | unknown => exact ⟨hq, by simp⟩

/-- Induction over the requested orders: later ones bind more names and keep those of earlier
ones. -/
theorem sortTargets_closedOver {columns : List TableColumn} {sorts : List SortField}
    {orders : List Order} (hq : q.ClosedOver names)
    (h : sortTargets registry columns sorts q = .ok (orders, r)) :
    r.ClosedOver names ∧ ∀ o ∈ orders, ∀ column, o.target = .column column →
      column.qualifier ∈ r.names := by
  induction sorts generalizing q r names orders with
  | nil =>
    cases h
    exact ⟨hq, by simp⟩
  | cons sort rest ih =>
    unfold sortTargets at h
    split at h
    · exact ih hq h
    · obtain ⟨⟨target, next⟩, htarget, h⟩ := bind_eq_ok h
      obtain ⟨⟨others, last⟩, hothers, h⟩ := bind_eq_ok h
      obtain ⟨hnext, hbound⟩ := sortTarget_closedOver hq htarget
      obtain ⟨hlast, hrest⟩ := ih ⟨hnext.closed, List.Subset.refl _⟩ hothers
      have hnames : names ⊆ last.names := List.Subset.trans hnext.binds hlast.binds
      cases target with
      | none =>
        cases h
        exact ⟨⟨hlast.closed, hnames⟩, hrest⟩
      | some found =>
        cases h
        refine ⟨⟨hlast.closed, hnames⟩, fun o ho column hcolumn => ?_⟩
        rcases List.mem_cons.mp ho with rfl | ho
        · exact hlast.binds (hbound found rfl column hcolumn)
        · exact hrest o ho column hcolumn

theorem orderTable_closed {columns : List TableColumn} {order defaultOrder : List SortField}
    (hq : q.Closed Test.Typed)
    (h : orderTable registry columns order defaultOrder q = .ok r) : r.Closed Test.Typed := by
  unfold orderTable at h
  obtain ⟨counted, hcounted, h⟩ := bind_eq_ok h
  obtain ⟨⟨orders, sorted⟩, hsorted, h⟩ := bind_eq_ok h
  have hclosed := addCounts_closedOver ⟨hq, List.Subset.refl _⟩ hcounted
  obtain ⟨hsorted, horders⟩ := sortTargets_closedOver hclosed hsorted
  simp only at h
  split at h
  · cases h
    exact hsorted.closed.of_bare rfl horders
  · split at h
    · cases h
      exact hsorted.closed
    · exact orderByAll_closed hsorted.closed h

end

/-! ## Refinements -/

/-- What the query of a listing is refined by: criteria, the columns of a table, or a tree of rules
that is compiled into the query itself, with its to-one paths joined or not. -/
inductive Refinement where
  | criteria (criteria : Criteria)
  | table (columns : List TableColumn) (order defaultOrder : List SortField)
  | tree (filters : FilterSet) (tree : Rule.Tree) (joined : Bool)

namespace Refinement

/-- Refines a query. -/
def apply (registry : Registry) (context : CompileContext) :
    Refinement → Query → Except Failure Query
  | .criteria c, q => c.apply registry context q
  | .table columns order defaultOrder, q =>
    Failure.liftCompile (orderTable registry columns order defaultOrder q)
  | .tree filters t joined, q =>
    Failure.liftCompile
      (if joined then compileJoined filters registry context t q
      else compileNested filters registry context t q)

/-- Whether no code of others has a part in a refinement: no custom predicate takes over a rule, and
nothing is added to a search. -/
def Plain : Refinement → Prop
  | .criteria (.rules filters _) | .tree filters _ _ => filters.Plain
  | .criteria (.request _ scope _) => scope.extend = .ok
  | .criteria (.export_ ..) | .table .. => True

end Refinement

/-- One step of putting a query together. -/
structure Step where
  registry : Registry
  context : CompileContext
  refinement : Refinement

/-- Refines a query step by step. -/
def refine (steps : List Step) (q : Query) : Except Failure Query :=
  steps.foldlM (fun q step => step.refinement.apply step.registry step.context q) q

/-- A step keeps a query closed. -/
theorem Refinement.apply_closed {refinement : Refinement} (hplain : refinement.Plain)
    {registry : Registry} {context : CompileContext} {q r : Query} (hq : q.Closed Test.Typed)
    (h : refinement.apply registry context q = .ok r) : r.Closed Test.Typed := by
  cases refinement with
  | criteria criteria =>
    cases criteria with
    | rules filters payload => exact addRules_closed hplain hq (liftCompile_eq_ok h)
    | request settings scope parameters => exact request_closed hplain hq h
    | export_ column period => exact export_closed hq (liftCompile_eq_ok h)
  | table columns order defaultOrder => exact orderTable_closed hq (liftCompile_eq_ok h)
  | tree filters tree joined =>
    have h := liftCompile_eq_ok h
    split at h
    · exact compileJoined_closed hplain hq h
    · exact compileNested_closed hplain hq h

/-- So does a run. -/
theorem refine_closed {steps : List Step} (hplain : ∀ step ∈ steps, step.refinement.Plain)
    {e : Entity} {r : Query} (h : refine steps (Query.ofEntity e) = .ok r) :
    r.Closed Test.Typed :=
  foldlM_keeps h (fun step hstep _ _ happly hq =>
    Refinement.apply_closed (hplain step hstep) hq happly) (.ofEntity e)

/-- However the query of a listing is put together, its names resolve.  Join aliases are told apart;
a join leads from the table or an earlier join to its own alias; clauses and orders read the table
and joins of the query.  A question or an aggregate about related rows, at any depth, links the query
that asks it with its own, under different names, and its query has no joins and reads its own rows
only. -/
theorem refine_resolves (steps : List Step) (e : Entity) (r : Query)
    (hplain : ∀ step ∈ steps, step.refinement.Plain)
    (h : refine steps (Query.ofEntity e) = .ok r) :
    (r.joins.map Join.tableAlias).Nodup ∧
    (∀ front j back, r.joins = front ++ j :: back →
      j.second.qualifier = j.tableAlias ∧
        j.first.qualifier ∈ r.qualifier :: front.map Join.tableAlias) ∧
    (∀ t ∈ clausesTests r.clauses,
      t.column.qualifier ∈ r.qualifier :: r.joins.map Join.tableAlias) ∧
    (∀ o ∈ r.orders, ∀ column, o.target = .column column →
      column.qualifier ∈ r.qualifier :: r.joins.map Join.tableAlias) ∧
    ∀ outer : Query, outer.Within r → ∀ link sub, (link, sub) ∈ outer.questions →
      link.parent = outer.qualifier ∧ link.related = sub.qualifier ∧
        link.parent ≠ link.related ∧ sub.joins = [] ∧
          ∀ t ∈ clausesTests sub.clauses, t.column.qualifier = sub.qualifier := by
  have hclosed := refine_closed hplain h
  refine ⟨hclosed.aliases, fun front j back hsplit => ?_, fun t ht => (hclosed.tests t ht).1,
    hclosed.orders, fun outer houter link sub hasked => ?_⟩
  · exact ⟨(hclosed.joins front j back hsplit).second, (hclosed.joins front j back hsplit).first⟩
  · obtain ⟨hparent, hrelated, hne, -, hjoins, -, htests, -⟩ := hclosed.asks houter hasked
    refine ⟨hparent, hrelated, ?_, hjoins, fun t ht => (htests t ht).1⟩
    rw [hparent, hrelated]
    exact hne.symm

/-! ## A sample -/

/-- Contacts that may have a manager, who is a contact as well. -/
def managedContact : Entity :=
  ((Sample.contact.addColumn "manager_id" .integer).addRelation "manager"
    (Relation.belongsTo "contact" "manager_id")).addRelation "reports"
      (Relation.hasMany "contact" "manager_id")

def managedRegistry : Registry := ⟨[("company", Sample.company), ("contact", managedContact)]⟩

/-- Contacts of some company, searched by the name of their manager and listed by that of the
company of their manager, in a table that counts their reports. -/
def managedSteps : List Step :=
  [.criteria (.rules Sample.filters Sample.ofCompany.toJson),
    .criteria (.request {} { searchable := some [⟨"manager.name", .like⟩] }
      { text := some "Ann", order := [⟨"manager|company|name", .ascending⟩] }),
    .table [TableColumn.count "reports", TableColumn.ofKey "name"] [] []].map
      fun refinement => ⟨managedRegistry, Sample.context, refinement⟩

theorem managedSteps_plain : ∀ step ∈ managedSteps, step.refinement.Plain := by
  intro step hstep
  simp only [managedSteps, List.map_cons, List.map_nil, List.mem_cons, List.not_mem_nil,
    or_false] at hstep
  rcases hstep with rfl | rfl | rfl
  · exact Sample.filters_plain
  · rfl
  · trivial

/-- Rows of the same table are told apart: a question and a count about contacts of a contact read
them under an alias, and the company of a manager is joined apart from that of the contact. -/
theorem refine_resolves_sample :
    ∃ r, refine managedSteps (Query.ofEntity managedContact) = .ok r ∧
      r.joins.map Join.tableAlias = ["company", "manager", "manager_company"] ∧
      r.questions.map (fun asked => (asked.1.parent, asked.2.qualifier)) =
        [("contacts", "contacts_1"), ("contacts", "contacts_1")] ∧
      (∀ o ∈ r.orders, ∀ column, o.target = .column column →
        column.qualifier ∈ r.qualifier :: r.joins.map Join.tableAlias) ∧
      ∀ outer : Query, outer.Within r → ∀ link sub, (link, sub) ∈ outer.questions →
        link.parent = outer.qualifier ∧ link.related = sub.qualifier ∧
          link.parent ≠ link.related ∧ sub.joins = [] ∧
            ∀ t ∈ clausesTests sub.clauses, t.column.qualifier = sub.qualifier := by
  have hrun : (refine managedSteps (Query.ofEntity managedContact)).toOption.map (fun r =>
      (r.joins.map Join.tableAlias,
        r.questions.map fun asked => (asked.1.parent, asked.2.qualifier))) =
      some (["company", "manager", "manager_company"],
        [("contacts", "contacts_1"), ("contacts", "contacts_1")]) := by
    decide +kernel
  cases h : refine managedSteps (Query.ofEntity managedContact) with
  | error error =>
    rw [h] at hrun
    cases hrun
  | ok r =>
    rw [h] at hrun
    obtain ⟨haliases, hquestions⟩ := Prod.mk.inj (Option.some.inj hrun)
    obtain ⟨-, -, -, horders, hasks⟩ :=
      refine_resolves managedSteps managedContact r managedSteps_plain h
    exact ⟨r, rfl, haliases, hquestions, horders, hasks⟩

end Listing
end Winnow
