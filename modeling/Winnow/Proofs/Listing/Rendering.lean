import Winnow.Proofs.Listing.Conjoining
import Winnow.Proofs.Sql.Refusals
import Winnow.Resource.Listing

/-!
# Listings that every dialect renders

Orders, joins, projections and searches of a listing read single columns, and so
do its rules when no filter puts two columns together.  So every dialect renders
the query of such a listing (`listing_render_ok`).
-/

namespace Winnow

open Compile Sql

variable {d : Dialect}

/-! ## Steps -/

namespace Query

theorem ofEntity_renderable (e : Entity) : Renderable d (ofEntity e) :=
  ⟨⟨nofun, rfl, nofun, nofun⟩, (refuses_collected d).blank (ofEntity e)⟩

/-- A step that leaves the clauses as they are. -/
theorem Renderable.of_clauses {q r : Query} (h : Renderable d q) (hcolumns : r.SingleColumns)
    (hclauses : r.clauses = q.clauses) : Renderable d r := by
  refine ⟨hcolumns, fun failure hrefuses => h.clauses failure ?_⟩
  unfold Refuses at hrefuses ⊢
  rwa [hclauses] at hrefuses

theorem Renderable.addPredicate {q : Query} (h : Renderable d q) (connective : Connective)
    {p : Option Predicate} (hp : ∀ p' ∈ p, ∀ failure, predicate d p' ≠ .error failure) :
    Renderable d (q.addPredicate connective p) := by
  cases p with
  | none => exact h
  | some p =>
    refine ⟨⟨h.columns.selects, h.columns.aggregates, h.columns.joins, h.columns.orders⟩, ?_⟩
    rintro failure ⟨clause, hclause, hrefused⟩
    rcases List.mem_append.mp hclause with hold | hnew
    · exact h.clauses failure ⟨clause, hold, hrefused⟩
    · rw [List.mem_singleton.mp hnew] at hrefused
      exact hp p rfl failure hrefused

theorem SingleColumns.addJoin {q : Query} (h : q.SingleColumns) {j : Join}
    (hj : j.first.IsSingle ∧ j.second.IsSingle ∧ j.OnlyScopes) : (q.addJoin j).SingleColumns := by
  unfold Query.addJoin
  split
  next => exact h
  next =>
    refine ⟨h.selects, h.aggregates, fun other hother => ?_, h.orders⟩
    rcases List.mem_append.mp hother with hold | hnew
    · exact h.joins other hold
    · rw [List.mem_singleton.mp hnew]
      exact hj

theorem relationJoin_single {found : Relation} {related : Entity}
    {relation parent tableAlias : String} {join : Join}
    (h : relationJoin found related relation parent tableAlias = some join) :
    join.first.IsSingle ∧ join.second.IsSingle ∧ join.OnlyScopes := by
  have hscopes := relationJoin_onlyScopes h
  unfold relationJoin at h
  split at h
  · cases h
    exact ⟨trivial, trivial, hscopes⟩
  · cases h

/-- Induction on the path: each relation joins one table by single columns. -/
theorem joinFrom_single {registry : Registry} {walked relations : List String} {e : Entity}
    {parent tableAlias : String} {q r : Query}
    (h : joinFrom registry walked e parent relations q = .ok (tableAlias, r))
    (hq : q.SingleColumns) : r.SingleColumns := by
  induction relations generalizing walked e parent q with
  | nil =>
    cases h
    exact hq
  | cons relation rest ih =>
    unfold joinFrom at h
    split at h
    · cases h
    next found related _ =>
      simp only at h
      split at h
      · cases h
      · split at h
        next join hjoin => exact ih h (hq.addJoin (relationJoin_single hjoin))
        next => exact ih h hq

theorem joinPath_renderable {registry : Registry} {relations : List String} {tableAlias : String}
    {q r : Query} (h : q.joinPath registry relations = .ok (tableAlias, r)) (hq : Renderable d q) :
    Renderable d r :=
  Renderable.of_clauses hq (joinFrom_single h hq.columns)
    (joinFrom_keeps Query.clauses (fun _ _ => rfl) h)

theorem addOrder_renderable {q : Query} (hq : Renderable d q) {target : OrderTarget}
    (htarget : ∀ c, target = .column c → c.IsSingle) (direction : Direction) :
    Renderable d (q.addOrder target direction) := by
  refine Renderable.of_clauses hq ⟨hq.columns.selects, hq.columns.aggregates, hq.columns.joins,
    fun o ho => ?_⟩ rfl
  rcases List.mem_append.mp ho with hold | hnew
  · exact hq.columns.orders o hold
  · rw [List.mem_singleton.mp hnew]
    exact htarget

theorem select_renderable {q : Query} (hq : Renderable d q) (columns : List String) :
    Renderable d (q.select columns) := by
  have hsingle : (q.select columns).SingleColumns := by
    have hcolumns := hq.columns
    clear hq
    induction columns generalizing q with
    | nil => exact hcolumns
    | cons name rest ih =>
      refine ih ?_
      simp only
      split
      next => exact hcolumns
      next =>
        refine ⟨fun c hc => ?_, hcolumns.aggregates, hcolumns.joins, hcolumns.orders⟩
        rcases List.mem_append.mp hc with hold | hnew
        · exact hcolumns.selects c hold
        · rw [List.mem_singleton.mp hnew]
          trivial
  exact Renderable.of_clauses hq hsingle (q.select_keeps Query.clauses (fun _ _ => rfl) columns)

end Query

namespace Listing

section
variable {registry : Registry} {context : CompileContext} {settings : QuerySettings}
  {scope : SearchScope} {parameters : Parameters} {q r : Query} (hq : Renderable d q)

include hq

/-! ## Requests -/

theorem orderBy_renderable {sort : SortField} (h : orderBy registry sort q = .ok r) :
    Renderable d r := by
  cases orderBy_step h with
  | own =>
    refine Query.addOrder_renderable hq (fun c hc => ?_) sort.direction
    cases hc
    trivial
  | named => exact Query.addOrder_renderable hq (fun c hc => by cases hc) sort.direction
  | along _ _ _ _ _ _ hjoin =>
    refine Query.addOrder_renderable (Query.joinPath_renderable hjoin hq) (fun c hc => ?_)
      sort.direction
    cases hc
    trivial

theorem orderByAll_renderable {sorts : List SortField}
    (h : orderByAll registry sorts q = .ok r) : Renderable d r :=
  foldlM_keeps h (fun _ _ _ _ hstep hrenders => orderBy_renderable hrenders hstep) hq

/-- A search tests single columns. -/
theorem search_renderable (hextend : scope.extend = .ok)
    (h : search registry context settings scope parameters q = .ok r) : Renderable d r := by
  rcases search_cases h with ⟨-, rfl⟩ | ⟨text, fields, found, group, -, -, hfound, hgroup, rfl⟩
  · exact hq
  · rw [absorb_of_unextended hextend hgroup]
    refine Query.Renderable.addPredicate hq .and fun p hp failure hrefused => ?_
    obtain ⟨clause, hclause, hrefused⟩ := refuses_of_groupPredicate hp hrefused
    rcases searchGroup_cases hfound with ⟨key, -, rfl⟩ | ⟨-, predicates, hpredicates, rfl⟩
    · rw [List.mem_singleton.mp hclause] at hrefused
      unfold predicate at hrefused
      have hsingle : (q.group.column q.entity.primaryKey).IsSingle := trivial
      exact column_ne_error hsingle (test_refused hrefused)
    · rw [addMatches_eq] at hclause
      obtain ⟨p', hp', hsome⟩ := List.mem_filterMap.mp (predicate_of_matchClauses hclause)
      cases hsome
      obtain ⟨⟨column, value⟩, -, hread⟩ := of_mem_mapM hpredicates hp'
      have hparts : (Filter.plain .text column.field column.field).dateTimeParts = none := rfl
      have hshape := fieldPredicate_shape (mayRead_single _ hparts) (searchPredicate_eq_ok hread)
      exact hshape.written d failure hrefused

theorem request_renderable (hextend : scope.extend = .ok)
    (h : request registry context settings scope parameters q = .ok r) : Renderable d r := by
  obtain ⟨searched, ordered, selected, loaded, hsearch, horder, hselect, hload, rfl⟩ :=
    request_parts h
  have hsearched := search_renderable hq hextend hsearch
  have hordered : Renderable d ordered := by
    rcases requestOrder_cases horder with ⟨-, rfl⟩ | ⟨-, horder⟩
    · exact hsearched
    · refine orderByAll_renderable ?_ horder
      exact Query.Renderable.of_clauses hsearched ⟨hsearched.columns.selects,
        hsearched.columns.aggregates, hsearched.columns.joins, nofun⟩ rfl
  have hselected : Renderable d selected := by
    rcases requestSelect_cases hselect with rfl | rfl
    · exact hordered
    · exact Query.select_renderable hordered _
  have hloaded : Renderable d loaded := by
    rw [requestLoad_eq hload]
    refine Query.Renderable.of_clauses hselected ⟨?_, ?_, ?_, ?_⟩
      (selected.load_keeps Query.clauses (fun _ _ => rfl) _)
    · rw [selected.load_keeps Query.selects fun _ _ => rfl]
      exact hselected.columns.selects
    · rw [selected.load_keeps Query.aggregates fun _ _ => rfl]
      exact hselected.columns.aggregates
    · rw [selected.load_keeps Query.joins fun _ _ => rfl]
      exact hselected.columns.joins
    · rw [selected.load_keeps Query.orders fun _ _ => rfl]
      exact hselected.columns.orders
  rcases requestTake_cases settings parameters loaded with h | ⟨limit, h⟩ <;> rw [h]
  · exact hloaded
  · exact Query.Renderable.of_clauses hloaded ⟨hloaded.columns.selects, hloaded.columns.aggregates,
      hloaded.columns.joins, hloaded.columns.orders⟩ rfl

end

/-! ## Rules -/

section
variable {filters : FilterSet} (hplain : filters.Plain) (hsingle : filters.SingleColumns)
  {registry : Registry} {context : CompileContext} {q r : Query} (hq : Renderable d q)

include hplain hsingle hq

/-- Absorbing the group of a tree adds one clause, which is written as the groups of its rules
are. -/
theorem putRules_renderable {env : Environment} {tree : Rule.Tree} {start group : Query}
    (hgroup : compileTree filters env tree start.group = .ok group) :
    Renderable d (putRules q group) := by
  have hclauses := compileNodes_clauses
    (fun _ _ r hr => custom_none_of_plain hplain hr) hgroup
  rw [show putRules q group = q.addPredicate .and group.groupPredicate from
    Query.absorb_of_clauses hclauses q .and]
  refine Query.Renderable.addPredicate hq .and fun p hp failure hrefused => ?_
  have hrefuses := refuses_of_groupPredicate hp hrefused
  rcases compileNodes_collects (refuses_collected d) tree.children hgroup hrefuses with
    hblank | ⟨placed, -, g, hg, hrefuses⟩
  · exact (refuses_collected d).blank start failure hblank
  · exact leafGroup_written hplain hsingle hg d failure hrefuses

theorem addRules_renderable {payload : Json}
    (h : addRules filters registry context payload q = .ok r) : Renderable d r := by
  unfold addRules at h
  split at h
  next tree _ =>
    unfold addTree at h
    split at h
    · obtain ⟨joined, hjoined, h⟩ := bind_eq_ok h
      obtain ⟨group, hgroup, h⟩ := bind_eq_ok h
      cases h
      refine putRules_renderable hplain hsingle ?_ hgroup
      refine foldlM_keeps hjoined (fun target _ s joined hstep hs => ?_) hq
      obtain ⟨⟨tableAlias, next⟩, hpath, rfl⟩ := map_eq_ok hstep
      exact Query.joinPath_renderable hpath hs
    · obtain ⟨group, hgroup, h⟩ := bind_eq_ok h
      cases h
      exact putRules_renderable hplain hsingle hq hgroup
  · cases h
    exact hq

end

end Listing

/-! ## Listings -/

/-- A listing whose filters compare single columns and hand no rule to a custom predicate is
rendered in every dialect. -/
theorem ListingService.listing_render_ok {s : ListingService} {store : FilterStore}
    {caller : Caller} {identifier : String} {request : ListingRequest} {q : Query}
    (hfilters : ∀ resource, s.catalog.get identifier = .ok resource →
      resource.filters.Plain ∧ resource.filters.SingleColumns)
    (h : s.listing store caller identifier request = .ok q) :
    ∃ rendered, s.render q = .ok rendered := by
  unfold listing at h
  obtain ⟨resource, hresource, h⟩ := bind_eq_ok h
  obtain ⟨start, hstart, h⟩ := bind_eq_ok h
  obtain ⟨ordered, hordered, h⟩ := bind_eq_ok h
  obtain ⟨ruled, hruled, h⟩ := bind_eq_ok h
  unfold ListingService.start at hstart
  obtain ⟨context, -, hstart⟩ := bind_eq_ok hstart
  obtain ⟨base, hbase, hstart⟩ := bind_eq_ok hstart
  cases hstart
  obtain ⟨e, -, hbase⟩ := bind_eq_ok hbase
  cases hbase
  obtain ⟨hplain, hsingle⟩ := hfilters resource hresource
  have hordered : Renderable s.settings.dialect ordered :=
    Listing.orderByAll_renderable (Query.ofEntity_renderable e) (Listing.liftCompile_eq_ok hordered)
  have hruled : Renderable s.settings.dialect ruled := by
    unfold ListingService.addRules at hruled
    split at hruled
    next rules _ =>
      exact Listing.addRules_renderable hplain hsingle hordered (Listing.liftCompile_eq_ok hruled)
    next =>
      cases hruled
      exact hordered
  exact renderSelect_ok (Listing.request_renderable hruled rfl h)

end Winnow
