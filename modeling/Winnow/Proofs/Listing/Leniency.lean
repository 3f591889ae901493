import Winnow.Proofs.Listing.Conjoining
import Winnow.Proofs.Listing.Overflow
import Winnow.Proofs.SavedFilter.Prediction
import Winnow.Resource.Listing

/-!
# Rules never fail a listing

Each part of a request looks at the table of the query only when it succeeds or
fails, whatever clauses and joins are there already (`request_group_congr`), and
rules of a listing, which are lenient, never fail and keep the table.  So a
listing succeeds with any rules as it does with any others
(`listing_group_congr`).
-/

namespace Winnow

open Compile

/-! ## Steps on queries of one table -/

section
variable {ε : Type} {x y : Except ε Query}

theorem bind_group_congr {f g : Query → Except ε Query}
    (h : x.map Query.group = y.map Query.group)
    (hstep : ∀ q r : Query, q.group = r.group → (f q).map Query.group = (g r).map Query.group) :
    (x >>= f).map Query.group = (y >>= g).map Query.group := by
  cases x with
  | error error =>
    cases y with
    | error error' =>
      cases h
      rfl
    | ok r => cases h
  | ok q =>
    cases y with
    | error error => cases h
    | ok r => exact hstep q r (Except.ok.inj h)

theorem liftCompile_map {α β : Type} (f : α → β) (x : Except CompileError α) :
    (Failure.liftCompile x).map f = Failure.liftCompile (x.map f) := by
  cases x <;> rfl

end

/-- Whether a path can be joined, and under which alias, does not depend on what was joined. -/
theorem Query.joinFrom_group_congr (registry : Registry) (relations walked : List String)
    (e : Entity) (parent : String) {q r : Query} (h : q.group = r.group) :
    (joinFrom registry walked e parent relations q).map (Prod.map id Query.group) =
      (joinFrom registry walked e parent relations r).map (Prod.map id Query.group) := by
  induction relations generalizing walked e parent q r with
  | nil => exact congrArg (fun group => Except.ok (parent, group)) h
  | cons relation rest ih =>
    unfold joinFrom
    split
    next => rfl
    next found related _ =>
      simp only
      split
      next => rfl
      next =>
        cases relationJoin found related relation parent
            (Text.join "_" (walked ++ [relation])) with
        | none => exact ih _ _ _ h
        | some join =>
          exact ih _ _ _ ((q.addJoin_group join).trans (h.trans (r.addJoin_group join).symm))

namespace Listing

section
variable {registry : Registry} {context : CompileContext} {settings : QuerySettings}
  {scope : SearchScope} {p : Parameters} {q r : Query} (h : q.group = r.group)

include h

/-! ## Requests -/

theorem search_group_congr :
    (search registry context settings scope p q).map Query.group =
      (search registry context settings scope p r).map Query.group := by
  unfold search
  split
  next => exact congrArg Except.ok h
  next text _ =>
    have hfound : ∀ fields, searchGroup ⟨registry, context, none⟩ settings p fields text q =
        searchGroup ⟨registry, context, none⟩ settings p fields text r := by
      intro fields
      rw [← searchGroup_group, h, searchGroup_group]
    rw [Query.entity_eq_of_group h]
    simp only [hfound, h, bind, Except.bind]
    cases activeFields p (scope.searchable.getD r.entity.searchable) with
    | error failure => rfl
    | ok fields =>
      simp only
      cases Failure.liftCompile
          (searchGroup ⟨registry, context, none⟩ settings p fields text r) with
      | error failure => rfl
      | ok found =>
        simp only
        cases Failure.liftCompile (scope.extend (r.group.addGroup .and found)) with
        | error failure => rfl
        | ok group =>
          refine congrArg Except.ok ?_
          exact (q.absorb_group .and group).trans (h.trans (r.absorb_group .and group).symm)

theorem orderByPath_group_congr (path : FieldPath) (direction : Direction) :
    (orderByPath registry path direction q).map Query.group =
      (orderByPath registry path direction r).map Query.group := by
  have hjoined : (q.joinPath registry path.relations).map (Prod.map id Query.group) =
      (r.joinPath registry path.relations).map (Prod.map id Query.group) := by
    unfold Query.joinPath
    rw [Query.entity_eq_of_group h, Query.qualifier_eq_of_group h]
    exact Query.joinFrom_group_congr registry path.relations [] _ _ h
  unfold orderByPath
  rw [Query.entity_eq_of_group h]
  simp only [bind, Except.bind]
  cases registry.walk r.entity path.relations with
  | error error => rfl
  | ok related =>
    simp only
    split
    next => rfl
    next =>
      revert hjoined
      generalize q.joinPath registry path.relations = x
      generalize r.joinPath registry path.relations = y
      intro hjoined
      cases x with
      | error error =>
        cases y with
        | error error' =>
          cases hjoined
          rfl
        | ok joined' => cases hjoined
      | ok joined =>
        cases y with
        | error error' => cases hjoined
        | ok joined' => exact congrArg Except.ok (Prod.mk.inj (Except.ok.inj hjoined)).2

theorem orderBy_group_congr (sort : SortField) :
    (orderBy registry sort q).map Query.group = (orderBy registry sort r).map Query.group := by
  unfold orderBy
  rw [Query.entity_eq_of_group h]
  simp only
  split
  next => exact congrArg Except.ok h
  next =>
    split
    next => exact congrArg Except.ok h
    next =>
      split
      next => exact orderByPath_group_congr h ..
      next => rfl

omit h in
theorem orderByAll_group_congr (sorts : List SortField) (h : q.group = r.group) :
    (orderByAll registry sorts q).map Query.group =
      (orderByAll registry sorts r).map Query.group := by
  unfold orderByAll
  induction sorts generalizing q r with
  | nil => exact congrArg Except.ok h
  | cons sort rest ih =>
    rw [List.foldlM_cons, List.foldlM_cons]
    exact bind_group_congr (orderBy_group_congr h sort) fun _ _ hnext => ih hnext

theorem requestOrder_group_congr :
    (requestOrder registry p q).map Query.group = (requestOrder registry p r).map Query.group := by
  unfold requestOrder
  split
  next => exact congrArg Except.ok h
  next =>
    have hforgot : q.forgetOrders.group = r.forgetOrders.group := h
    exact orderByAll_group_congr p.order hforgot

theorem requestSelect_group_congr :
    (requestSelect p q).map Query.group = (requestSelect p r).map Query.group := by
  have hselect : ∀ (s : Query) (columns : List String), (s.select columns).group = s.group :=
    fun s columns => s.select_keeps Query.group (fun _ _ => rfl) columns
  unfold requestSelect
  rw [Query.entity_eq_of_group h]
  split
  next => exact congrArg Except.ok h
  next =>
    split
    next => rfl
    next => exact congrArg Except.ok ((hselect q _).trans (h.trans (hselect r _).symm))

theorem requestLoad_group_congr :
    (requestLoad registry p q).map Query.group = (requestLoad registry p r).map Query.group := by
  have hload : ∀ s : Query, (s.load p.load).group = s.group :=
    fun s => s.load_keeps Query.group (fun _ _ => rfl) p.load
  unfold requestLoad
  rw [Query.entity_eq_of_group h]
  cases p.load.mapM fun path => registry.walk r.entity (Text.split '.' path) with
  | error error => rfl
  | ok targets => exact congrArg Except.ok ((hload q).trans (h.trans (hload r).symm))

theorem requestTake_group_congr (settings : QuerySettings) (p : Parameters) :
    (requestTake settings p q).group = (requestTake settings p r).group := by
  have htake : ∀ s, (requestTake settings p s).group = s.group :=
    fun s => (requestTake_arranges settings p s).group_eq
  exact (htake q).trans (h.trans (htake r).symm)

/-- A request succeeds on every query of one table, or fails alike on all. -/
theorem request_group_congr :
    (request registry context settings scope p q).map Query.group =
      (request registry context settings scope p r).map Query.group := by
  unfold request
  refine bind_group_congr (search_group_congr h) fun q r h => ?_
  refine bind_group_congr ?_ fun q r h =>
    congrArg Except.ok (requestTake_group_congr h settings p)
  rw [liftCompile_map, liftCompile_map]
  refine congrArg Failure.liftCompile ?_
  refine bind_group_congr (requestOrder_group_congr h) fun q r h => ?_
  exact bind_group_congr (requestSelect_group_congr h) fun q r h => requestLoad_group_congr h

end

/-- Rules keep the table of the query. -/
theorem addRules_group {filters : FilterSet} {registry : Registry} {context : CompileContext}
    {payload : Json} {q r : Query} (h : addRules filters registry context payload q = .ok r) :
    r.group = q.group := by
  rcases addRules_cases h with ⟨-, rfl⟩ | ⟨tree, start, group, -, -, hstart, rfl⟩
  · rfl
  · exact (start.absorb_group .and group).trans (hstart Query.group fun _ _ => rfl)

end Listing

/-! ## Listings -/

namespace ListingService

/-- Lenient rules, if there are any, are put into a query without failing. -/
theorem addRules_ok {s : ListingService} {start : Start}
    (hlenient : start.context.validation = .lenient) (q : Query) :
    ∃ r, s.addRules start q = .ok r ∧ r.group = q.group := by
  unfold addRules
  cases start.rules with
  | none => exact ⟨q, rfl, rfl⟩
  | some rules =>
    obtain ⟨r, hr⟩ := @Listing.addRules_ok start.resource.filters s.catalog.registry start.context
      rules q hlenient
    exact ⟨r, congrArg Failure.liftCompile hr, Listing.addRules_group hr⟩

/-- Where the rules of a listing come from has no part in whether it succeeds, nor in how it
fails. -/
theorem listing_group_congr (s : ListingService) (store : FilterStore) (caller : Caller)
    (identifier : String) (request : ListingRequest) (source : RuleSource) :
    (s.listing store caller identifier { request with source := source }).map Query.group =
      (s.listing store caller identifier request).map Query.group := by
  unfold listing start
  cases s.catalog.get identifier with
  | error failure => rfl
  | ok resource =>
    cases hcontext : caller.context s.settings with
    | error failure => rfl
    | ok context =>
      have hlenient := FilterService.context_validation hcontext
      simp only [bind, Except.bind]
      cases s.baseQuery resource with
      | error failure => rfl
      | ok base =>
        simp only
        cases Failure.liftCompile
            (Listing.orderByAll s.catalog.registry base.entity.defaultOrder base) with
        | error failure => rfl
        | ok ordered =>
          simp only
          have hruled : ∀ rules, ∃ r, s.addRules ⟨resource, rules, context, base⟩ ordered = .ok r ∧
              r.group = ordered.group :=
            fun rules => addRules_ok hlenient ordered
          obtain ⟨q, hq, hgroup⟩ := hruled _
          obtain ⟨r, hr, hgroup'⟩ := hruled _
          rw [hq, hr]
          exact Listing.request_group_congr (hgroup.trans hgroup'.symm)

end ListingService
end Winnow
