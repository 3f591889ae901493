import Winnow.Listing.Period
import Winnow.Listing.Rules
import Winnow.Proofs.Engine.Matching
import Winnow.Proofs.Listing.Parts
import Winnow.Proofs.Query.Building
import Winnow.Proofs.Sample

/-!
# What criteria do to a query

Rules, requests and exports leave the clauses of a query in place and append at
most one, with AND, besides joins (`Criteria.apply_refines`).  So no row becomes
visible that was not, but AND binds tighter than OR: behind clauses with an OR
the appended clause narrows the last alternative only, and a row of another
alternative escapes it (`Criteria.apply_narrows`, `rules_escape_sample`).
-/

namespace Winnow.Listing

open Engine Compile

/-- What refines the query of a listing. -/
inductive Criteria where
  | rules (filters : FilterSet) (payload : Json)
  | request (settings : QuerySettings) (scope : SearchScope) (parameters : Parameters)
  | export_ (column : String) (period : Option Period)

/-- Puts criteria into a query. -/
def Criteria.apply (registry : Registry) (context : CompileContext) :
    Criteria → Query → Except Failure Query
  | .rules filters payload, q => Failure.liftCompile (addRules filters registry context payload q)
  | .request settings scope parameters, q =>
    Listing.request registry context settings scope parameters q
  | .export_ column period, q => Failure.liftCompile (Listing.export_ context column period q)

/-! ## Refinements -/

/-- Whether a query is another one with joins appended. -/
def AppendsJoins (q r : Query) : Prop := ∃ joins, Refines q r [] joins

/-- Whether a query is another one with joins and at most one AND clause appended. -/
def AppendsClause (q r : Query) : Prop :=
  ∃ added joins, added.length ≤ 1 ∧ Refines q r added joins

theorem AppendsJoins.refl (q : Query) : AppendsJoins q q :=
  ⟨[], refines_of_eq rfl rfl rfl rfl⟩

theorem AppendsJoins.trans {q r s : Query} (h : AppendsJoins q r) (h' : AppendsJoins r s) :
    AppendsJoins q s := by
  obtain ⟨joins, h⟩ := h
  obtain ⟨joins', h'⟩ := h'
  exact ⟨joins ++ joins', h.trans h'⟩

theorem AppendsJoins.clause {q r : Query} (h : AppendsJoins q r) : AppendsClause q r := by
  obtain ⟨joins, h⟩ := h
  exact ⟨[], joins, by simp, h⟩

theorem AppendsClause.after {q r s : Query} (h : AppendsJoins q r) (h' : AppendsClause r s) :
    AppendsClause q s := by
  obtain ⟨joins, h⟩ := h
  obtain ⟨added, joins', hlength, h'⟩ := h'
  exact ⟨added, joins ++ joins', hlength, h.trans h'⟩

theorem AppendsClause.before {q r s : Query} (h : AppendsClause q r) (h' : AppendsJoins r s) :
    AppendsClause q s := by
  obtain ⟨added, joins, hlength, h⟩ := h
  obtain ⟨joins', h'⟩ := h'
  exact ⟨added ++ [], joins ++ joins', by simpa using hlength, h.trans h'⟩

/-- Absorbing a group appends its clause, if it has one, and joins. -/
theorem appendsClause_absorb (q g : Query) : AppendsClause q (q.absorb .and g) := by
  obtain ⟨joins, hjoins, -⟩ := q.absorb_joins .and g
  have hgroup := q.absorb_group .and g
  refine ⟨g.groupPredicate.toList, joins, ?_, Query.entity_eq_of_group hgroup,
    Query.tableAlias_eq_of_group hgroup, q.absorb_clauses .and g, hjoins⟩
  cases g.groupPredicate <;> simp

theorem appendsJoins_addJoin (q : Query) (join : Join) : AppendsJoins q (q.addJoin join) := by
  unfold Query.addJoin
  split
  · exact .refl q
  · exact ⟨[join], rfl, rfl, by simp, rfl⟩

theorem appendsJoins_joinFrom {registry : Registry} {walked rest : List String} {e : Entity}
    {parent tableAlias : String} {q r : Query}
    (h : Query.joinFrom registry walked e parent rest q = .ok (tableAlias, r)) :
    AppendsJoins q r := by
  induction rest generalizing walked e parent q with
  | nil =>
    cases h
    exact .refl _
  | cons relation rest ih =>
    unfold Query.joinFrom at h
    cases hrelated : registry.related e relation with
    | error error => simp [hrelated] at h
    | ok pair =>
      obtain ⟨found, related⟩ := pair
      cases htoOne : found.isToOne with
      | false => simp [hrelated, htoOne] at h
      | true =>
        simp only [hrelated, htoOne, Bool.not_true, Bool.false_eq_true, if_false] at h
        have hrest := ih h
        cases hjoin : Query.relationJoin found related relation parent
          (Text.join "_" (walked ++ [relation])) with
        | none =>
          rw [hjoin] at hrest
          exact hrest
        | some join =>
          rw [hjoin] at hrest
          exact (appendsJoins_addJoin q join).trans hrest

theorem appendsJoins_joinAll {registry : Registry} {targets : Keyed JoinTarget} {q r : Query}
    (h : joinAll registry targets q = .ok r) : AppendsJoins q r := by
  refine foldlM_keeps h (fun target _ joined next hstep hjoined => ?_) (AppendsJoins.refl q)
  obtain ⟨⟨tableAlias, next⟩, hpath, rfl⟩ := map_eq_ok hstep
  exact hjoined.trans (appendsJoins_joinFrom hpath)

/-! ## Rules -/

theorem addTree_appends {filters : FilterSet} {registry : Registry} {context : CompileContext}
    {tree : Rule.Tree} {q r : Query} (h : addTree filters registry context tree q = .ok r) :
    AppendsClause q r := by
  unfold addTree at h
  split at h
  · obtain ⟨joined, hjoined, h⟩ := bind_eq_ok h
    obtain ⟨group, -, h⟩ := bind_eq_ok h
    cases h
    exact .after (appendsJoins_joinAll hjoined) (appendsClause_absorb joined group)
  · obtain ⟨group, -, h⟩ := bind_eq_ok h
    cases h
    exact appendsClause_absorb q group

theorem addRules_appends {filters : FilterSet} {registry : Registry} {context : CompileContext}
    {payload : Json} {q r : Query} (h : addRules filters registry context payload q = .ok r) :
    AppendsClause q r := by
  unfold addRules at h
  split at h
  · exact addTree_appends h
  · cases h
    exact (AppendsJoins.refl q).clause

/-! ## Requests -/

theorem search_appends {registry : Registry} {context : CompileContext} {settings : QuerySettings}
    {scope : SearchScope} {parameters : Parameters} {q r : Query}
    (h : search registry context settings scope parameters q = .ok r) : AppendsClause q r := by
  unfold search at h
  split at h
  · cases h
    exact (AppendsJoins.refl q).clause
  · obtain ⟨fields, -, h⟩ := bind_eq_ok h
    obtain ⟨found, -, h⟩ := bind_eq_ok h
    obtain ⟨group, -, h⟩ := bind_eq_ok h
    cases h
    exact appendsClause_absorb q group

theorem orderBy_appends {registry : Registry} {q r : Query} {sort : SortField}
    (h : orderBy registry sort q = .ok r) : AppendsJoins q r := by
  cases orderBy_step h with
  | own => exact ⟨[], refines_of_eq rfl rfl rfl rfl⟩
  | named => exact ⟨[], refines_of_eq rfl rfl rfl rfl⟩
  | along _ _ _ _ _ _ hjoin =>
    exact (appendsJoins_joinFrom hjoin).trans ⟨[], refines_of_eq rfl rfl rfl rfl⟩

theorem requestOrder_appends {registry : Registry} {parameters : Parameters} {q r : Query}
    (h : requestOrder registry parameters q = .ok r) : AppendsJoins q r := by
  rcases requestOrder_cases h with ⟨-, rfl⟩ | ⟨-, h⟩
  · exact .refl r
  · have hforget : AppendsJoins q q.forgetOrders := ⟨[], refines_of_eq rfl rfl rfl rfl⟩
    refine foldlM_keeps h (fun _ _ _ _ hstep hordered => ?_) hforget
    exact hordered.trans (orderBy_appends hstep)

theorem requestSelect_appends {parameters : Parameters} {q r : Query}
    (h : requestSelect parameters q = .ok r) : AppendsJoins q r := by
  rcases requestSelect_cases h with rfl | rfl
  · exact .refl r
  · exact ⟨[], refines_of_eq (Query.select_keeps _ (fun _ _ => rfl) ..)
      (Query.select_keeps _ (fun _ _ => rfl) ..) (Query.select_keeps _ (fun _ _ => rfl) ..)
      (Query.select_keeps _ (fun _ _ => rfl) ..)⟩

theorem requestLoad_appends {registry : Registry} {parameters : Parameters} {q r : Query}
    (h : requestLoad registry parameters q = .ok r) : AppendsJoins q r := by
  rw [requestLoad_eq h]
  exact ⟨[], refines_of_eq (Query.load_keeps _ (fun _ _ => rfl) ..)
    (Query.load_keeps _ (fun _ _ => rfl) ..) (Query.load_keeps _ (fun _ _ => rfl) ..)
    (Query.load_keeps _ (fun _ _ => rfl) ..)⟩

theorem requestTake_appends (settings : QuerySettings) (parameters : Parameters) (q : Query) :
    AppendsJoins q (requestTake settings parameters q) := by
  rcases requestTake_cases settings parameters q with h | ⟨limit, h⟩ <;> rw [h]
  · exact .refl q
  · exact ⟨[], refines_of_eq rfl rfl rfl rfl⟩

/-- Of the parts of a request only the search appends a clause. -/
theorem request_appends {registry : Registry} {context : CompileContext} {settings : QuerySettings}
    {scope : SearchScope} {parameters : Parameters} {q r : Query}
    (h : Listing.request registry context settings scope parameters q = .ok r) :
    AppendsClause q r := by
  obtain ⟨searched, ordered, selected, loaded, hsearch, horder, hselect, hload, rfl⟩ :=
    request_parts h
  exact (((search_appends hsearch).before (requestOrder_appends horder)).before
    ((requestSelect_appends hselect).trans (requestLoad_appends hload))).before
      (requestTake_appends settings parameters loaded)

/-! ## Exports -/

/-- A period is put into a query as one clause, between the bounds of its days. -/
theorem addPeriod_cases {context : CompileContext} {column : String} {type : ColumnType}
    {period : Period} {q r : Query} (h : addPeriod context column type period q = .ok r) :
    ∃ start finish low high, period.days? context.localToday = some (start, finish) ∧
      periodBounds context column type start finish = .ok (low, high) ∧
      r = q.addClause .and (.halfOpen (q.column column) low high) := by
  unfold addPeriod at h
  cases hdays : period.days? context.localToday with
  | none =>
    rw [hdays] at h
    cases h
  | some days =>
    obtain ⟨start, finish⟩ := days
    rw [hdays] at h
    have h : (periodBounds context column type start finish).map (fun bounds =>
        q.addClause .and (.halfOpen (q.column column) bounds.1 bounds.2)) = .ok r := h
    obtain ⟨⟨low, high⟩, hbounds, rfl⟩ := map_eq_ok h
    exact ⟨start, finish, low, high, rfl, hbounds, rfl⟩

/-- An export orders what its period, if it has one, leaves of a query. -/
theorem export_cases {context : CompileContext} {column : String} {period : Option Period}
    {q r : Query} (h : Listing.export_ context column period q = .ok r) :
    ∃ type bounded, q.entity.columnType? column = some type ∧
      (period = none ∧ bounded = q ∨
        ∃ days, period = some days ∧ addPeriod context column type days q = .ok bounded) ∧
      r = bounded.forgetOrders.orderByColumn column .descending := by
  unfold Listing.export_ at h
  cases htype : q.entity.columnType? column with
  | none =>
    rw [htype] at h
    cases h
  | some type =>
    rw [htype] at h
    cases period with
    | none =>
      cases h
      exact ⟨type, q, rfl, .inl ⟨rfl, rfl⟩, rfl⟩
    | some days =>
      have h : (addPeriod context column type days q).map (fun q =>
          q.forgetOrders.orderByColumn column .descending) = .ok r := h
      obtain ⟨bounded, hbounded, rfl⟩ := map_eq_ok h
      exact ⟨type, bounded, rfl, .inr ⟨days, rfl, hbounded⟩, rfl⟩

theorem addPeriod_appends {context : CompileContext} {column : String} {type : ColumnType}
    {period : Period} {q r : Query} (h : addPeriod context column type period q = .ok r) :
    AppendsClause q r := by
  obtain ⟨start, finish, low, high, -, -, rfl⟩ := addPeriod_cases h
  exact ⟨[.halfOpen (q.column column) low high], [], by simp, rfl, rfl, rfl, by
    simp [Query.addClause]⟩

theorem export_appends {context : CompileContext} {column : String} {period : Option Period}
    {q r : Query} (h : Listing.export_ context column period q = .ok r) : AppendsClause q r := by
  have horder : ∀ q : Query, AppendsJoins q (q.forgetOrders.orderByColumn column .descending) :=
    fun q => ⟨[], refines_of_eq rfl rfl rfl rfl⟩
  obtain ⟨type, bounded, -, ⟨-, rfl⟩ | ⟨days, -, hbounded⟩, rfl⟩ := export_cases h
  · exact (horder bounded).clause
  · exact (addPeriod_appends hbounded).before (horder bounded)

/-! ## Criteria -/

/-- Criteria append at most one clause, with AND, and joins; everything that a query already demands
of rows stays in place. -/
theorem Criteria.apply_refines (criteria : Criteria) {registry : Registry}
    {context : CompileContext} {q r : Query} (h : criteria.apply registry context q = .ok r) :
    ∃ added joins, added.length ≤ 1 ∧ Refines q r added joins := by
  cases criteria with
  | rules filters payload => exact addRules_appends (liftCompile_eq_ok h)
  | request settings scope parameters => exact request_appends h
  | export_ column period => exact export_appends (liftCompile_eq_ok h)

/-- After criteria that remove no scope and join nothing a query already reads, a row is matched when
it was matched and satisfies what the criteria ask, or when it escapes.  No row becomes visible, and
the criteria narrow exactly as long as every row that escapes satisfies them anyway; without OR none
escapes. -/
theorem Criteria.apply_narrows (criteria : Criteria) {registry : Registry}
    {context : CompileContext} {q r : Query} (h : criteria.apply registry context q = .ok r)
    (hscopes : r.removedScopes = q.removedScopes) :
    ∃ added joins, added.length ≤ 1 ∧ Refines q r added joins ∧
      ((∀ j ∈ joins, j.tableAlias ∉ q.reads) → ∀ (db : Dataset) (row : Row),
        matchesRow db r row = (matchesBoth db q added joins row || escapes db q added joins row) ∧
        (matchesRow db r row = true → matchesRow db q row = true) ∧
        (matchesRow db r row = matchesBoth db q added joins row ↔
          (escapes db q added joins row = true → matchesBoth db q added joins row = true)) ∧
        ((∀ clause ∈ q.clauses.tail, clause.connective = .and) →
          matchesRow db r row = matchesBoth db q added joins row)) := by
  obtain ⟨added, joins, hlength, hrefines⟩ := criteria.apply_refines h
  refine ⟨added, joins, hlength, hrefines, fun hunread db row => ?_⟩
  have hmatches := matchesRow_refines db hrefines hlength hscopes hunread row
  refine ⟨hmatches, fun hrow => ?_, ?_, fun hand => ?_⟩
  · rw [hmatches, Bool.or_eq_true] at hrow
    exact hrow.elim (matchesRow_of_matchesBoth db q added joins row)
      (matchesRow_of_escapes db q added joins row)
  · rw [hmatches]
    cases matchesBoth db q added joins row <;> cases escapes db q added joins row <;> simp
  · rw [hmatches, escapes_of_and db added joins row hand, Bool.or_false]

/-- Contacts not named Ann, narrowed to those whose company has a certain name. -/
theorem Criteria.apply_narrows_sample :
    ∃ r added joins,
      (Criteria.rules Sample.filters Sample.ofCompany.toJson).apply Sample.registry Sample.context
          ((Query.ofEntity Sample.contact).addComparison "name" .ne (.text "Ann") .and) = .ok r ∧
        joins.map Join.tableAlias = ["company"] ∧
        ∀ row, matchesRow Sample.dataset r row = matchesBoth Sample.dataset
          ((Query.ofEntity Sample.contact).addComparison "name" .ne (.text "Ann") .and)
          added joins row := by
  generalize hq : (Query.ofEntity Sample.contact).addComparison "name" .ne (.text "Ann") .and = q
  have hrun : ((Criteria.rules Sample.filters Sample.ofCompany.toJson).apply Sample.registry
      Sample.context q).toOption.map (fun r => (r.removedScopes, r.joins.map Join.tableAlias)) =
        some (q.removedScopes, ["company"]) := by
    subst hq
    decide +kernel
  cases h : (Criteria.rules Sample.filters Sample.ofCompany.toJson).apply Sample.registry
    Sample.context q with
  | error error =>
    rw [h] at hrun
    cases hrun
  | ok r =>
    rw [h] at hrun
    obtain ⟨hscopes, haliases⟩ := Prod.mk.inj (Option.some.inj hrun)
    obtain ⟨added, joins, -, hrefines, hnarrows⟩ := Criteria.apply_narrows _ h hscopes
    have hjoins : joins.map Join.tableAlias = ["company"] := by
      rw [hrefines.joins_eq] at haliases
      subst hq
      exact haliases
    have hunread : ∀ j ∈ joins, j.tableAlias ∉ q.reads := by
      intro j hj
      have hj : j.tableAlias ∈ joins.map Join.tableAlias := List.mem_map_of_mem hj
      rw [hjoins, List.mem_singleton] at hj
      rw [hj]
      subst hq
      decide
    refine ⟨r, added, joins, rfl, hjoins, fun row => ?_⟩
    refine (hnarrows hunread Sample.dataset row).2.2.2 fun clause hclause => ?_
    subst hq
    cases hclause

/-- Contacts named Ann or Cid, narrowed to those named Cid: Ann is matched through the first
alternative, although the rules alone select Cid only. -/
theorem rules_escape_sample :
    let criteria := Criteria.rules Sample.filters
      (Rule.Tree.toJson ⟨.and, [Sample.rule "name" "equal" (.string "Cid")], by simp⟩)
    let all := Query.ofEntity Sample.contact
    let q := (all.addComparison "name" .eq (.text "Ann") .and).addComparison "name" .eq
      (.text "Cid") .or
    let ann := Sample.contactRow 1 "Ann" (.integer 1)
    ids Sample.dataset q = [1, 3] ∧
      (criteria.apply Sample.registry Sample.context all).toOption.map (ids Sample.dataset) =
        some [3] ∧
      (criteria.apply Sample.registry Sample.context q).toOption.map (fun r =>
        (r.removedScopes == q.removedScopes, r.joins.isEmpty, ids Sample.dataset r,
          matchesRow Sample.dataset r ann,
          matchesBoth Sample.dataset q ((r.clauses.drop 2).map Clause.predicate) [] ann)) =
        some (true, true, [1, 3], true, false) := by
  decide +kernel

end Winnow.Listing
