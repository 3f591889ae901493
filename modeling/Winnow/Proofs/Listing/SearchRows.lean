import Winnow.Proofs.Listing.SearchFields

/-!
# The rows that a search selects

A search asks for the value of a pair in the field of the pair, and for its term
in every field (`SearchText.Asks`); fields that a value cannot be read for are
left out.  A row is selected when the predicates of the others hold of it, all
or any of them (`search_selects`).  Where no field is left, nothing is asked of
rows and every visible one is selected, also where any match would do
(`unread_search_selects_all`).
-/

namespace Winnow

open Engine

/-! ## Clauses of groups -/

/-- A group asks the same of rows whether it stands as one clause or as many. -/
theorem Query.clausesHold_groupPredicate (g : Query) (db : Dataset) (frame : Frame) :
    clausesHold db frame (g.groupPredicate.toList.map fun p => ⟨.and, p⟩) =
      clausesHold db frame g.clauses := by
  unfold groupPredicate
  rcases g.clauses with _ | ⟨⟨connective, p⟩, _ | ⟨clause, rest⟩⟩
  · rfl
  · rfl
  · show clausesHold db frame [⟨.and, .nested _⟩] = _
    rw [clausesHold, clausesHoldAfter, predicateHolds]

/-! ## Left joins -/

/-- Whether every join of a query is a left one. -/
def Query.JoinsLeft (q : Query) : Prop := ∀ j ∈ q.joins, j.kind = .left

section
variable {q r : Query}

theorem Query.JoinsLeft.addJoin (h : q.JoinsLeft) {join : Join} (hjoin : join.kind = .left) :
    (q.addJoin join).JoinsLeft := by
  unfold Query.addJoin
  split
  · exact h
  · intro j hj
    rcases List.mem_append.mp hj with hj | hj
    · exact h j hj
    · rw [List.mem_singleton.mp hj]
      exact hjoin

theorem Query.relationJoin_left {found : Relation} {related : Entity}
    {relation parent tableAlias : String} {join : Join}
    (h : relationJoin found related relation parent tableAlias = some join) :
    join.kind = .left := by
  unfold relationJoin at h
  split at h
  · cases h
    rfl
  · cases h

theorem Query.joinFrom_left {registry : Registry} {walked relations : List String} {entity : Entity}
    {parent tableAlias : String} (hq : q.JoinsLeft)
    (h : joinFrom registry walked entity parent relations q = .ok (tableAlias, r)) :
    r.JoinsLeft := by
  induction relations generalizing walked entity parent q with
  | nil =>
    cases h
    exact hq
  | cons relation rest ih =>
    unfold joinFrom at h
    split at h
    · cases h
    · simp only at h
      split at h
      · cases h
      · split at h
        next join hjoin => exact ih (hq.addJoin (relationJoin_left hjoin)) h
        next => exact ih hq h

end

namespace Engine

section
variable (db : Dataset)

/-- A left join keeps every frame. -/
theorem joinFrame_ne_nil {join : Join} (h : join.kind = .left) (frame : Frame) :
    joinFrame db join frame ≠ [] := by
  unfold joinFrame
  simp only [h, beq_self_eq_true, Bool.and_true]
  split
  · exact List.cons_ne_nil _ _
  next hne => exact mt List.isEmpty_iff.mpr hne

theorem framesOf_ne_nil {joins : List Join} (h : ∀ j ∈ joins, j.kind = .left) (frame : Frame) :
    framesOf db joins frame ≠ [] := by
  induction joins generalizing frame with
  | nil => exact List.cons_ne_nil _ _
  | cons join joins ih =>
    obtain ⟨joined, hjoined⟩ :=
      List.exists_mem_of_ne_nil _ (joinFrame_ne_nil db (h join List.mem_cons_self) frame)
    obtain ⟨extended, hextended⟩ :=
      List.exists_mem_of_ne_nil _ (ih (fun j hj => h j (List.mem_cons_of_mem join hj)) joined)
    refine List.ne_nil_of_mem (a := extended) ?_
    rw [framesOf, List.foldl_cons, List.flatMap_singleton, foldl_joinFrame]
    exact List.mem_flatMap.mpr ⟨joined, hjoined, hextended⟩

/-- Left joins under other names than the table do not change which rows are matched by clauses that
depend on the row alone. -/
theorem matchesRow_of_left {q : Query} (hremoved : q.removedScopes = []) (hleft : q.JoinsLeft)
    (hapart : ∀ j ∈ q.joins, j.tableAlias ≠ q.qualifier) (row : Row) {asks : Bool}
    (hclauses : ∀ frame, Frame.row? frame q.qualifier = some row →
      clausesHold db frame q.clauses = asks) :
    matchesRow db q row = (q.entity.shows row && asks) := by
  have hunhidden : ∀ j ∈ q.joins, j.tableAlias ∉ [q.qualifier] := fun j hj hhidden =>
    hapart j hj (List.mem_singleton.mp hhidden)
  have hframe : ∀ frame ∈ rowFrames db q row,
      queryHolds db frame q = (q.entity.shows row && asks) := by
    intro frame hframe
    have hbound : frame.row? q.qualifier = some row :=
      (agreeOn_of_mem_framesOf db hunhidden hframe q.qualifier (List.mem_singleton_self _)).trans
        (Frame.row?_cons_self ..)
    unfold queryHolds
    rw [scopesHold_eq_shows hremoved hbound, hclauses frame hbound]
  obtain ⟨frame, hmem⟩ := List.exists_mem_of_ne_nil _
    (framesOf_ne_nil db hleft [(q.qualifier, some row)])
  rw [Bool.eq_iff_iff, matchesRow, List.any_eq_true]
  constructor
  · rintro ⟨frame, hmem, hholds⟩
    rwa [hframe frame hmem] at hholds
  · exact fun hasks => ⟨frame, hmem, (hframe frame hmem).trans hasks⟩

end

end Engine

namespace Listing

open Winnow.Text Compile

/-! ## Matches -/

/-- Matches ask of rows that all or any of them hold; without any they ask nothing. -/
theorem clausesHold_matchClauses (db : Dataset) (frame : Frame) (mode : SearchMatch)
    (ps : List Predicate) :
    clausesHold db frame (matchClauses mode ps) = (ps.isEmpty || match mode with
      | .all => ps.all (predicateHolds db frame)
      | .any => ps.any (predicateHolds db frame)) := by
  cases ps with
  | nil => rfl
  | cons first rest =>
    have hfirst : clausesHold db frame (matchClauses mode (first :: rest)) =
        clausesHold db frame ((first :: rest).map fun p => ⟨mode.connective, p⟩) := by
      rw [matchClauses, List.map_cons, clausesHold, clausesHold]
    rw [hfirst, clausesHold_uniform db frame _ (List.cons_ne_nil first rest)]
    cases mode <;> rfl

/-- Whether a search asks for a value in a field: for that of a pair in the field of the pair, and
for its term in every field but keys, in those only for a number. -/
def SearchText.Asks (registry : Registry) (e : Entity) (fields : List SearchableColumn)
    (search : SearchText) (column : SearchableColumn) (value : String) : Prop :=
  (∃ field, (field, value) ∈ search.pairs ∧
    fields.find? (fun c => c.field == field) = some column) ∨
  (search.term = some value ∧ column ∈ fields ∧
    (isNumeric value = true ∨ isKeyField registry e column.field = false))

theorem mem_searchTests {registry : Registry} {e : Entity} {fields : List SearchableColumn}
    {search : SearchText} {column : SearchableColumn} {value : String} :
    (column, value) ∈ searchTests registry e fields search ↔
      search.Asks registry e fields column value := by
  unfold searchTests SearchText.Asks
  rw [List.mem_append, List.mem_filterMap]
  refine or_congr ?_ ?_
  · constructor
    · rintro ⟨⟨field, other⟩, hpair, hfound⟩
      obtain ⟨found, hfind, heq⟩ := Option.map_eq_some_iff.mp hfound
      cases heq
      exact ⟨field, hpair, hfind⟩
    · rintro ⟨field, hpair, hfind⟩
      exact ⟨(field, value), hpair, Option.map_eq_some_iff.mpr ⟨column, hfind, rfl⟩⟩
  · cases search.term with
    | none => simp
    | some term =>
      simp only [Option.map_some, Option.getD_some, List.mem_map, termFields, List.mem_filter,
        Option.some_inj, Prod.mk.injEq, Bool.or_eq_true, Bool.not_eq_true']
      constructor
      · rintro ⟨found, ⟨hmem, hkey⟩, rfl, rfl⟩
        exact ⟨rfl, hmem, hkey⟩
      · rintro ⟨rfl, hmem, hkey⟩
        exact ⟨column, ⟨hmem, hkey⟩, rfl, rfl⟩

/-! ## Requests -/

section
variable {registry : Registry} {context : CompileContext} {settings : QuerySettings}
  {scope : SearchScope} {p : Parameters} {q r : Query}

/-- What the parts of a request behind its search leave alone: clauses and removed scopes stay, and
joins, which are left ones, are appended. -/
structure Arranges (q r : Query) : Prop where
  group_eq : r.group = q.group
  clauses_eq : r.clauses = q.clauses
  removedScopes_eq : r.removedScopes = q.removedScopes
  joinsLeft : q.JoinsLeft → r.JoinsLeft

theorem Arranges.trans {q r s : Query} (h : Arranges q r) (h' : Arranges r s) : Arranges q s :=
  ⟨h'.group_eq.trans h.group_eq, h'.clauses_eq.trans h.clauses_eq,
    h'.removedScopes_eq.trans h.removedScopes_eq, fun hq => h'.joinsLeft (h.joinsLeft hq)⟩

theorem Arranges.refl (q : Query) : Arranges q q := ⟨rfl, rfl, rfl, id⟩

/-- From an empty query with one clause at most. -/
theorem Arranges.of_clause {e : Entity} {predicate : Option Predicate} {r : Query}
    (h : Arranges ((Query.ofEntity e).addPredicate .and predicate) r) :
    r.entity = e ∧ r.qualifier = e.table ∧ r.removedScopes = [] ∧ r.JoinsLeft ∧
      r.clauses = predicate.toList.map fun p => ⟨.and, p⟩ := by
  have hentity := Query.entity_eq_of_group h.group_eq
  have hqualifier := Query.qualifier_eq_of_group h.group_eq
  have hleft := h.joinsLeft
  rw [hentity, hqualifier, h.removedScopes_eq, h.clauses_eq]
  cases predicate <;>
    exact ⟨rfl, rfl, rfl, hleft fun j hj => absurd hj List.not_mem_nil, rfl⟩

theorem orderBy_arranges {sort : SortField} (h : orderBy registry sort q = .ok r) :
    Arranges q r := by
  cases orderBy_step h with
  | own => exact ⟨rfl, rfl, rfl, id⟩
  | named => exact ⟨rfl, rfl, rfl, id⟩
  | @along _ _ _ joined _ _ _ _ _ _ hjoin =>
    have hjoined : Arranges q joined :=
      ⟨Query.joinFrom_keeps Query.group (fun _ _ => rfl) hjoin,
        Query.joinFrom_keeps Query.clauses (fun _ _ => rfl) hjoin,
        Query.joinFrom_keeps Query.removedScopes (fun _ _ => rfl) hjoin,
        fun hq => Query.joinFrom_left hq hjoin⟩
    exact hjoined.trans ⟨rfl, rfl, rfl, id⟩

theorem requestOrder_arranges (h : requestOrder registry p q = .ok r) : Arranges q r := by
  rcases requestOrder_cases h with ⟨-, rfl⟩ | ⟨-, h⟩
  · exact .refl r
  · have hforget : Arranges q q.forgetOrders := ⟨rfl, rfl, rfl, id⟩
    exact foldlM_keeps h (fun _ _ _ _ hstep hordered => hordered.trans (orderBy_arranges hstep))
      hforget

theorem requestSelect_arranges (h : requestSelect p q = .ok r) : Arranges q r := by
  rcases requestSelect_cases h with rfl | rfl
  · exact .refl r
  · have hjoins := q.select_keeps Query.joins (fun _ _ => rfl) (q.entity.primaryKey :: p.select)
    exact ⟨Query.select_keeps _ (fun _ _ => rfl) .., Query.select_keeps _ (fun _ _ => rfl) ..,
      Query.select_keeps _ (fun _ _ => rfl) .., fun hq j hj => hq j (hjoins ▸ hj)⟩

theorem requestLoad_arranges (h : requestLoad registry p q = .ok r) : Arranges q r := by
  rw [requestLoad_eq h]
  have hjoins := q.load_keeps Query.joins (fun _ _ => rfl) p.load
  exact ⟨Query.load_keeps _ (fun _ _ => rfl) .., Query.load_keeps _ (fun _ _ => rfl) ..,
    Query.load_keeps _ (fun _ _ => rfl) .., fun hq j hj => hq j (hjoins ▸ hj)⟩

theorem requestTake_arranges (settings : QuerySettings) (p : Parameters) (q : Query) :
    Arranges q (requestTake settings p q) := by
  rcases requestTake_cases settings p q with h | ⟨limit, h⟩ <;> rw [h]
  · exact .refl q
  · exact ⟨rfl, rfl, rfl, id⟩

theorem request_cases (h : request registry context settings scope p q = .ok r) :
    ∃ searched, search registry context settings scope p q = .ok searched ∧ Arranges searched r := by
  obtain ⟨searched, ordered, selected, loaded, hsearch, horder, hselect, hload, rfl⟩ :=
    request_parts h
  refine ⟨searched, hsearch, ?_⟩
  exact (((requestOrder_arranges horder).trans (requestSelect_arranges hselect)).trans
    (requestLoad_arranges hload)).trans (requestTake_arranges settings p loaded)

end

/-! ## Rows -/

/-- The predicate of a search field depends on the row alone, whatever else is bound. -/
theorem searchPredicate_alone {registry : Registry} {context : CompileContext} {q : Query}
    {column : SearchableColumn} {value : String} {predicate : Predicate}
    (h : searchPredicate ⟨registry, context, none⟩ q column value = .ok (some predicate))
    (db : Dataset) {frame : Frame} {row : Row} (hrow : frame.row? q.qualifier = some row) :
    predicateHolds db frame predicate = predicateHolds db [(q.qualifier, some row)] predicate := by
  have hmeans := fieldPredicate_means db ⟨registry, context, none⟩ q .unmet
    (fun frame row => frame.row? q.qualifier = some row) (fun _ _ hrow => hrow)
    (Filter.plain .text column.field column.field) (searchOperation column.operator)
    (.string value) column.field fun _ => by
      have hunjoined : ∀ path, joinOf? ⟨registry, context, none⟩ q path = none :=
        fun _ => ite_self _
      unfold Served
      rw [hunjoined]
      exact .inl rfl
  rw [searchPredicate_eq_ok h] at hmeans
  generalize Condition.ofField db _ _ _ _ _ _ _ = condition at hmeans
  cases hmeans with
  | bound hboth =>
    rw [hboth frame row hrow, hboth _ row (Frame.row?_cons_self ..)]

section
variable {registry : Registry} {context : CompileContext} {settings : QuerySettings}
  {scope : SearchScope} {p : Parameters} {e : Entity} {r : Query}
  {fields : List SearchableColumn} {text : String}

/-- The predicates that a search matches, one for every field with a value that can be read. -/
def Tested (registry : Registry) (context : CompileContext) (e : Entity)
    (fields : List SearchableColumn) (text : String) (predicate : Predicate) : Prop :=
  ∃ column value, (SearchText.read fields text).Asks registry e fields column value ∧
    searchPredicate ⟨registry, context, none⟩ (Query.ofEntity e) column value = .ok (some predicate)

/-- Whether a row satisfies a predicate. -/
def Satisfies (db : Dataset) (e : Entity) (row : Row) (predicate : Predicate) : Prop :=
  predicateHolds db [(e.table, some row)] predicate = true

/-- The predicates of a search are a list, of which a row is asked all or any, if there are some. -/
theorem request_matches (hextend : scope.extend = .ok) (htext : p.searchText? = some text)
    (hfields : activeFields p (scope.searchable.getD e.searchable) = .ok fields)
    (hkey : lookedUpKey? settings p (SearchText.read fields text) = none)
    (h : request registry context settings scope p (Query.ofEntity e) = .ok r)
    (hapart : ∀ j ∈ r.joins, j.tableAlias ≠ e.table) :
    ∃ ps : List Predicate,
      (∀ predicate, predicate ∈ ps ↔ Tested registry context e fields text predicate) ∧
      ∀ db row, matchesRow db r row = (e.shows row && (ps.isEmpty ||
        match p.searchMatch.getD .any with
        | .all => ps.all (predicateHolds db [(e.table, some row)])
        | .any => ps.any (predicateHolds db [(e.table, some row)]))) := by
  obtain ⟨searched, hsearch, harranges⟩ := request_cases h
  rcases search_cases hsearch with ⟨hnone, -⟩ | ⟨_, _, found, group, htext', hfields', hfound,
    hgroup, rfl⟩
  · cases hnone.symm.trans htext
  cases htext'.symm.trans htext
  cases hfields'.symm.trans hfields
  rw [absorb_of_unextended hextend hgroup] at harranges
  rcases searchGroup_cases hfound with ⟨key, hlooked, -⟩ | ⟨-, predicates, hpredicates, rfl⟩
  · cases hlooked.symm.trans hkey
  have hps : ∀ predicate, predicate ∈ predicates.filterMap (fun p => p) ↔
      Tested registry context e fields text predicate := by
    intro predicate
    rw [List.mem_filterMap]
    constructor
    · rintro ⟨_, hmem, rfl⟩
      obtain ⟨⟨column, value⟩, htest, hread⟩ := of_mem_mapM hpredicates hmem
      exact ⟨column, value, mem_searchTests.mp htest, hread⟩
    · rintro ⟨column, value, hasked, hread⟩
      exact ⟨_, mem_of_mapM hpredicates (mem_searchTests.mpr hasked) hread, rfl⟩
  refine ⟨predicates.filterMap fun p => p, hps, fun db row => ?_⟩
  generalize predicates.filterMap (fun p => p) = ps at hps harranges
  rw [addMatches_eq] at harranges
  obtain ⟨hentity, hqualifier, hremoved, hleft, hclauses⟩ := harranges.of_clause
  rw [← hqualifier] at hapart
  rw [matchesRow_of_left db hremoved hleft hapart row fun frame hrow => ?_, hentity]
  rw [hqualifier] at hrow
  rw [hclauses, Query.clausesHold_groupPredicate]
  show clausesHold db frame ([] ++ matchClauses _ ps) = _
  rw [List.nil_append, clausesHold_matchClauses]
  have halone : ∀ predicate ∈ ps,
      predicateHolds db frame predicate = predicateHolds db [(e.table, some row)] predicate := by
    intro predicate hpredicate
    obtain ⟨column, value, -, hread⟩ := (hps predicate).mp hpredicate
    exact searchPredicate_alone hread db hrow
  refine congrArg (ps.isEmpty || ·) ?_
  cases p.searchMatch.getD .any with
  | all =>
    rw [Bool.eq_iff_iff, List.all_eq_true, List.all_eq_true]
    exact forall₂_congr fun predicate hmem => by rw [halone predicate hmem]
  | any =>
    rw [Bool.eq_iff_iff, List.any_eq_true, List.any_eq_true]
    exact exists_congr fun predicate => and_congr_right fun hmem => by rw [halone predicate hmem]

/-- A request that searches for something else than a key selects the visible rows that satisfy the
predicates of its search: all of them, or any of them.  Where no predicate is left, though, all
visible rows are selected; so where any match would do, the rows with a match are selected exactly
when there is some predicate, or no visible row. -/
theorem search_selects (hextend : scope.extend = .ok) (htext : p.searchText? = some text)
    (hfields : activeFields p (scope.searchable.getD e.searchable) = .ok fields)
    (hkey : lookedUpKey? settings p (SearchText.read fields text) = none)
    (h : request registry context settings scope p (Query.ofEntity e) = .ok r)
    (hapart : ∀ j ∈ r.joins, j.tableAlias ≠ e.table) (db : Dataset) :
    (p.searchMatch = some .all → ∀ row, matchesRow db r row = true ↔ e.shows row = true ∧
      ∀ predicate, Tested registry context e fields text predicate →
        Satisfies db e row predicate) ∧
    (p.searchMatch ≠ some .all → ∀ row, matchesRow db r row = true ↔ e.shows row = true ∧
      ((∃ predicate, Tested registry context e fields text predicate) →
        ∃ predicate, Tested registry context e fields text predicate ∧
          Satisfies db e row predicate)) ∧
    (p.searchMatch ≠ some .all →
      ((∀ row ∈ db.rows e.table, e.shows row = true → (matchesRow db r row = true ↔
          ∃ predicate, Tested registry context e fields text predicate ∧
            Satisfies db e row predicate)) ↔
        (∃ predicate, Tested registry context e fields text predicate) ∨
          ∀ row ∈ db.rows e.table, e.shows row = false)) := by
  obtain ⟨ps, hps, hmatches⟩ := request_matches hextend htext hfields hkey h hapart
  have hnone : ps.isEmpty = true ↔
      ¬ ∃ predicate, Tested registry context e fields text predicate := by
    rw [List.isEmpty_iff, List.eq_nil_iff_forall_not_mem, not_exists]
    exact forall_congr' fun predicate => not_congr (hps predicate)
  have hany : p.searchMatch ≠ some .all → ∀ row, matchesRow db r row = true ↔
      e.shows row = true ∧ ((∃ predicate, Tested registry context e fields text predicate) →
        ∃ predicate, Tested registry context e fields text predicate ∧
          Satisfies db e row predicate) := by
    intro hmode row
    have hmode : p.searchMatch.getD .any = .any := by
      rcases hmatch : p.searchMatch with _ | _ | _
      · rfl
      · exact absurd hmatch hmode
      · rfl
    rw [hmatches, hmode, Bool.and_eq_true, Bool.or_eq_true, hnone, List.any_eq_true,
      ← imp_iff_not_or]
    simp only [hps, Satisfies]
  refine ⟨fun hmode row => ?_, hany, fun hmode => ?_⟩
  · rw [hmatches, hmode, Option.getD_some, Bool.and_eq_true, Bool.or_eq_true, List.all_eq_true]
    simp only [hps]
    refine and_congr_right fun _ => ⟨fun hall predicate htested => ?_, .inr⟩
    rcases hall with hempty | hall
    · exact absurd ⟨predicate, htested⟩ (hnone.mp hempty)
    · exact hall predicate htested
  · constructor
    · intro hlaw
      rw [or_iff_not_imp_left]
      intro hempty row hrow
      refine eq_false_of_ne_true fun hshown => hempty ?_
      obtain ⟨predicate, htested, -⟩ := (hlaw row hrow hshown).mp
        ((hany hmode row).mpr ⟨hshown, fun hsome => absurd hsome hempty⟩)
      exact ⟨predicate, htested⟩
    · rintro (hsome | hhidden) row hrow hshown
      · rw [hany hmode row]
        exact ⟨fun hasked => hasked.2 hsome, fun hfound => ⟨hshown, fun _ => hfound⟩⟩
      · rw [hhidden row hrow] at hshown
        cases hshown

/-- Contacts searched by name and company, and listed by the name of their company. -/
theorem search_selects_sample :
    let declared : List SearchableColumn := [⟨"name", .like⟩, ⟨"company_id", .equal⟩]
    let scope : SearchScope := { searchable := some declared }
    let p : Parameters := { text := some " an ", order := [⟨"company|name", .ascending⟩] }
    scope.extend = .ok ∧ p.searchText? = some "an" ∧ activeFields p declared = .ok declared ∧
      lookedUpKey? {} p (SearchText.read declared "an") = none ∧
      ∃ r, request Sample.registry Sample.context {} scope p (Query.ofEntity Sample.contact) = .ok r ∧
        (∀ j ∈ r.joins, j.tableAlias ≠ "contacts") ∧
        (Sample.dataset.rows "contacts").map (matchesRow Sample.dataset r) = [true, false, false] ∧
        ∀ row, matchesRow Sample.dataset r row = true ↔ Sample.contact.shows row = true ∧
          ((∃ predicate, Tested Sample.registry Sample.context Sample.contact declared "an"
              predicate) →
            ∃ predicate, Tested Sample.registry Sample.context Sample.contact declared "an"
                predicate ∧
              Satisfies Sample.dataset Sample.contact row predicate) := by
  intro declared scope p
  have htext : p.searchText? = some "an" := by decide +kernel
  have hfields : activeFields p (scope.searchable.getD Sample.contact.searchable) = .ok declared :=
    rfl
  have hkey : lookedUpKey? {} p (SearchText.read declared "an") = none := by decide +kernel
  have hrun : (request Sample.registry Sample.context {} scope p
      (Query.ofEntity Sample.contact)).toOption.map (fun r =>
        (r.joins.map Join.tableAlias,
          (Sample.dataset.rows "contacts").map (matchesRow Sample.dataset r))) =
      some (["company"], [true, false, false]) := by
    decide +kernel
  cases h : request Sample.registry Sample.context {} scope p (Query.ofEntity Sample.contact) with
  | error failure =>
    rw [h] at hrun
    cases hrun
  | ok r =>
    rw [h] at hrun
    obtain ⟨hjoins, hrows⟩ := Prod.mk.inj (Option.some.inj hrun)
    have hapart : ∀ j ∈ r.joins, j.tableAlias ≠ "contacts" := by
      intro j hj
      have hj : j.tableAlias ∈ r.joins.map Join.tableAlias := List.mem_map_of_mem hj
      rw [hjoins, List.mem_singleton] at hj
      rw [hj]
      decide
    obtain ⟨-, hany, -⟩ := search_selects rfl htext hfields hkey h hapart Sample.dataset
    exact ⟨rfl, htext, hfields, hkey, r, rfl, hapart, hrows, hany (by decide)⟩

/-- Contacts searched for a name by their company only: the name cannot be a key, so there is no
predicate and every contact is selected. -/
theorem unread_search_selects_all :
    let declared : List SearchableColumn := [⟨"company_id", .equal⟩]
    let p : Parameters := { text := some "Ann", searchMatch := some .any }
    (∀ predicate,
      ¬ Tested Sample.registry Sample.context Sample.contact declared "Ann" predicate) ∧
      (request Sample.registry Sample.context {} { searchable := some declared } p
        (Query.ofEntity Sample.contact)).toOption.map (ids Sample.dataset) = some [1, 2, 3] := by
  refine ⟨?_, by decide +kernel⟩
  rintro predicate ⟨column, value, hasked, -⟩
  have hnone : searchTests Sample.registry Sample.contact [⟨"company_id", .equal⟩]
      (SearchText.read [⟨"company_id", .equal⟩] "Ann") = [] := by
    decide +kernel
  have htest := mem_searchTests.mpr hasked
  rw [hnone] at htest
  cases htest

end

end Listing
end Winnow
