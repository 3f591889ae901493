import Winnow.Listing.Overflow
import Winnow.Proofs.Compile.Bounds
import Winnow.Proofs.Compile.Outcome
import Winnow.Proofs.Listing.Scopes
import Winnow.Proofs.Listing.SearchRows

/-!
# Listings at the ends of the representable dates

Rules, searches and exports are put into a query without arriving at a date that
is not representable, unless an operator that they apply escapes, or the period
of the export does; what they bind is representable then
(`Criteria.apply_inRange`).  A local time at the very beginning of the
representable dates does escape where clocks are ahead, and the rule that has it
is not refused (`first_local_time_escapes`).
-/

namespace Winnow

/-! ## Definitions -/

/-- Whether resolving a period leaves the representable dates: its window escapes, or today is not
one of them or a bound of the given dates escapes. -/
def Period.Escapes (context : CompileContext) (type : ColumnType) : Period → Prop
  | .window w => context.WindowEscapes type w
  | .range first last =>
    context.localToday.inRange = false ∨
      context.BoundEscapes type ((Period.range first last).days? context.localToday)

namespace Listing

open Compile

namespace Criteria

/-- Whether what criteria bring along is representable: no custom predicates, an extension of the
search that binds representable dates only, and a period between representable dates. -/
def Sound : Criteria → Prop
  | .rules filters _ => filters.Plain
  | .request _ scope _ => ∀ group extended, scope.extend group = .ok extended →
      ∀ v, extended.Binds v → group.Binds v ∨ v.inRange = true
  | .export_ _ period => ∀ first last, period = some (.range first last) →
      first.inRange = true ∧ last.inRange = true

section
variable (registry : Registry) (context : CompileContext) (q : Query)

/-- Whether criteria end the program. -/
def overflows : Criteria → Bool
  | .rules filters payload => rulesOverflow filters registry context payload q
  | .request settings scope p => requestOverflows registry context settings scope p q
  | .export_ column period => exportOverflows context column period q

/-- Whether criteria apply an operator: that of any rule of a payload, or one of a search. -/
def Applies : Criteria → Operation → Prop
  | .rules filters payload, op => ∃ placed ∈ placedRules filters context payload,
      leafOperation? filters
        ⟨registry, context, rulesJoins filters registry context payload q.entity⟩ q placed.2 =
          some op
  | .request settings scope p, op => op ∈ searchOperations registry context settings scope p q
  | .export_ .., _ => False

/-- Whether criteria are for a period of a column of a type. -/
def Covers (type : ColumnType) (days : Period) : Criteria → Prop
  | .export_ column period => q.entity.columnType? column = some type ∧ period = some days
  | _ => False

/-- Whether an operator that criteria apply escapes, or their period. -/
def Escapes (criteria : Criteria) : Prop :=
  (∃ op, criteria.Applies registry context q op ∧ op.Escapes) ∨
    ∃ type days, criteria.Covers q type days ∧ days.Escapes context type

end

end Criteria

/-! ## Rules -/

section
variable {filters : FilterSet} {registry : Registry} {context : CompileContext} {payload : Json}
  {q r : Query} {op : Operation} {v : Value}

/-- Lenient rules apply the operators of all rules of the payload. -/
theorem mem_rulesOperations_iff (hlenient : context.validation = .lenient) :
    op ∈ rulesOperations filters registry context payload q ↔
      ∃ placed ∈ placedRules filters context payload,
        leafOperation? filters
          ⟨registry, context, rulesJoins filters registry context payload q.entity⟩ q placed.2 =
            some op := by
  unfold rulesOperations placedRules rulesJoins
  cases Rule.Tree.read? payload with
  | none => simp
  | some tree =>
    simp only [Option.bind_some]
    unfold treeOperations
    rw [nodesOperations_lenient hlenient, List.mem_filterMap, ← Rule.placedNodes_leaves]
    simp only [List.mem_map, exists_exists_and_eq_and]
    exact Iff.rfl

/-- Lenient rules never fail: one that cannot be used is left out. -/
theorem addRules_ok (hlenient : context.validation = .lenient) :
    ∃ r, addRules filters registry context payload q = .ok r := by
  have hcompile : ∀ joins tree,
      ∃ group, compileTree filters ⟨registry, context, joins⟩ tree q.group = .ok group := by
    intro joins tree
    have hok : (compileTree filters ⟨registry, context, joins⟩ tree q.group).isOk = true :=
      compileNodes_lenient hlenient tree.condition q.group tree.children
    cases hgroup : compileTree filters ⟨registry, context, joins⟩ tree q.group with
    | ok group => exact ⟨group, rfl⟩
    | error error =>
      rw [hgroup] at hok
      cases hok
  unfold addRules
  cases Rule.Tree.read? payload with
  | none => exact ⟨q, rfl⟩
  | some tree =>
    simp only
    generalize tree.fillUser filters context.user = tree
    obtain ⟨joined, hjoined⟩ := joinAll_ok filters registry tree q
    unfold addTree
    split
    next =>
      obtain ⟨group, hgroup⟩ := hcompile (some (joinTargets filters registry q.entity tree)) tree
      simp only
      rw [hjoined]
      exact ⟨putRules joined group, congrArg (Except.map (putRules joined)) hgroup⟩
    next =>
      obtain ⟨group, hgroup⟩ := hcompile none tree
      exact ⟨putRules q group, congrArg (Except.map (putRules q)) hgroup⟩

/-- Rules bind what the operators yield that they apply, besides values of global scopes. -/
theorem addRules_binds (hplain : filters.Plain) (hlenient : context.validation = .lenient)
    (h : addRules filters registry context payload q = .ok r) (hv : r.Binds v) :
    q.Binds v ∨ v.inRange = true ∨
      ∃ op ∈ rulesOperations filters registry context payload q, op.Yields v := by
  rcases addRules_collects (fun _ _ => rfl) binds_collected h hv with
    hold | ⟨placed, hplaced, g, hg, hv⟩
  · exact .inl hold
  · refine .inr ((leafGroup_binds hplain hg hv).imp_right fun ⟨op, hop, hyields⟩ => ?_)
    exact ⟨op, (mem_rulesOperations_iff hlenient).mpr ⟨placed, hplaced, hop⟩, hyields⟩

end

/-! ## Searches -/

section
variable {env : Environment} {q : Query} {tests : List (SearchableColumn × String)}
  {op : Operation}

/-- Tests that are all read have applied the operators of all of them. -/
theorem mem_testOperations {predicates : List (Option Predicate)}
    (h : tests.mapM (fun test => searchPredicate env q test.1 test.2) = .ok predicates)
    {column : SearchableColumn} {value : String} (htest : (column, value) ∈ tests)
    (hop : testOperation env q column value = .ok op) : op ∈ testOperations env q tests := by
  induction tests generalizing predicates with
  | nil => cases htest
  | cons first rest ih =>
    rw [List.mapM_cons] at h
    obtain ⟨found, hfound, h⟩ := bind_eq_ok h
    obtain ⟨others, hothers, -⟩ := bind_eq_ok h
    unfold testOperations
    rcases List.mem_cons.mp htest with rfl | htest
    · rw [hop]
      exact List.mem_append_left _ (List.mem_singleton_self op)
    · rw [hfound]
      exact List.mem_append_right _ (ih hothers htest)

theorem of_mem_testOperations (h : op ∈ testOperations env q tests) :
    ∃ column value, testOperation env q column value = .ok op := by
  induction tests with
  | nil => cases h
  | cons first rest ih =>
    obtain ⟨column, value⟩ := first
    unfold testOperations at h
    rcases List.mem_append.mp h with h | h
    · exact ⟨column, value, ok_of_toOption (Option.mem_toList.mp h)⟩
    · split at h
      next => exact ih h
      next => cases h

end

section
variable {registry : Registry} {context : CompileContext} {settings : QuerySettings}
  {scope : SearchScope} {p : Parameters} {q r found : Query} {fields : List SearchableColumn}
  {text : String} {op : Operation} {v : Value}

theorem searchOperations_context
    (h : op ∈ searchOperations registry context settings scope p q) : op.context = context := by
  unfold searchOperations at h
  split at h
  next =>
    simp only at h
    split at h
    next => cases h
    next =>
      obtain ⟨column, value, hop⟩ := of_mem_testOperations h
      exact fieldOperation_context hop
  next => cases h

/-- The group of a search binds a key, or what the operators of its tests yield. -/
theorem searchGroup_binds
    (h : searchGroup ⟨registry, context, none⟩ settings p fields text q = .ok found)
    (hv : found.Binds v) :
    v.inRange = true ∨ lookedUpKey? settings p (SearchText.read fields text) = none ∧
      ∃ op ∈ testOperations ⟨registry, context, none⟩ q
        (searchTests registry q.entity fields (SearchText.read fields text)), op.Yields v := by
  obtain ⟨clause, hclause, hbinds⟩ := hv
  rcases searchGroup_cases h with ⟨key, -, rfl⟩ | ⟨hkey, predicates, hpredicates, rfl⟩
  · rw [List.mem_singleton.mp hclause] at hbinds
    cases hbinds with
    | test ht hv =>
      rw [List.mem_singleton.mp ht] at hv
      rw [List.mem_singleton.mp hv]
      exact .inl rfl
    | scope hq | related hq => cases hq
  · rw [addMatches_eq] at hclause
    obtain ⟨predicate, hpredicate, hsome⟩ :=
      List.mem_filterMap.mp (predicate_of_matchClauses hclause)
    cases hsome
    obtain ⟨⟨column, value⟩, htest, hread⟩ := of_mem_mapM hpredicates hpredicate
    refine (fieldPredicate_binds (searchPredicate_eq_ok hread) hbinds).imp_right
      fun ⟨op, hop, hyields⟩ => ?_
    exact ⟨hkey, op, mem_testOperations hpredicates htest hop, hyields⟩

/-- A search binds what the operators yield that it applies, besides representable values. -/
theorem search_binds
    (hextend : ∀ group extended, scope.extend group = .ok extended →
      ∀ v, extended.Binds v → group.Binds v ∨ v.inRange = true)
    (h : search registry context settings scope p q = .ok r) (hv : r.Binds v) :
    q.Binds v ∨ v.inRange = true ∨
      ∃ op ∈ searchOperations registry context settings scope p q, op.Yields v := by
  rcases search_cases h with ⟨-, rfl⟩ | ⟨text, fields, found, group, htext, hfields, hfound,
    hgroup, rfl⟩
  · exact .inl hv
  · rcases binds_collected.absorb q .and group v hv with hold | hnew
    · exact .inl hold
    · rcases hextend _ _ hgroup v hnew with hsearched | hrange
      · rcases Query.binds_addPredicate hsearched with hblank | ⟨predicate, hpredicate, hbinds⟩
        · exact absurd hblank (binds_collected.blank q v)
        · refine .inr ((searchGroup_binds hfound
            (Query.binds_of_groupPredicate hpredicate hbinds)).imp_right
              fun ⟨hkey, op, hop, hyields⟩ => ⟨op, ?_, hyields⟩)
          unfold searchOperations
          rw [htext, hfields]
          simp only [hkey, Option.isSome_none, Bool.false_eq_true, if_false]
          exact hop
      · exact .inr (.inl hrange)

theorem request_binds
    (hextend : ∀ group extended, scope.extend group = .ok extended →
      ∀ v, extended.Binds v → group.Binds v ∨ v.inRange = true)
    (h : request registry context settings scope p q = .ok r) (hv : r.Binds v) :
    q.Binds v ∨ v.inRange = true ∨
      ∃ op ∈ searchOperations registry context settings scope p q, op.Yields v := by
  obtain ⟨searched, hsearched, harranges⟩ := request_cases h
  refine search_binds hextend hsearched ?_
  unfold Query.Binds at hv
  rwa [harranges.clauses_eq] at hv

end

/-! ## Exports -/

section
variable {context : CompileContext} {column : String} {type : ColumnType} {days : Period}
  {q r : Query} {v : Value}

theorem days?_inRange {today start finish : Date}
    (hsound : ∀ first last, days = .range first last → first.inRange = true ∧ last.inRange = true)
    (h : days.days? today = some (start, finish)) :
    start.inRange = true ∧ finish.inRange = true := by
  cases days with
  | window w => exact Window.days?_inRange h
  | range first last =>
    obtain ⟨next, hnext, hpair⟩ := Option.map_eq_some_iff.mp h
    cases hpair
    exact ⟨(hsound _ _ rfl).1, Date.addDays?_inRange hnext⟩

theorem boundDates_subset :
    ∀ date ∈ context.boundDates type (days.days? context.localToday),
      date ∈ periodDates context type days := by
  intro date hdate
  cases days with
  | window w => exact List.mem_cons_of_mem _ (List.mem_cons_of_mem _ hdate)
  | range first last => exact List.mem_cons_of_mem _ hdate

theorem periodDates_inRange (hoffset : Calendar.offsetInRange context.timezone.seconds = true)
    (hsound : ∀ first last, days = .range first last →
      first.inRange = true ∧ last.inRange = true) :
    (∀ date ∈ periodDates context type days, date.inRange = true) ↔
      ¬days.Escapes context type := by
  cases days with
  | window w => exact CompileContext.windowDates_inRange hoffset
  | range first last =>
    have hbounds := @CompileContext.boundDates_inRange context hoffset type
      ((Period.range first last).days? context.localToday) fun _ _ => days?_inRange hsound
    unfold periodDates Period.Escapes
    rw [List.forall_mem_cons, hbounds, not_or, Bool.not_eq_false]

theorem exportOverflows_iff (hoffset : Calendar.offsetInRange context.timezone.seconds = true)
    {period : Option Period} (hsound : ∀ first last, period = some (.range first last) →
      first.inRange = true ∧ last.inRange = true) :
    exportOverflows context column period q = true ↔
      ∃ type days, (q.entity.columnType? column = some type ∧ period = some days) ∧
        days.Escapes context type := by
  unfold exportOverflows exportDates
  cases q.entity.columnType? column with
  | none => simp
  | some type =>
    cases period with
    | none => simp
    | some days =>
      have hrange := not_congr (@periodDates_inRange context type days hoffset
        fun first last hdays => hsound first last (congrArg some hdays))
      rw [not_not] at hrange
      simp [← hrange]

/-- The bounds of a period are days that are representable, or the dates of their beginnings. -/
theorem addPeriod_binds (hsound : ∀ first last, days = .range first last →
      first.inRange = true ∧ last.inRange = true)
    (h : addPeriod context column type days q = .ok r) (hv : r.Binds v) :
    q.Binds v ∨ ((∀ date ∈ periodDates context type days, date.inRange = true) →
      v.inRange = true) := by
  obtain ⟨start, finish, low, high, hdays, hbounds, rfl⟩ := addPeriod_cases h
  refine (Query.binds_addClause hv).imp_right fun hbinds hdates => ?_
  have hbound : v = low ∨ v = high := by
    cases hbinds with
    | test ht hv => exact Operation.mem_halfOpen ht hv
    | scope hq | related hq => cases hq
  unfold periodBounds at hbounds
  split at hbounds
  next =>
    cases hbounds
    have hstarts : ∀ day ∈ [start, finish], (context.timezone.dayStart day).date.inRange = true := by
      intro day hday
      refine hdates _ (boundDates_subset _ ?_)
      rw [hdays]
      exact List.mem_map_of_mem hday
    rcases hbound with rfl | rfl
    · exact hstarts start List.mem_cons_self
    · exact hstarts finish (List.mem_cons_of_mem _ List.mem_cons_self)
  next =>
    cases hbounds
    obtain ⟨hstart, hfinish⟩ := days?_inRange hsound hdays
    rcases hbound with rfl | rfl
    · exact hstart
    · exact hfinish
  next => cases hbounds

theorem export_binds {period : Option Period} (hsound : ∀ first last,
      period = some (.range first last) → first.inRange = true ∧ last.inRange = true)
    (h : export_ context column period q = .ok r) (hv : r.Binds v) :
    q.Binds v ∨ ((∀ date ∈ exportDates context column period q, date.inRange = true) →
      v.inRange = true) := by
  obtain ⟨type, bounded, htype, ⟨-, rfl⟩ | ⟨days, rfl, hbounded⟩, rfl⟩ := export_cases h
  · exact .inl hv
  · unfold exportDates
    rw [htype]
    exact addPeriod_binds (fun first last hdays => hsound first last (congrArg some hdays))
      hbounded hv

/-- A period that has no representable days is refused. -/
theorem export_of_unresolved (htype : q.entity.columnType? column = some type)
    (hdays : days.days? context.localToday = none) :
    export_ context column (some days) q =
      .error (.invalidValue column Operator.between.token "period out of range") := by
  have hrefused : addPeriod context column type days q =
      .error (.invalidValue column Operator.between.token "period out of range") := by
    unfold addPeriod
    rw [hdays]
    rfl
  unfold export_
  rw [htype]
  exact congrArg (Except.map fun q => q.forgetOrders.orderByColumn column .descending) hrefused

end

/-! ## Criteria -/

namespace Criteria

section
variable (criteria : Criteria) {registry : Registry} {context : CompileContext} {q r : Query}
  {op : Operation} {v : Value}

theorem applies_context (h : criteria.Applies registry context q op) : op.context = context := by
  cases criteria with
  | rules filters payload =>
    obtain ⟨placed, -, hop⟩ := h
    exact leafOperation?_context hop
  | request settings scope p => exact searchOperations_context h
  | export_ column period => exact h.elim

/-- Criteria end the program exactly when they escape. -/
theorem overflows_iff (hlenient : context.validation = .lenient)
    (hoffset : Calendar.offsetInRange context.timezone.seconds = true) (hsound : criteria.Sound) :
    criteria.overflows registry context q = true ↔ criteria.Escapes registry context q := by
  have hoperations : ∀ {operations : List Operation},
      (∀ op, op ∈ operations ↔ criteria.Applies registry context q op) →
        (operations.any Operation.overflows = true ↔
          ∃ op, criteria.Applies registry context q op ∧ op.Escapes) := by
    intro operations happlies
    rw [List.any_eq_true]
    refine exists_congr fun op => ?_
    rw [happlies]
    refine and_congr_right fun hop => Operation.overflows_iff ?_
    rw [criteria.applies_context hop]
    exact hoffset
  cases criteria with
  | rules filters payload =>
    refine (hoperations fun op => mem_rulesOperations_iff hlenient).trans
      ⟨.inl, fun h => h.resolve_right ?_⟩
    rintro ⟨type, days, hcovers, -⟩
    exact hcovers
  | request settings scope p =>
    refine (hoperations fun op => Iff.rfl).trans ⟨.inl, fun h => h.resolve_right ?_⟩
    rintro ⟨type, days, hcovers, -⟩
    exact hcovers
  | export_ column period =>
    refine (exportOverflows_iff hoffset hsound).trans ⟨.inr, fun h => h.resolve_left ?_⟩
    rintro ⟨op, hop, -⟩
    exact hop

/-- Criteria that do not end the program bind representable dates only. -/
theorem apply_binds (hlenient : context.validation = .lenient) (hsound : criteria.Sound)
    (hfit : criteria.overflows registry context q = false)
    (h : criteria.apply registry context q = .ok r) (hv : r.Binds v) :
    q.Binds v ∨ v.inRange = true := by
  have hyields : ∀ {operations : List Operation}, operations.any Operation.overflows = false →
      (q.Binds v ∨ v.inRange = true ∨ ∃ op ∈ operations, op.Yields v) →
        q.Binds v ∨ v.inRange = true := by
    rintro operations hfit (hold | hrange | ⟨op, hop, hyields⟩)
    · exact .inl hold
    · exact .inr hrange
    · exact .inr (Operation.yields_inRange
        (Bool.eq_false_iff.mpr (List.any_eq_false.mp hfit op hop)) hyields)
  cases criteria with
  | rules filters payload =>
    exact hyields hfit (addRules_binds hsound hlenient (liftCompile_eq_ok h) hv)
  | request settings scope p => exact hyields hfit (request_binds hsound h hv)
  | export_ column period =>
    refine (export_binds hsound (liftCompile_eq_ok h) hv).imp_right fun hdates => hdates ?_
    intro date hdate
    simpa using List.any_eq_false.mp hfit date hdate

end
end Criteria

/-! ## A sample -/

/-- Contacts and when they were seen. -/
def seenQuery : Query := Query.ofEntity (Sample.contact.addColumn "seen" .dateTime)

/-- Clocks are an hour ahead. -/
def seenContext : CompileContext := { now := ⟨1710158400, 0⟩, timezone := ⟨3600⟩ }

/-- Rules on when contacts were seen. -/
def seenRules (condition : Connective) (first : Rule.Node) (rest : List Rule.Node) : Criteria :=
  .rules ⟨[Filter.plain .dateTime "seen" "Seen"]⟩
    (Rule.Tree.toJson ⟨condition, first :: rest, List.cons_ne_nil first rest⟩)

theorem seenRules_sound (condition : Connective) (first : Rule.Node) (rest : List Rule.Node) :
    (seenRules condition first rest).Sound := by
  intro f hf
  rw [List.mem_singleton.mp hf]
  exact ⟨fun custom h => (nomatch h), fun operand h => absurd h List.not_mem_nil⟩

/-- For all lenient rules without custom predicates, searches and exports, at every time and in every
timezone: they end the program exactly when an operator that they apply escapes, or their period.
Otherwise everything that they bind is representable.  Rules never fail, operators only because
their value cannot be used; windows and periods without representable days are refused. -/
theorem Criteria.apply_inRange (criteria : Criteria) (registry : Registry) (context : CompileContext)
    (q : Query) (hlenient : context.validation = .lenient)
    (hoffset : Calendar.offsetInRange context.timezone.seconds = true) (hsound : criteria.Sound) :
    (criteria.overflows registry context q = true ↔ criteria.Escapes registry context q) ∧
    (criteria.overflows registry context q = false →
      ∀ r, criteria.apply registry context q = .ok r →
        ∀ v, r.Binds v → q.Binds v ∨ v.inRange = true) ∧
    (∀ filters payload, criteria = .rules filters payload →
      ∃ r, criteria.apply registry context q = .ok r) ∧
    (∀ op, criteria.Applies registry context q op → op.Refuses op.predicate ∧
      ∀ w, op.window? = some w → w.days? context.localToday = none →
        op.predicate = .error (op.invalid "date out of range")) ∧
    ∀ type days, criteria.Covers q type days → days.days? context.localToday = none →
      ∃ column, criteria.apply registry context q = .error (Failure.ofCompile
        (.invalidValue column Operator.between.token "period out of range")) := by
  refine ⟨criteria.overflows_iff hlenient hoffset hsound,
    fun hfit r h v hv => criteria.apply_binds hlenient hsound hfit h hv, ?_, ?_, ?_⟩
  · rintro filters payload rfl
    obtain ⟨r, hr⟩ := @addRules_ok filters registry context payload q hlenient
    exact ⟨r, congrArg Failure.liftCompile hr⟩
  · intro op hop
    refine ⟨Operation.predicate_refuses, fun w hw hdays => ?_⟩
    rw [← criteria.applies_context hop] at hdays
    exact Operation.predicate_of_unresolved hw hdays
  · intro type days hcovers hdays
    cases criteria with
    | rules | request => exact hcovers.elim
    | export_ column period =>
      obtain ⟨htype, rfl⟩ := hcovers
      exact ⟨column, congrArg Failure.liftCompile (export_of_unresolved htype hdays)⟩

/-- Contacts seen before one in the night on the first day that there is, or today. -/
theorem Criteria.apply_inRange_sample :
    let rules := seenRules .or (Sample.rule "seen" "less" (.string "-262143-01-01 01:00"))
      [Sample.rule "seen" "is" (.string "today")]
    seenContext.validation = .lenient ∧
      Calendar.offsetInRange seenContext.timezone.seconds = true ∧ rules.Sound ∧
      rules.overflows Sample.registry seenContext seenQuery = false ∧
      ∃ r, rules.apply Sample.registry seenContext seenQuery = .ok r ∧ r.clauses.length = 1 ∧
        ∀ v, r.Binds v → v.inRange = true := by
  intro rules
  have hsound : rules.Sound := seenRules_sound _ _ _
  obtain ⟨-, hbinds, hsucceeds, -, -⟩ :=
    rules.apply_inRange Sample.registry seenContext seenQuery rfl (by decide) hsound
  have hfit : rules.overflows Sample.registry seenContext seenQuery = false := by decide +kernel
  have hrun : (rules.apply Sample.registry seenContext seenQuery).toOption.map
      (fun r => r.clauses.length) = some 1 := by
    decide +kernel
  obtain ⟨r, h⟩ := hsucceeds _ _ rfl
  rw [h] at hrun
  refine ⟨rfl, by decide, hsound, hfit, r, h, Option.some.inj hrun, fun v hv => ?_⟩
  refine (hbinds hfit r h v hv).resolve_left ?_
  rintro ⟨clause, hclause, -⟩
  cases hclause

/-- Contacts seen at the first local time that there is: the rule is neither refused nor left out,
and the instant that it binds is an hour before the first representable one. -/
theorem first_local_time_escapes :
    let rules := seenRules .and (Sample.rule "seen" "equal" (.string "-262143-01-01 00:00")) []
    rules.Sound ∧ seenContext.validation = .lenient ∧
      Calendar.offsetInRange seenContext.timezone.seconds = true ∧
      rules.overflows Sample.registry seenContext seenQuery = true ∧
      (rules.apply Sample.registry seenContext seenQuery).toOption.map (fun r =>
        r.clauses.flatMap fun clause => (predicateTests clause.predicate).flatMap Test.values) =
          some [.instant ⟨Date.first.dayNumber * 86400 - 3600, 0⟩] ∧
      Value.inRange (.instant ⟨Date.first.dayNumber * 86400 - 3600, 0⟩) = false :=
  ⟨seenRules_sound _ _ _, rfl, by decide, by decide +kernel, by decide +kernel, by decide +kernel⟩

end Listing
end Winnow
