import Winnow.Proofs.Compile.Applied
import Winnow.Proofs.Compile.Outcome
import Winnow.Proofs.Compile.Transparency
import Winnow.Proofs.Condition.Ranges
import Winnow.Proofs.Engine.Related
import Winnow.Proofs.Filter.Accepted

/-!
# Operators that a rule can use

Every operator has a value that it accepts on a column of every type
(`question_probe`), and every field and relation that a filter names is reached,
so whether an operator that a filter lists can be used is a matter of the filter
alone (`Filter.Reaches`).  Two kinds of filters list operators that no rule can
use: those that count rows, as only comparisons apply to a number of rows, and
those with several operands of one value, as only the first of them is found
(`operators_complete`).
-/

namespace Winnow

open Engine

/-! ## Definitions -/

/-- Whether local clocks are less than a day from UTC, and it is one of the years 1 to 9000. -/
structure CompileContext.IsCurrent (context : CompileContext) : Prop where
  offset : Calendar.offsetInRange context.timezone.seconds = true
  after : Date.yearStart 1 ≤ context.now.date.dayNumber
  before : context.now.date.dayNumber < Date.yearStart 9001

/-- A value that is read for a column type. -/
def ColumnType.probe (type : ColumnType) : Json :=
  if type.isTemporal then .string "2024-03-10" else .integer 1

/-- A value that an operator accepts on a column of a type. -/
def Operator.probe (type : ColumnType) : Operator → Json
  | .between | .notBetween => .array [type.probe, type.probe]
  | .in_ | .notIn => .array [type.probe]
  | .is => .string "today"
  | .was => .string "yesterday"
  | _ => type.probe

/-- A tree of one rule. -/
def Rule.Tree.ofLeaf (condition : Connective) (leaf : Rule.Leaf) : Rule.Tree :=
  ⟨condition, [.leaf leaf], List.cons_ne_nil _ _⟩

/-- Whether the relations that a filter names exist on an entity. -/
def Filter.RelatesTo (f : Filter) (registry : Registry) (e : Entity) : Prop :=
  ∀ relation, f.relation = some relation ∨ f.countable = some relation →
    ∃ found, registry.related e relation = .ok found

/-- Whether rules with an operator can get through to the column: only comparisons do where rows are
counted, and an operand that is found by its value must accept the operator where there are
operands. -/
def Filter.Reaches (f : Filter) (operator : Operator) : Prop :=
  (f.countable ≠ none → operator.comparison?.isSome = true) ∧
    (f.kind.usesOperands = true → ∃ operand : Operand, f.operand? operand.value = some operand ∧
      Filter.allows operator operand.filter = true)

/-! ## Dates of today -/

namespace CompileContext

variable {context : CompileContext} (h : context.IsCurrent)

include h

theorem localToday_bounds : Date.firstMonday.dayNumber + 1000 < context.localToday.dayNumber ∧
    context.localToday.dayNumber + 1000 < Date.last.dayNumber := by
  have hafter := h.after
  have hbefore := h.before
  have hoffset := h.offset
  have hfirst : Date.firstMonday.dayNumber + 2000 < Date.yearStart 1 := by decide
  have hlast : Date.yearStart 9001 + 2000 < Date.last.dayNumber := by decide
  have htoday : context.localToday.dayNumber =
      (context.now.seconds + context.timezone.seconds) / 86400 := rfl
  have hnow : context.now.date.dayNumber = context.now.seconds / 86400 := rfl
  unfold Calendar.offsetInRange at hoffset
  simp only [Bool.and_eq_true, decide_eq_true_eq] at hoffset
  omega

theorem addDays?_today (days : Int) (hdays : -1000 ≤ days ∧ days ≤ 1000) :
    context.localToday.addDays? days = some (context.localToday.shift days) := by
  obtain ⟨hlow, hhigh⟩ := localToday_bounds h
  have hmonday : Date.firstMonday.dayNumber = Date.first.dayNumber + 4 := rfl
  have hshift : (context.localToday.shift days).dayNumber = context.localToday.dayNumber + days := rfl
  unfold Date.addDays? Date.check
  rw [if_pos ((Date.inRange_iff _).mpr ⟨by omega, by omega⟩)]

end CompileContext

/-! ## Questions -/

namespace Operation

variable {op : Operation}

theorem ofJson?_probe (type : ColumnType) :
    (Value.ofJson? type.probe type).any (fun v => !v.isNull) = true := by
  cases type <;> decide +kernel

theorem clockReading?_probe (op : Operation) : op.clockReading? op.type.probe = none := by
  unfold clockReading?
  split
  next htype =>
    rw [htype]
    decide +kernel
  next => rfl

theorem scalar_probe (op : Operation) : ∃ v, op.scalar op.type.probe = .ok v := by
  have hreading := clockReading?_probe op
  have hread := ofJson?_probe op.type
  unfold clockReading? at hreading
  unfold scalar
  simp only [hreading]
  cases hfound : Value.ofJson? op.type.probe op.type with
  | none =>
    rw [hfound] at hread
    cases hread
  | some v =>
    rw [hfound] at hread
    cases v <;> first | exact ⟨_, rfl⟩ | cases hread

theorem listValues_probe (type : ColumnType) : listValues (.array [type.probe]) = [type.probe] := by
  cases type <;> rfl

/-- A value that can be read for the type of the column can be asked to be equal to. -/
theorem equalityQuestion_of_scalar {v : Value} (h : op.scalar op.value = .ok v) (negated : Bool) :
    ∃ asks, op.equalityQuestion negated = .ok asks := by
  unfold equalityQuestion
  split
  · exact ⟨_, rfl⟩
  · split
    next date hdate =>
      rw [localDay_of_dateOnly? hdate]
      exact ⟨_, rfl⟩
    next =>
      rw [h]
      exact ⟨_, rfl⟩

theorem comparisonQuestion_of_scalar {v : Value} (h : op.scalar op.value = .ok v)
    (comparison : Comparison) : ∃ asks, op.comparisonQuestion comparison = .ok asks := by
  obtain ⟨bound, hbound⟩ := reads_of_scalar h
  exact ⟨_, comparisonQuestion_of_reads rfl hbound comparison⟩

theorem membershipQuestion_probe (hvalue : op.value = .array [op.type.probe]) (negated : Bool) :
    ∃ asks, op.membershipQuestion negated = .ok (some asks) := by
  obtain ⟨v, hv⟩ := scalar_probe op
  unfold membershipQuestion
  rw [hvalue, listValues_probe, List.mapM_cons, hv]
  exact ⟨_, rfl⟩

theorem patternQuestion_probe (hvalue : op.value = op.type.probe) (before after : String)
    (negated : Bool) : ∃ asks, op.patternQuestion before after negated = .ok asks := by
  have htext : ∃ s, Value.textOf? op.type.probe = some s := by
    cases op.type <;> exact ⟨_, rfl⟩
  obtain ⟨s, hs⟩ := htext
  unfold patternQuestion text
  rw [hvalue, hs]
  exact ⟨_, rfl⟩

theorem attempts_subset (items : List Json) : op.attempts items ⊆ items := by
  induction items with
  | nil => exact List.Subset.refl []
  | cons json rest ih =>
    unfold attempts
    refine List.cons_subset_cons json ?_
    split
    · exact ih
    · exact List.nil_subset rest

theorem mem_operands_of_mem_scalars {json : Json} (h : json ∈ op.scalars) : json ∈ op.operands := by
  unfold scalars at h
  split at h
  · cases h
  · exact attempts_subset op.operands h

/-- Only the operators of windows have one. -/
theorem operator_of_window? {w : Window} (h : op.window? = some w) :
    op.operator = .is ∨ op.operator = .was := by
  obtain ⟨-, hsame⟩ := Option.filter_eq_some_iff.mp h
  rw [← eq_of_beq hsame]
  unfold Window.operator
  split
  · exact .inr rfl
  · exact .inl rfl

theorem days?_probe (hcurrent : op.context.IsCurrent) {w : Window}
    (hw : w = .today ∨ w = .yesterday) :
    ∃ start finish, w.days? op.context.localToday = some (start, finish) ∧
      op.context.localToday.dayNumber - 1 ≤ start.dayNumber ∧
      op.context.localToday.dayNumber ≤ finish.dayNumber := by
  have hadd := CompileContext.addDays?_today hcurrent
  have hshift : ∀ days, (op.context.localToday.shift days).dayNumber =
      op.context.localToday.dayNumber + days := fun _ => rfl
  rcases hw with rfl | rfl
  · refine ⟨op.context.localToday.shift 0, op.context.localToday.shift 1, ?_, ?_, ?_⟩
    · unfold Window.days?
      simp only [hadd 0 (by omega), hadd 1 (by omega), bind, Option.bind]
    · rw [hshift]
      omega
    · rw [hshift]
      omega
  · refine ⟨op.context.localToday.shift (-1), op.context.localToday.shift 0, ?_, ?_, ?_⟩
    · unfold Window.days?
      simp only [hadd (-1) (by omega), hadd 0 (by omega), bind, Option.bind]
    · rw [hshift]
      omega
    · rw [hshift]
      omega

section
variable (hvalue : op.value = op.operator.probe op.type)

include hvalue

/-- The window of the value made for an operator is today, or yesterday. -/
theorem window?_probe (hoperator : op.operator = .is ∨ op.operator = .was) :
    op.window? = some (if op.operator = .is then .today else .yesterday) := by
  unfold window?
  rw [hvalue]
  rcases hoperator with hoperator | hoperator <;> rw [hoperator]
  · show Option.filter (fun w => w.operator == .is)
      ((Json.string "today").text?.bind Window.ofToken?) = some .today
    decide +kernel
  · show Option.filter (fun w => w.operator == .was)
      ((Json.string "yesterday").text?.bind Window.ofToken?) = some .yesterday
    decide +kernel

/-- The data values that an operator reads are those made for the type. -/
theorem eq_probe_of_mem_operands {json : Json} (h : json ∈ op.operands) :
    json = op.type.probe := by
  have hcases : op.operands = [op.type.probe] ∨ op.operands = [op.type.probe, op.type.probe] ∨
      op.operands = [] := by
    unfold operands
    rw [hvalue]
    cases op.operator
    case in_ | notIn => exact .inl (listValues_probe op.type)
    case between | notBetween => exact .inr (.inl rfl)
    case equal | notEqual | less | lessOrEqual | greater | greaterOrEqual => exact .inl rfl
    all_goals exact .inr (.inr rfl)
  rcases hcases with hone | htwo | hnone
  · simpa [hone] using h
  · simpa [htwo] using h
  · rw [hnone] at h
    cases h

variable (hcurrent : op.context.IsCurrent)

include hcurrent

theorem windowQuestion_probe (hoperator : op.operator = .is ∨ op.operator = .was) :
    ∃ asks, op.windowQuestion = .ok asks := by
  have hw := window?_probe hvalue hoperator
  obtain ⟨start, finish, hdays, -⟩ := days?_probe hcurrent
    (w := if op.operator = .is then .today else .yesterday) (by split <;> simp)
  unfold window? at hw
  unfold windowQuestion
  rw [hw]
  simp only [hdays]
  exact ⟨_, rfl⟩

/-- Every operator asks something of the values of a column, given the value made for it. -/
theorem question_probe : ∃ asks, op.question = .ok (some asks) := by
  obtain ⟨v, hv⟩ := scalar_probe op
  have hmap : ∀ {x : Except CompileError Question}, (∃ asks, x = .ok asks) →
      ∃ asks, x.map some = .ok (some asks) := by
    rintro x ⟨asks, rfl⟩
    exact ⟨asks, rfl⟩
  have hwindow := windowQuestion_probe hvalue hcurrent
  unfold question
  cases hoperator : op.operator <;> rw [hoperator] at hvalue hwindow <;>
    simp only [Operator.probe] at hvalue
  case equal | notEqual =>
    rw [← hvalue] at hv
    exact hmap (equalityQuestion_of_scalar hv _)
  case less | lessOrEqual | greater | greaterOrEqual =>
    rw [← hvalue] at hv
    exact hmap (comparisonQuestion_of_scalar hv _)
  case between | notBetween => exact hmap (rangeQuestion_of_scalars hvalue hv hv _)
  case in_ | notIn => exact membershipQuestion_probe hvalue _
  case beginsWith | notBeginsWith | contains | notContains | endsWith | notEndsWith =>
    exact hmap (patternQuestion_probe hvalue _ _ _)
  case is => exact hmap (hwindow (.inl rfl))
  case was => exact hmap (hwindow (.inr rfl))
  all_goals exact ⟨_, rfl⟩

/-- No value made for an operator takes it beyond the representable dates. -/
theorem overflows_probe : op.overflows = false := by
  obtain ⟨hlow, hhigh⟩ := CompileContext.localToday_bounds hcurrent
  have hmonday : Date.firstMonday.dayNumber = Date.first.dayNumber + 4 := rfl
  rw [← Bool.not_eq_true, overflows_iff hcurrent.offset]
  rintro (⟨json, hjson, reading, hreading, -⟩ | ⟨w, hw, hescapes⟩)
  · rw [eq_probe_of_mem_operands hvalue (mem_operands_of_mem_scalars hjson),
      clockReading?_probe op] at hreading
    cases hreading
  · have hprobe := window?_probe hvalue (operator_of_window? hw)
    obtain ⟨start, finish, hdays, hstart, hfinish⟩ := days?_probe hcurrent (w := w) (by
      rw [Option.some.inj (hw.symm.trans hprobe)]
      split <;> simp)
    rcases hescapes with hbefore | hafter | ⟨-, -, start', finish', hdays', hfirst⟩
    · omega
    · omega
    · cases hdays.symm.trans hdays'
      rcases hfirst with rfl | rfl <;> omega

end

end Operation

/-! ## Fields -/

namespace Compile

section
variable {env : Environment} {f : Filter} {operator : Operator}

/-- A path that can be walked leads to one column, whatever the value. -/
theorem relatedOperation_ok {relations : List String} {q : Query} {target : Entity}
    (h : env.registry.walk q.entity relations = .ok target) (field column : String) :
    ∃ reached declared, ∀ value, relatedOperation env f operator value field column relations q =
      .ok (columnOperation env reached declared f operator value field) := by
  induction relations generalizing q with
  | nil => exact ⟨_, _, fun _ => rfl⟩
  | cons relation rest ih =>
    unfold Registry.walk at h
    cases hrelated : env.registry.related q.entity relation with
    | error error =>
      rw [hrelated] at h
      cases h
    | ok found =>
      rw [hrelated] at h
      have hquery := Query.relationQuery_eq q env.registry relation
      rw [hrelated] at hquery
      obtain ⟨reached, declared, hrest⟩ := ih (q := q.inner found.2) h
      refine ⟨reached, declared, fun value => ?_⟩
      unfold relatedOperation
      rw [hquery]
      exact hrest value

theorem fieldOperation_ok (hjoins : env.joins = none) (q : Query) (f : Filter)
    (operator : Operator) (field : String) :
    ∃ column declared, ∀ value, fieldOperation env q field f operator value =
      .ok (columnOperation env column declared f operator value field) := by
  unfold fieldOperation
  cases f.dateTimeParts with
  | some parts => exact ⟨_, _, fun _ => rfl⟩
  | none =>
    simp only
    split
    · exact ⟨_, _, fun _ => rfl⟩
    · have hnone : joinOf? env q (env.registry.splitPath q.entity field) = none := by
        unfold joinOf?
        rw [hjoins]
        split <;> rfl
      obtain ⟨target, htarget⟩ :=
        env.registry.walk_relationSegments q.entity (Text.split '.' field)
      simp only [hnone]
      exact relatedOperation_ok htarget field _

/-- Whatever the field and the operator, there is a value that they accept. -/
theorem fieldPredicate_probe (hjoins : env.joins = none) (hcurrent : env.context.IsCurrent)
    (q : Query) (f : Filter) (operator : Operator) (field : String) :
    ∃ value op p, fieldOperation env q field f operator value = .ok op ∧ op.overflows = false ∧
      fieldPredicate env q field f operator value = .ok (some p) := by
  obtain ⟨column, declared, hop⟩ := fieldOperation_ok hjoins q f operator field
  let op := columnOperation env column declared f operator
    (operator.probe (declared.getD f.kind.columnType)) field
  have hvalue : op.value = op.operator.probe op.type := rfl
  obtain ⟨asks, hasks⟩ := Operation.question_probe hvalue hcurrent
  obtain ⟨p, hp, -⟩ := Operation.predicate_of_question hasks
  obtain ⟨asked, hasked⟩ := fieldPredicate_applies (hop _)
  exact ⟨_, op, asked p, hop _, Operation.overflows_probe hvalue hcurrent, by rw [hasked, hp]; rfl⟩

end

/-! ## Rules -/

theorem contains_of_allows {f : Filter} {operator : Operator} (h : Filter.allows operator f = true)
    (huses : f.kind.usesOperands = false) : f.kind.operators.contains operator = true := by
  cases f with
  | mk id label kind =>
    unfold Filter.allows at h
    have hown := (Bool.and_eq_true_iff.mp h).1
    cases kind <;> first | exact hown | cases huses

/-- Whether there is a value that a usable rule accepts, without leaving the representable dates. -/
def Resolved.HasValue (env : Environment) (r : Resolved) (q : Query) : Prop :=
  ∃ value p, resolvedPredicate env r value q = .ok (some p) ∧
    ∀ op, resolvedOperation? env r value q = some op → op.overflows = false

section
variable {env : Environment} {r : Resolved} {q : Query} (hjoins : env.joins = none)
  (hcurrent : env.context.IsCurrent)

include hjoins hcurrent

theorem hasValue_hasMany (hkind : r.filter.kind = .hasMany) {relation : String}
    (hrelation : r.filter.relation = some relation) {link : Link} {related : Query}
    (hquery : q.relationQuery env.registry relation = .ok (link, related)) : r.HasValue env q := by
  obtain ⟨value, op, p, hop, hoverflows, hp⟩ :=
    fieldPredicate_probe hjoins hcurrent related r.target r.operator r.field
  refine ⟨value, .related link (related.addClause .and p) false, ?_, fun op' hop' => ?_⟩
  · unfold resolvedPredicate hasManyPredicate
    rw [if_pos (beq_iff_eq.mpr hkind), hrelation]
    simp only [hquery, hp, bind, Except.bind]
    rfl
  · unfold resolvedOperation? at hop'
    rw [hkind, hrelation] at hop'
    simp only [hquery, hop, bind, Option.bind, Except.toOption, beq_self_eq_true, if_true] at hop'
    cases hop'
    exact hoverflows

theorem hasValue_field (hmany : r.filter.kind ≠ .hasMany) (hcountable : r.filter.countable = none)
    (htags : r.filter.kind ≠ .tags) : r.HasValue env q := by
  obtain ⟨value, op, p, hop, hoverflows, hp⟩ :=
    fieldPredicate_probe hjoins hcurrent q r.target r.operator r.field
  have hmany' := beq_eq_false_iff_ne.mpr hmany
  have htags' := beq_eq_false_iff_ne.mpr htags
  refine ⟨value, p, ?_, fun op' hop' => ?_⟩
  · unfold resolvedPredicate
    simpa only [hmany', hcountable, htags', Bool.false_eq_true, if_false] using hp
  · unfold resolvedOperation? at hop'
    simp only [hmany', hcountable, htags', hop, Option.isSome_none, Bool.false_eq_true, if_false,
      Except.toOption] at hop'
    cases hop'
    exact hoverflows

omit hjoins in
theorem hasValue_tags (hkind : r.filter.kind = .tags) (hcountable : r.filter.countable = none)
    (hoperator : FilterKind.tags.operators.contains r.operator = true) {relation : String}
    (hrelation : r.filter.relation = some relation) {link : Link} {related : Query}
    (hquery : q.relationQuery env.registry relation = .ok (link, related)) : r.HasValue env q := by
  let key := related.entity.primaryKey
  let type := (related.entity.columnType? key).getD r.filter.kind.columnType
  let op := columnOperation env (related.column key) (related.entity.columnType? key) r.filter .in_
    (Operator.probe type .in_) r.filter.id
  have hvalue : op.value = op.operator.probe op.type := rfl
  obtain ⟨asks, hasks⟩ := Operation.question_probe hvalue hcurrent
  obtain ⟨p, hp, -⟩ := Operation.predicate_of_question hasks
  have hcolumn : columnPredicate env (related.column related.entity.primaryKey)
      (related.entity.columnType? related.entity.primaryKey) r.filter .in_
      (Operator.probe type .in_) r.filter.id = .ok (some p) := hp
  have hoverflows : op.overflows = false := Operation.overflows_probe hvalue hcurrent
  have hpredicate : ∃ p', resolvedPredicate env r (Operator.probe type .in_) q = .ok (some p') := by
    have hcases : r.operator = .in_ ∨ r.operator = .notIn ∨ r.operator = .isNull ∨
        r.operator = .isNotNull := by
      simpa [FilterKind.operators] using hoperator
    unfold resolvedPredicate tagsPredicate listedPredicate
    rw [hkind, hcountable, hrelation]
    simp only [hquery, hcolumn, bind, Except.bind]
    rcases hcases with h | h | h | h <;> rw [h] <;> exact ⟨_, rfl⟩
  obtain ⟨p', hp'⟩ := hpredicate
  refine ⟨Operator.probe type .in_, p', hp', fun op' hop' => ?_⟩
  unfold resolvedOperation? at hop'
  rw [hkind, hcountable, hrelation] at hop'
  simp only [hquery, bind, Option.bind, Except.toOption] at hop'
  change (if r.operator = .in_ ∨ r.operator = .notIn then some op else none) = some op' at hop'
  split at hop'
  · cases hop'
    exact hoverflows
  · cases hop'

omit hjoins hcurrent in
theorem hasValue_count (hmany : r.filter.kind ≠ .hasMany) {relation : String}
    (hcountable : r.filter.countable = some relation) {comparison : Comparison}
    (hcomparison : r.operator.comparison? = some comparison) {link : Link} {related : Query}
    (hquery : q.relationQuery env.registry relation = .ok (link, related)) : r.HasValue env q := by
  have hmany' := beq_eq_false_iff_ne.mpr hmany
  refine ⟨.integer 1, .counted link related comparison 1, ?_, fun op hop => ?_⟩
  · unfold resolvedPredicate countPredicate
    simp only [hmany', hcountable, hcomparison, Bool.false_eq_true, if_false]
    have hone : Value.ofJson? (.integer 1) .integer = some (.integer 1) := by decide +kernel
    rw [hone]
    simp only [hquery, bind, Except.bind]
  · unfold resolvedOperation? at hop
    simp only [hmany', hcountable, Option.isSome_some, Bool.false_eq_true, if_false, if_true] at hop
    cases hop

/-- A rule on a consistent filter has a value that it accepts, unless it counts rows by an operator
that is no comparison. -/
theorem hasValue_of_check (hcheck : r.filter.check = .ok ())
    (hrelates : r.filter.RelatesTo env.registry q.entity)
    (hallowed : Filter.allows r.operator r.filter = true)
    (hcount : r.filter.countable ≠ none → r.operator.comparison?.isSome = true) :
    r.HasValue env q := by
  obtain ⟨hself, -, -⟩ := (Filter.check_ok_iff r.filter).mp hcheck
  obtain ⟨-, hmany, htags, -, -⟩ := (Filter.checkSelf_ok_iff r.filter).mp hself
  have hquery : ∀ relation, r.filter.relation = some relation ∨ r.filter.countable = some relation →
      ∃ link related, q.relationQuery env.registry relation = .ok (link, related) := by
    intro relation hrelation
    obtain ⟨⟨found, related⟩, hfound⟩ := hrelates relation hrelation
    rw [Query.relationQuery_eq, hfound]
    exact ⟨_, _, rfl⟩
  by_cases hkind : r.filter.kind = .hasMany
  · obtain ⟨relation, hrelation⟩ := Option.ne_none_iff_exists'.mp (hmany hkind)
    obtain ⟨link, related, hlink⟩ := hquery relation (.inl hrelation)
    exact hasValue_hasMany hjoins hcurrent hkind hrelation hlink
  · cases hcountable : r.filter.countable with
    | some relation =>
      obtain ⟨comparison, hcomparison⟩ := Option.isSome_iff_exists.mp
        (hcount (by rw [hcountable]; exact Option.some_ne_none relation))
      obtain ⟨link, related, hlink⟩ := hquery relation (.inr hcountable)
      exact hasValue_count hkind hcountable hcomparison hlink
    | none =>
      by_cases hkind' : r.filter.kind = .tags
      · obtain ⟨relation, hrelation⟩ := Option.ne_none_iff_exists'.mp (htags hkind')
        obtain ⟨link, related, hlink⟩ := hquery relation (.inl hrelation)
        have hoperator := contains_of_allows hallowed (by rw [hkind']; rfl)
        rw [hkind'] at hoperator
        exact hasValue_tags hcurrent hkind' hcountable hoperator hrelation hlink
      · exact hasValue_field hjoins hcurrent hkind hcountable hkind'

end

/-! ## Trees of one rule -/

section
variable {filters : FilterSet} {env : Environment} (hstrict : env.context.validation = .strict)

include hstrict

/-- Strictly a tree of one rule compiles as the rule does. -/
theorem compileTree_ofLeaf (condition : Connective) (leaf : Rule.Leaf) (q : Query) :
    compileTree filters env (.ofLeaf condition leaf) q = compileLeaf filters env leaf condition q := by
  show compileNodes filters env condition q [.leaf leaf] = _
  have hvalidation : env.context.isStrict = true := by
    unfold CompileContext.isStrict
    rw [hstrict]
    rfl
  rw [compileNodes_single, compileNode]
  cases compileLeaf filters env leaf condition q with
  | ok r => rfl
  | error error => simp only [admit?, hvalidation, if_true]

end

theorem mem_treeOperations_ofLeaf {filters : FilterSet} {env : Environment} {condition : Connective}
    {leaf : Rule.Leaf} {q : Query} {op : Operation}
    (h : op ∈ treeOperations filters env (.ofLeaf condition leaf) q) :
    leafOperation? filters env q leaf = some op := by
  change op ∈ nodesOperations filters env condition q [.leaf leaf] at h
  unfold nodesOperations nodeOperations at h
  rcases List.mem_append.mp h with h | h
  · exact Option.mem_toList.mp h
  · split at h
    · cases h
    · cases h

/-! ## Completeness -/

theorem ofToken?_token (operator : Operator) :
    Operator.ofToken? operator.token = some operator := by
  cases operator <;> decide +kernel

section
variable {env : Environment} {filters : FilterSet} (haccepted : filters.Accepted)
  (hplain : filters.Plain) {f : Filter} (hf : f ∈ filters.filters) {operator : Operator}

include haccepted hplain hf

/-- A rule on a filter that compiles gets through to the column. -/
theorem reaches_of_compileLeaf {operand : Option String} {value : Json} {connective : Connective}
    {q compiled : Query}
    (h : compileLeaf filters env ⟨f.id, operator.token, operand, value⟩ connective q =
      .ok compiled) : f.Reaches operator := by
  obtain ⟨r, hr, h⟩ := bind_eq_ok h
  have hcustom := custom_none_of_plain hplain hr
  obtain ⟨hget, -, htoken, hoperand, hallowed⟩ := (resolve_ok_iff filters _ r).mp hr
  cases (haccepted.get? f hf).symm.trans hget
  cases (ofToken?_token operator).symm.trans htoken
  obtain ⟨hself, -, -⟩ := (Filter.check_ok_iff r.filter).mp (haccepted.check r.filter hf)
  obtain ⟨hnonempty, -, -, -, hempty⟩ := (Filter.checkSelf_ok_iff r.filter).mp hself
  constructor
  · intro hcountable
    have hmany : r.filter.kind ≠ .hasMany := by
      intro hkind
      exact hnonempty (by rw [hkind]; rfl) (hempty hcountable)
    obtain ⟨relation, hrelation⟩ := Option.ne_none_iff_exists'.mp hcountable
    rw [compileResolved_eq env r _ connective q hcustom] at h
    obtain ⟨p, hp, -⟩ := map_eq_ok h
    unfold resolvedPredicate at hp
    rw [if_neg (by simpa using hmany), hrelation] at hp
    unfold countPredicate at hp
    cases hcomparison : r.operator.comparison? with
    | some comparison => rfl
    | none =>
      rw [hcomparison] at hp
      cases hp
  · intro huses
    unfold resolveOperand at hoperand
    rw [if_pos huses] at hoperand
    split at hoperand
    next found hfound =>
      obtain ⟨value, -, hvalue⟩ := Option.bind_eq_some_iff.mp hfound
      have hsame := List.find?_some (show r.filter.operands.find? (fun operand : Operand =>
        operand.value == value) = some found from hvalue)
      rw [← Except.ok.inj hoperand] at hallowed
      exact ⟨found, eq_of_beq hsame ▸ hvalue, (Bool.and_eq_true_iff.mp hallowed).2⟩
    next => cases hoperand

end

/-- Strictly, without joins, and in the years 1 to 9000: in an accepted set without custom
predicates, whose filters name existing relations only, a visible filter and an operator that it
lists have an operand, if operands are used, and a value for which the tree of this one rule compiles
by appending exactly one clause, and without leaving the representable dates, just when the operator
is a comparison if rows are counted and some operand that is found by its value accepts it if there
are operands. -/
theorem operators_complete (env : Environment) (hjoins : env.joins = none)
    (hstrict : env.context.validation = .strict) (hcurrent : env.context.IsCurrent)
    {declared : List Filter} {filters : FilterSet} (haccepted : FilterSet.ofList declared = .ok filters)
    (hplain : filters.Plain) (q : Query)
    (hrelates : ∀ f ∈ filters.filters, f.RelatesTo env.registry q.entity) {f : Filter}
    (hf : f ∈ filters.visible) {operator : Operator} (hoperator : operator ∈ f.operators)
    (condition : Connective) :
    let tree (operand : Option String) (value : Json) : Rule.Tree :=
      .ofLeaf condition ⟨f.id, operator.token, operand, value⟩
    (∃ operand value p,
      compileTree filters env (tree operand value) q = .ok (q.addClause condition p) ∧
        ∀ op ∈ treeOperations filters env (tree operand value) q, op.overflows = false) ↔
      f.Reaches operator := by
  intro tree
  obtain ⟨hset, -⟩ := FilterSet.ofList_accepted haccepted
  obtain ⟨hmember, hauthorized⟩ := List.mem_filter.mp hf
  have hallowed : Filter.allows operator f = true := (List.mem_filter.mp hoperator).2
  have hget := hset.get? f hmember
  constructor
  · rintro ⟨operand, value, p, hcompiled, -⟩
    rw [compileTree_ofLeaf hstrict] at hcompiled
    exact reaches_of_compileLeaf hset hplain hmember hcompiled
  · rintro ⟨hcount, hoperand⟩
    -- the rule is usable, with an operand where operands are used
    have hresolved : ∃ name operand, ∀ value,
        resolve filters ⟨f.id, operator.token, name, value⟩ = .ok ⟨f, operator, operand⟩ := by
      cases huses : f.kind.usesOperands with
      | false =>
        exact ⟨none, none, resolve_direct (ofToken?_token operator) hget hauthorized huses hallowed⟩
      | true =>
        obtain ⟨operand, hfound, haccepts⟩ := hoperand huses
        exact ⟨some operand.value, some operand, resolve_operand (ofToken?_token operator) hget
          hauthorized huses hfound (Bool.and_eq_true_iff.mpr ⟨hallowed, haccepts⟩)⟩
    obtain ⟨name, operand, hr⟩ := hresolved
    have hcustom := custom_none_of_plain hplain (hr .null)
    obtain ⟨value, p, hp, hoverflows⟩ := hasValue_of_check (r := ⟨f, operator, operand⟩) hjoins
      hcurrent (hset.check f hmember) (hrelates f hmember) hallowed hcount
    refine ⟨name, value, p, ?_, fun op hop => ?_⟩
    · rw [compileTree_ofLeaf hstrict]
      unfold compileLeaf
      rw [hr value]
      refine (compileResolved_eq env _ _ condition q hcustom).trans ?_
      rw [hp]
      rfl
    · have hleaf := mem_treeOperations_ofLeaf hop
      unfold leafOperation? at hleaf
      rw [hr value] at hleaf
      simp only [Except.toOption, bind, Option.bind, hcustom, Option.isSome_none,
        Bool.false_eq_true, if_false] at hleaf
      exact hoverflows op hleaf

/-- No rule with an operator that does not get through compiles. -/
theorem refused_of_not_reaches {env : Environment} (hstrict : env.context.validation = .strict)
    {f : Filter} (hcheck : f.check = .ok ()) (hplain : (⟨[f]⟩ : FilterSet).Plain)
    {operator : Operator} (hreaches : ¬f.Reaches operator) (q : Query) (condition : Connective)
    (operand : Option String) (value : Json) :
    (compileTree ⟨[f]⟩ env (.ofLeaf condition ⟨f.id, operator.token, operand, value⟩) q).isOk =
      false := by
  obtain ⟨haccepted, -⟩ := FilterSet.ofList_accepted (FilterSet.ofList_singleton hcheck)
  rw [compileTree_ofLeaf hstrict]
  cases hcompiled : compileLeaf ⟨[f]⟩ env ⟨f.id, operator.token, operand, value⟩ condition q with
  | error error => rfl
  | ok r =>
    exact absurd (reaches_of_compileLeaf haccepted hplain (List.mem_singleton.mpr rfl) hcompiled)
      hreaches

/-- The name of a contact. -/
def sampleName : Filter := Filter.plain .text "name" "Name"

/-- The number of companies of a contact, as a filter on text. -/
def sampleCount : Filter := { Filter.plain .text "crew" "Crew" with countable := some "company" }

/-- A choice between two filters with the same value. -/
def sampleTwice : Filter :=
  { Filter.plain .operand "about" "About" with
    operands := [⟨"name", "Number", Filter.plain .number "name" "Name"⟩,
      ⟨"name", "Text", sampleName⟩] }

theorem plain_of_none {f : Filter} (hcustom : f.custom = none)
    (hoperands : ∀ operand ∈ f.operands, operand.filter.custom = none) :
    (⟨[f]⟩ : FilterSet).Plain := by
  intro g hg
  rw [List.mem_singleton.mp hg]
  refine ⟨fun custom h => ?_, fun operand hoperand custom h => ?_⟩
  · rw [hcustom] at h
    cases h
  · rw [hoperands operand hoperand] at h
    cases h

/-- Some text is contained in the names of contacts. -/
theorem operators_complete_sample :
    let env : Environment := ⟨Sample.registry, Sample.context.strict, none⟩
    let q := Query.ofEntity Sample.contact
    FilterSet.ofList [sampleName] = .ok ⟨[sampleName]⟩ ∧ Operator.contains ∈ sampleName.operators ∧
      ∃ operand value p,
        compileTree ⟨[sampleName]⟩ env (.ofLeaf .and ⟨"name", "contains", operand, value⟩) q =
          .ok (q.addClause .and p) := by
  intro env q
  have haccepted : FilterSet.ofList [sampleName] = .ok ⟨[sampleName]⟩ :=
    FilterSet.ofList_singleton rfl
  have hoperator : Operator.contains ∈ sampleName.operators := by decide +kernel
  have hrelates : ∀ f ∈ [sampleName], f.RelatesTo env.registry q.entity := by
    intro f hf relation h
    rw [List.mem_singleton.mp hf] at h
    rcases h with h | h <;> cases h
  have hreaches : sampleName.Reaches .contains :=
    ⟨fun h => absurd rfl h, fun h => absurd h Bool.false_ne_true⟩
  obtain ⟨operand, value, p, hcompiled, -⟩ := (operators_complete env rfl rfl
    ⟨by decide, by decide, by decide⟩ haccepted (plain_of_none rfl (List.forall_mem_nil _)) q
    hrelates (List.mem_singleton.mpr rfl) hoperator .and).mpr hreaches
  exact ⟨haccepted, hoperator, operand, value, p, hcompiled⟩

/-- A text filter that counts rows lists an operator on texts, and so does a choice between a number
and a text with the same value, but no rule with that operator compiles, whatever its operand and its
value. -/
theorem listed_operators_refused :
    let env : Environment := ⟨Sample.registry, Sample.context.strict, none⟩
    ∀ f ∈ [sampleCount, sampleTwice],
      FilterSet.ofList [f] = .ok ⟨[f]⟩ ∧ Operator.contains ∈ f.operators ∧
        ∀ operand value,
          (compileTree ⟨[f]⟩ env (.ofLeaf .and ⟨f.id, Operator.contains.token, operand, value⟩)
            (Query.ofEntity Sample.contact)).isOk = false := by
  intro env
  refine List.forall_mem_cons.mpr ⟨?_, List.forall_mem_cons.mpr ⟨?_, List.forall_mem_nil _⟩⟩
  · have hreaches : ¬sampleCount.Reaches .contains := fun h =>
      absurd (h.1 (Option.some_ne_none _)) Bool.false_ne_true
    exact ⟨FilterSet.ofList_singleton rfl, by decide +kernel,
      refused_of_not_reaches rfl rfl (plain_of_none rfl (List.forall_mem_nil _)) hreaches _ _⟩
  · have hreaches : ¬sampleTwice.Reaches .contains := by
      rintro ⟨-, hoperand⟩
      obtain ⟨operand, hfound, haccepts⟩ := hoperand rfl
      have hvalue : operand.value = "name" := by
        have hmember : operand ∈ sampleTwice.operands := List.mem_of_find?_eq_some hfound
        have hvalues : ∀ o ∈ sampleTwice.operands, o.value = "name" := by decide
        exact hvalues operand hmember
      rw [hvalue] at hfound
      cases hfound
      exact absurd haccepts (by decide +kernel)
    refine ⟨FilterSet.ofList_singleton rfl, by decide +kernel,
      refused_of_not_reaches rfl rfl (plain_of_none rfl ?_) hreaches _ _⟩
    exact List.forall_mem_cons.mpr ⟨rfl, List.forall_mem_cons.mpr ⟨rfl, List.forall_mem_nil _⟩⟩

end Compile
end Winnow
