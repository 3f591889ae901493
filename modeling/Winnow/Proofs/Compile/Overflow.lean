import Winnow.Compile.Overflow
import Winnow.Proofs.Calendar.Range
import Winnow.Proofs.Compile.Typed

/-!
# Operators at the ends of the representable dates

The values that the tests of an operator bind are read as single values, are
the bounds of whole local days, or are those of a window (`predicate_yields`).
An operator leaves the representable dates only with a local time that has no
instant, or with a window while today or the first day of the window is at one
of their ends (`overflows_iff`); plain dates never do.  Otherwise all dates
that it yields are representable (`yields_inRange`).  An operator fails only
because its value cannot be used (`predicate_refuses`).
-/

namespace Winnow

/-! ## Definitions -/

/-- Whether the date of a value, if it has one, is representable. -/
def Value.inRange : Value → Bool
  | .date day => day.inRange
  | .instant t => t.date.inRange
  | _ => true

/-- The first representable Monday. -/
def Date.firstMonday : Date := Date.first.shift 4

namespace CompileContext

/-- Whether a stretch of days begins or ends with the first representable date, in a column of
instants and with clocks ahead. -/
def BoundEscapes (context : CompileContext) (type : ColumnType) (days : Option (Date × Date)) :
    Prop :=
  type = .dateTime ∧ 0 < context.timezone.seconds ∧
    ∃ start finish, days = some (start, finish) ∧ (start = Date.first ∨ finish = Date.first)

/-- Whether resolving a window leaves the representable dates: today is not one of them or comes
before their first Monday, or a bound escapes. -/
def WindowEscapes (context : CompileContext) (type : ColumnType) (w : Window) : Prop :=
  context.localToday.dayNumber < Date.firstMonday.dayNumber ∨
    Date.last.dayNumber < context.localToday.dayNumber ∨
      context.BoundEscapes type (w.days? context.localToday)

end CompileContext

namespace Operation

/-- Whether a computation of the operator fails only because the value cannot be used. -/
def Refuses {α : Type} (op : Operation) (x : Except CompileError α) : Prop :=
  ∀ error, x = .error error → ∃ reason, error = op.invalid reason

/-- Whether a value that the operator reads, or its window, escapes. -/
def Escapes (op : Operation) : Prop :=
  (∃ json ∈ op.scalars, ∃ reading, op.clockReading? json = some reading ∧
    op.context.timezone.Escapes reading) ∨
  ∃ w, op.window? = some w ∧ op.context.WindowEscapes op.type w

/-- A bound of a window: a local day, in a column of instants the beginning of it. -/
def dayBound (op : Operation) (day : Date) : Value :=
  if op.type = .dateTime then .instant (op.context.timezone.dayStart day) else .date day

/-- The values that the tests of the operator can bind. -/
inductive Yields (op : Operation) : Value → Prop where
  | scalar {json : Json} {v : Value} : json ∈ op.scalars → op.scalar json = .ok v → op.Yields v
  | day {days : List Date} {day : Date} {low high v : Value} :
      op.wholeDays? = some days → day ∈ days → op.localDay day = .ok (low, high) →
        v = low ∨ v = high → op.Yields v
  | window {w : Window} {start finish : Date} {v : Value} :
      op.window? = some w → w.days? op.context.localToday = some (start, finish) →
        v = op.dayBound start ∨ v = op.dayBound finish → op.Yields v

end Operation

/-! ## Values that are read -/

/-- A value that is read is representable. -/
theorem Value.ofJson?_inRange {json : Json} {type : ColumnType} {v : Value}
    (h : Value.ofJson? json type = some v) : v.inRange = true := by
  unfold Value.ofJson? at h
  split at h
  next =>
    cases h
    rfl
  next =>
    cases type with
    | date =>
      obtain ⟨date, hdate, rfl⟩ := Option.map_eq_some_iff.mp h
      obtain ⟨s, -, hread⟩ := Option.bind_eq_some_iff.mp hdate
      exact Calendar.readDate?_inRange hread
    | dateTime =>
      obtain ⟨t, ht, rfl⟩ := Option.map_eq_some_iff.mp h
      obtain ⟨s, -, hread⟩ := Option.bind_eq_some_iff.mp ht
      exact Calendar.readInstant?_inRange hread
    | json =>
      cases h
      rfl
    | integer | decimal | boolean | text | time =>
      obtain ⟨x, -, rfl⟩ := Option.map_eq_some_iff.mp h
      rfl

/-- The values of global scopes are representable. -/
theorem GlobalScope.test_inRange (scope : GlobalScope) (entity : Entity) (qualifier : String)
    {v : Value} (h : v ∈ (scope.test entity qualifier).values) : v.inRange = true := by
  unfold GlobalScope.test at h
  cases hconstraint : scope.constraint with
  | softDeletes column =>
    rw [hconstraint] at h
    cases h
  | equals column value =>
    rw [hconstraint] at h
    simp only at h
    split at h
    next => cases h
    next =>
      rw [List.mem_singleton.mp h]
      cases hvalue : Value.ofJson? value ((entity.columnType? column).getD .text) with
      | none => rfl
      | some v => exact Value.ofJson?_inRange hvalue

namespace Operation

variable {op : Operation}

/-! ## Where values come from -/

theorem clockReading?_inRange {json : Json} {reading : Instant}
    (h : op.clockReading? json = some reading) : reading.date.inRange = true := by
  unfold clockReading? at h
  split at h
  next =>
    obtain ⟨s, -, hread⟩ := Option.bind_eq_some_iff.mp h
    exact Calendar.readClockReading?_inRange hread
  next => cases h

/-- A single value is the instant of a local time, or read as it is. -/
theorem scalar_cases {json : Json} {v : Value} (h : op.scalar json = .ok v) :
    (∃ reading, op.clockReading? json = some reading ∧
      v = .instant (op.context.timezone.instantOf reading)) ∨ v.inRange = true := by
  unfold scalar at h
  simp only at h
  split at h
  next reading hreading =>
    cases h
    exact .inl ⟨reading, hreading, rfl⟩
  next =>
    split at h
    next => cases h
    next => cases h
    next hread =>
      cases h
      exact .inr (Value.ofJson?_inRange hread)

theorem mem_attempts {items : List Json} {vs : List Value} (h : items.mapM op.scalar = .ok vs)
    {json : Json} (hjson : json ∈ items) : json ∈ op.attempts items := by
  induction items generalizing vs with
  | nil => cases hjson
  | cons first rest ih =>
    rw [List.mapM_cons] at h
    obtain ⟨v, hv, h⟩ := bind_eq_ok h
    obtain ⟨vs, hvs, -⟩ := bind_eq_ok h
    unfold attempts
    rw [hv]
    rcases List.mem_cons.mp hjson with rfl | hjson
    · exact List.mem_cons_self
    · exact List.mem_cons_of_mem _ (ih hvs hjson)

section
variable {p : Predicate} {t : Test} {v : Value}

theorem mem_halfOpen {column : Column} {low high : Value}
    (ht : t ∈ predicateTests (.halfOpen column low high)) (hv : v ∈ t.values) :
    v = low ∨ v = high := by
  have hmem : t ∈ [Test.compare column .ge low, Test.compare column .lt high] := ht
  rcases List.mem_cons.mp hmem with rfl | hmem
  · exact .inl (List.mem_singleton.mp hv)
  · rw [List.mem_singleton.mp hmem] at hv
    exact .inr (List.mem_singleton.mp hv)

theorem mem_interval {negated : Bool} {low high : Value}
    (ht : t ∈ predicateTests (op.interval negated low high)) (hv : v ∈ t.values) :
    v = low ∨ v = high := by
  cases negated with
  | false => exact mem_halfOpen ht hv
  | true =>
    have hmem : t ∈ [Test.compare op.column .lt low, Test.compare op.column .ge high] := ht
    rcases List.mem_cons.mp hmem with rfl | hmem
    · exact .inl (List.mem_singleton.mp hv)
    · rw [List.mem_singleton.mp hmem] at hv
      exact .inr (List.mem_singleton.mp hv)

/-- The value of a comparison is taken as a whole local day or read as a single value. -/
theorem yields_of_comparison (hcomparison : op.operator.comparison?.isSome = true) :
    (∀ day low high, op.dateOnly? op.value = some day → op.localDay day = .ok (low, high) →
      op.Yields low ∧ op.Yields high) ∧
    (op.dateOnly? op.value = none → ∀ v, op.scalar op.value = .ok v → op.Yields v) := by
  have hop : op.operands = [op.value] := by
    unfold operands
    cases hoperator : op.operator <;> rw [hoperator] at hcomparison <;>
      first | rfl | cases hcomparison
  have hlist : ¬(op.operator = .in_ ∨ op.operator = .notIn) := by
    rintro (hoperator | hoperator) <;> rw [hoperator] at hcomparison <;> cases hcomparison
  have hdays : op.wholeDays? = (op.dateOnly? op.value).map fun day => [day] := by
    unfold wholeDays?
    rw [if_neg hlist, hop, List.mapM_cons, List.mapM_nil]
    cases op.dateOnly? op.value <;> rfl
  refine ⟨fun day low high hday hbounds => ?_, fun hnone v hv => ?_⟩
  · rw [hday] at hdays
    exact ⟨.day hdays (List.mem_singleton_self day) hbounds (.inl rfl),
      .day hdays (List.mem_singleton_self day) hbounds (.inr rfl)⟩
  · have hscalar : op.value ∈ op.scalars := by
      rw [hnone] at hdays
      unfold scalars
      rw [hdays, hop]
      exact List.mem_cons_self
    exact .scalar hscalar hv

theorem equality_yields {negated : Bool}
    (hcomparison : op.operator.comparison?.isSome = true)
    (h : op.equality negated = .ok p) (ht : t ∈ predicateTests p) (hv : v ∈ t.values) :
    op.Yields v := by
  obtain ⟨hdays, hscalars⟩ := yields_of_comparison hcomparison
  unfold equality at h
  split at h
  next =>
    cases h
    cases List.mem_singleton.mp ht
    cases hv
  next =>
    split at h
    next day hday =>
      obtain ⟨⟨low, high⟩, hbounds, h⟩ := bind_eq_ok h
      cases h
      obtain ⟨hlow, hhigh⟩ := hdays day low high hday hbounds
      rcases mem_interval ht hv with rfl | rfl
      · exact hlow
      · exact hhigh
    next hnone =>
      obtain ⟨w, hw, h⟩ := bind_eq_ok h
      cases h
      cases List.mem_singleton.mp ht
      rw [List.mem_singleton.mp hv]
      exact hscalars hnone w hw

theorem comparison_yields {comparison : Comparison}
    (hcomparison : op.operator.comparison?.isSome = true)
    (h : op.comparison comparison = .ok p) (ht : t ∈ predicateTests p) (hv : v ∈ t.values) :
    op.Yields v := by
  obtain ⟨hdays, hscalars⟩ := yields_of_comparison hcomparison
  unfold Operation.comparison at h
  split at h
  next day hday =>
    obtain ⟨⟨low, high⟩, hbounds, h⟩ := bind_eq_ok h
    obtain ⟨hlow, hhigh⟩ := hdays day low high hday hbounds
    cases h
    rw [List.mem_singleton.mp ht] at hv
    cases comparison <;> (rw [List.mem_singleton.mp hv]; assumption)
  next hnone =>
    obtain ⟨w, hw, h⟩ := bind_eq_ok h
    cases h
    cases List.mem_singleton.mp ht
    rw [List.mem_singleton.mp hv]
    exact hscalars hnone w hw

/-- Both bounds of a range are operands, and days only together. -/
theorem operands_range (hoperator : op.operator = .between ∨ op.operator = .notBetween)
    {low high : Json} (hvalue : op.value = .array [low, high]) :
    op.operands = [low, high] ∧ op.wholeDays? = [low, high].mapM op.dateOnly? := by
  have hoperands : op.operands = [low, high] := by
    unfold operands
    rw [hvalue]
    rcases hoperator with hoperator | hoperator <;> rw [hoperator]
  have hlist : ¬(op.operator = .in_ ∨ op.operator = .notIn) := by
    rcases hoperator with hoperator | hoperator <;> rw [hoperator] <;> decide
  refine ⟨hoperands, ?_⟩
  unfold wholeDays?
  rw [if_neg hlist, hoperands]

theorem range_yields {negated : Bool}
    (hoperator : op.operator = .between ∨ op.operator = .notBetween)
    (h : op.range negated = .ok p) (ht : t ∈ predicateTests p) (hv : v ∈ t.values) :
    op.Yields v := by
  unfold range at h
  split at h
  next low high hvalue =>
    obtain ⟨hoperands, hdays⟩ := operands_range hoperator hvalue
    split at h
    next first last hfirst hlast =>
      obtain ⟨⟨start, end'⟩, hstart, h⟩ := bind_eq_ok h
      obtain ⟨⟨start', finish⟩, hfinish, h⟩ := bind_eq_ok h
      cases h
      have hdays : op.wholeDays? = some [first, last] := by
        rw [hdays, List.mapM_cons, List.mapM_cons, hfirst, hlast]
        rfl
      rcases mem_interval ht hv with rfl | rfl
      · exact .day hdays (by simp) hstart (.inl rfl)
      · exact .day hdays (by simp) hfinish (.inr rfl)
    next hsome =>
      obtain ⟨a, ha, h⟩ := bind_eq_ok h
      obtain ⟨b, hb, h⟩ := bind_eq_ok h
      cases h
      have hnone : op.wholeDays? = none := by
        rw [hdays]
        cases hfirst : op.dateOnly? low with
        | none => simp [List.mapM_cons, hfirst]
        | some first =>
          cases hlast : op.dateOnly? high with
          | none => simp [List.mapM_cons, hfirst, hlast]
          | some last => exact absurd hlast (hsome first last hfirst)
      have hscalars : op.scalars = op.attempts [low, high] := by
        unfold scalars
        rw [hnone, hoperands]
        rfl
      have hread : [low, high].mapM op.scalar = .ok [a, b] := by
        rw [List.mapM_cons, List.mapM_cons, ha, hb]
        rfl
      cases List.mem_singleton.mp ht
      obtain ⟨json, hjson, hscalar⟩ := of_mem_mapM hread hv
      exact .scalar (hscalars ▸ mem_attempts hread hjson) hscalar
  next => cases h

theorem membership_yields {negated : Bool} (hoperator : op.operator = .in_ ∨ op.operator = .notIn)
    (h : op.membership negated = .ok (some p)) (ht : t ∈ predicateTests p) (hv : v ∈ t.values) :
    op.Yields v := by
  have hop : op.operands = listValues op.value := by
    unfold operands
    rcases hoperator with hoperator | hoperator <;> rw [hoperator]
  have hscalars : op.scalars = op.attempts (listValues op.value) := by
    unfold scalars wholeDays?
    rw [if_pos hoperator, hop]
    rfl
  unfold membership at h
  obtain ⟨values, hvalues, h⟩ := bind_eq_ok h
  split at h
  next => cases h
  next =>
    cases h
    cases List.mem_singleton.mp ht
    obtain ⟨json, hjson, hread⟩ := of_mem_mapM hvalues hv
    refine .scalar ?_ hread
    rw [hscalars]
    exact mem_attempts hvalues hjson

theorem window_yields (h : op.window = .ok p) (ht : t ∈ predicateTests p) (hv : v ∈ t.values) :
    op.Yields v := by
  unfold window at h
  simp only at h
  split at h
  next => cases h
  next w hw =>
    split at h
    next => cases h
    next start finish hdays =>
      have hbounds : p = .halfOpen op.column (op.dayBound start) (op.dayBound finish) := by
        unfold dayBound
        split at h
        next htype =>
          cases h
          rw [if_pos htype, if_pos htype]
        next htype =>
          cases h
          rw [if_neg htype, if_neg htype]
      rw [hbounds] at ht
      exact .window hw hdays (mem_halfOpen ht hv)

/-- The values that the tests of an operator bind are read by themselves, or they are the bounds of
whole local days or of a window. -/
theorem predicate_yields (h : op.predicate = .ok (some p)) (ht : t ∈ predicateTests p)
    (hv : v ∈ t.values) : op.Yields v := by
  have hsome : ∀ {x : Except CompileError Predicate}, x.map some = .ok (some p) → x = .ok p := by
    intro x hx
    obtain ⟨found, hfound, hsame⟩ := map_eq_ok hx
    rw [hfound, Option.some.inj hsame]
  unfold predicate at h
  split at h
  case h_1 hoperator | h_2 hoperator =>
    exact equality_yields (by rw [hoperator]; rfl) (hsome h) ht hv
  case h_3 hoperator | h_4 hoperator | h_5 hoperator | h_6 hoperator =>
    exact comparison_yields (by rw [hoperator]; rfl) (hsome h) ht hv
  case h_7 hoperator => exact range_yields (.inl hoperator) (hsome h) ht hv
  case h_8 hoperator => exact range_yields (.inr hoperator) (hsome h) ht hv
  case h_9 hoperator => exact membership_yields (.inl hoperator) h ht hv
  case h_10 hoperator => exact membership_yields (.inr hoperator) h ht hv
  case h_11 | h_12 | h_13 | h_14 | h_15 | h_16 =>
    obtain ⟨_, -, h⟩ := bind_eq_ok (hsome h)
    cases h
    cases List.mem_singleton.mp ht
    cases hv
  case h_21 | h_22 => exact window_yields (hsome h) ht hv
  all_goals
    cases h
    cases List.mem_singleton.mp ht
    cases hv

end

/-! ## Refusals -/

section
variable {α β : Type}

theorem refuses_ok (a : α) : op.Refuses (.ok a) := by
  intro error h
  cases h

theorem refuses_invalid (reason : String) :
    op.Refuses (.error (op.invalid reason) : Except CompileError α) := by
  intro error h
  cases h
  exact ⟨reason, rfl⟩

theorem Refuses.bind {x : Except CompileError α} (hx : op.Refuses x)
    {f : α → Except CompileError β} (hf : ∀ a, op.Refuses (f a)) : op.Refuses (x >>= f) := by
  cases x with
  | error error =>
    intro other h
    cases h
    exact hx error rfl
  | ok a => exact hf a

theorem Refuses.map {x : Except CompileError α} (hx : op.Refuses x) (f : α → β) :
    op.Refuses (x.map f) := by
  cases x with
  | error error =>
    intro other h
    cases h
    exact hx error rfl
  | ok a => exact refuses_ok (f a)

theorem refuses_mapM {f : α → Except CompileError β} (hf : ∀ a, op.Refuses (f a)) (l : List α) :
    op.Refuses (l.mapM f) := by
  induction l with
  | nil => exact refuses_ok []
  | cons a rest ih =>
    rw [List.mapM_cons]
    exact (hf a).bind fun b => ih.bind fun bs => refuses_ok (b :: bs)

end

theorem scalar_refuses (json : Json) : op.Refuses (op.scalar json) := by
  unfold scalar
  simp only
  split
  next => exact refuses_ok _
  next =>
    split
    next => exact refuses_invalid _
    next => exact refuses_invalid _
    next => exact refuses_ok _

theorem localDay_refuses (day : Date) : op.Refuses (op.localDay day) := by
  unfold localDay
  split
  next => exact refuses_ok _
  next => exact refuses_invalid _

theorem text_refuses : op.Refuses op.text := by
  unfold text
  split
  next => exact refuses_ok _
  next => exact refuses_invalid _

theorem equality_refuses (negated : Bool) : op.Refuses (op.equality negated) := by
  unfold equality
  split
  next => exact refuses_ok _
  next =>
    split
    next => exact (localDay_refuses _).bind fun _ => refuses_ok _
    next => exact (scalar_refuses _).bind fun _ => refuses_ok _

theorem comparison_refuses (comparison : Comparison) :
    op.Refuses (op.comparison comparison) := by
  unfold Operation.comparison
  split
  next => exact (localDay_refuses _).bind fun _ => refuses_ok _
  next => exact (scalar_refuses _).bind fun _ => refuses_ok _

theorem range_refuses (negated : Bool) : op.Refuses (op.range negated) := by
  unfold range
  split
  next =>
    split
    next =>
      exact (localDay_refuses _).bind fun _ => (localDay_refuses _).bind fun _ => refuses_ok _
    next => exact (scalar_refuses _).bind fun _ => (scalar_refuses _).bind fun _ => refuses_ok _
  next => exact refuses_invalid _

theorem membership_refuses (negated : Bool) : op.Refuses (op.membership negated) := by
  refine (refuses_mapM scalar_refuses _).bind fun values => ?_
  split
  next => exact refuses_ok _
  next => exact refuses_ok _

theorem pattern_refuses (before after : String) (negated : Bool) :
    op.Refuses (op.pattern before after negated) :=
  text_refuses.bind fun _ => refuses_ok _

theorem window_refuses : op.Refuses op.window := by
  unfold window
  simp only
  split
  next => exact refuses_invalid _
  next =>
    split
    next => exact refuses_invalid _
    next =>
      split
      next => exact refuses_ok _
      next => exact refuses_ok _

/-- An operator fails only because its value cannot be used. -/
theorem predicate_refuses : op.Refuses op.predicate := by
  unfold predicate
  split
  case h_1 | h_2 => exact (equality_refuses _).map some
  case h_3 | h_4 | h_5 | h_6 => exact (comparison_refuses _).map some
  case h_7 | h_8 => exact (range_refuses _).map some
  case h_9 | h_10 => exact membership_refuses _
  case h_11 | h_12 | h_13 | h_14 | h_15 | h_16 => exact (pattern_refuses _ _ _).map some
  case h_21 | h_22 => exact window_refuses.map some
  all_goals exact refuses_ok _

/-- A window whose days are not representable is refused. -/
theorem predicate_of_unresolved {w : Window} (hw : op.window? = some w)
    (hdays : w.days? op.context.localToday = none) :
    op.predicate = .error (op.invalid "date out of range") := by
  have hwindow : op.window = .error (op.invalid "date out of range") := by
    unfold window? at hw
    unfold window
    rw [hw]
    simp only
    rw [hdays]
  have hoperator : w.operator = op.operator := by
    obtain ⟨-, hsame⟩ := Option.filter_eq_some_iff.mp hw
    exact eq_of_beq hsame
  unfold predicate
  cases w <;> rw [← hoperator] <;> exact congrArg (Except.map some) hwindow

end Operation

/-! ## Dates of bounds -/

theorem Date.weekStart_inRange {date : Date} (h : date.inRange = true) :
    date.weekStart.inRange = true ↔ Date.firstMonday.dayNumber ≤ date.dayNumber := by
  have hfirst : Date.first.dayNumber = -96465292 := by decide
  have hmonday : Date.firstMonday.dayNumber = Date.first.dayNumber + 4 := rfl
  have hweek : date.weekStart.dayNumber = date.dayNumber - (date.dayNumber + 3) % 7 := rfl
  rw [Date.inRange_iff] at h ⊢
  rw [hweek, hmonday]
  omega

namespace CompileContext

variable {context : CompileContext}
  (hoffset : Calendar.offsetInRange context.timezone.seconds = true)

include hoffset

theorem startDates_inRange {days : List Date} (hdays : ∀ day ∈ days, day.inRange = true) :
    (∀ date ∈ context.startDates days, date.inRange = true) ↔
      ¬(0 < context.timezone.seconds ∧ Date.first ∈ days) := by
  unfold startDates
  rw [List.forall_mem_map, not_and]
  constructor
  · intro h hahead hfirst
    exact (Offset.dayStart_inRange hoffset (hdays _ hfirst)).mp (h _ hfirst) ⟨rfl, hahead⟩
  · intro h day hday
    rw [Offset.dayStart_inRange hoffset (hdays day hday)]
    rintro ⟨rfl, hahead⟩
    exact h hahead hday

theorem boundDates_inRange {type : ColumnType} {days : Option (Date × Date)}
    (hdays : ∀ start finish, days = some (start, finish) →
      start.inRange = true ∧ finish.inRange = true) :
    (∀ date ∈ context.boundDates type days, date.inRange = true) ↔
      ¬context.BoundEscapes type days := by
  unfold boundDates BoundEscapes
  cases days with
  | none => simp
  | some pair =>
    obtain ⟨start, finish⟩ := pair
    obtain ⟨hstart, hfinish⟩ := hdays start finish rfl
    have hboth : ∀ day ∈ [start, finish], day.inRange = true := by
      intro day hday
      rcases List.mem_cons.mp hday with rfl | hday
      · exact hstart
      · rw [List.mem_singleton.mp hday]
        exact hfinish
    simp only
    split
    next htype =>
      rw [startDates_inRange hoffset hboth]
      simp [htype, eq_comm]
    next htype => simp [htype]

theorem windowDates_inRange {type : ColumnType} {w : Window} :
    (∀ date ∈ context.windowDates type w, date.inRange = true) ↔
      ¬context.WindowEscapes type w := by
  have hbounds := @boundDates_inRange context hoffset type (w.days? context.localToday)
    fun _ _ => Window.days?_inRange
  unfold windowDates WindowEscapes
  rw [List.forall_mem_cons, List.forall_mem_cons, hbounds, not_or, not_or, ← and_assoc, ← and_assoc]
  refine and_congr_left fun _ => ?_
  constructor
  · rintro ⟨htoday, hweek⟩
    rw [Date.weekStart_inRange htoday] at hweek
    exact ⟨Int.not_lt.mpr hweek, Int.not_lt.mpr ((Date.inRange_iff _).mp htoday).2⟩
  · rintro ⟨hmonday, hlast⟩
    have hfirst : Date.firstMonday.dayNumber = Date.first.dayNumber + 4 := rfl
    have htoday : context.localToday.inRange = true := by
      rw [Date.inRange_iff]
      omega
    exact ⟨htoday, (Date.weekStart_inRange htoday).mpr (Int.not_lt.mp hmonday)⟩

end CompileContext

namespace Operation

variable {op : Operation}

/-- A plain date lies far from both ends of the representable dates. -/
theorem dateOnly?_bounds {json : Json} {day : Date} (h : op.dateOnly? json = some day) :
    Date.first.dayNumber < day.dayNumber ∧ day.dayNumber < Date.last.dayNumber := by
  unfold dateOnly? at h
  split at h
  next =>
    obtain ⟨s, -, h⟩ := Option.bind_eq_some_iff.mp h
    simp only at h
    split at h
    next hsize =>
      obtain ⟨hlow, hhigh⟩ := Calendar.readDate?_of_short h (Nat.le_of_eq hsize)
      have hstart : Date.first.dayNumber < Date.yearStart (-99999) := by decide
      have hend : Date.yearStart 100000 < Date.last.dayNumber := by decide
      omega
    next => cases h
  next => cases h

/-- The local day of a plain date is never out of range. -/
theorem localDay_of_dateOnly? {json : Json} {date : Date} (h : op.dateOnly? json = some date) :
    op.localDay date = .ok (.instant (op.context.timezone.dayStart date),
      .instant (op.context.timezone.dayStart (date.shift 1))) := by
  obtain ⟨hlow, hhigh⟩ := dateOnly?_bounds h
  have hshift : (date.shift 1).dayNumber = date.dayNumber + 1 := rfl
  have hrange : (date.shift 1).inRange = true := (Date.inRange_iff _).mpr ⟨by omega, by omega⟩
  unfold localDay Date.next? Date.addDays? Date.check
  rw [if_pos hrange]

theorem dateOnly?_of_wholeDays {days : List Date} (h : op.wholeDays? = some days) {day : Date}
    (hday : day ∈ days) : ∃ json, op.dateOnly? json = some day := by
  have hmember : ∀ {items : List Json} {days : List Date}, items.mapM op.dateOnly? = some days →
      day ∈ days → ∃ json, op.dateOnly? json = some day := by
    intro items
    induction items with
    | nil =>
      intro days h hday
      cases h
      cases hday
    | cons json items ih =>
      intro days h hday
      rw [List.mapM_cons] at h
      obtain ⟨first, hfirst, h⟩ := Option.bind_eq_some_iff.mp h
      obtain ⟨rest, hrest, h⟩ := Option.bind_eq_some_iff.mp h
      cases h
      rcases List.mem_cons.mp hday with rfl | hday
      · exact ⟨json, hfirst⟩
      · exact ih hrest hday
  unfold wholeDays? at h
  split at h
  next => cases h
  next => exact hmember h hday

section
variable (hoffset : Calendar.offsetInRange op.context.timezone.seconds = true)

include hoffset

/-- Plain dates never escape: the bounds of their local days are representable. -/
theorem dayDates_inRange {days : List Date} (h : op.wholeDays? = some days) {day : Date}
    (hday : day ∈ days) : ∀ date ∈ op.context.dayDates day, date.inRange = true := by
  obtain ⟨json, hjson⟩ := dateOnly?_of_wholeDays h hday
  obtain ⟨hlow, hhigh⟩ := dateOnly?_bounds hjson
  have hrange : day.inRange = true := (Date.inRange_iff _).mpr ⟨by omega, by omega⟩
  unfold CompileContext.dayDates
  cases hnext : day.next? with
  | none => exact List.forall_mem_nil _
  | some next =>
    have hafter := Date.addDays?_inRange hnext
    have hshift : next.dayNumber = day.dayNumber + 1 := by
      unfold Date.next? Date.addDays? Date.check at hnext
      split at hnext
      next =>
        cases hnext
        rfl
      next => cases hnext
    refine (CompileContext.startDates_inRange hoffset ?_).mpr ?_
    · intro d hd
      rcases List.mem_cons.mp hd with rfl | hd
      · exact hrange
      · rw [List.mem_singleton.mp hd]
        exact hafter
    · rintro ⟨-, hfirst⟩
      rcases List.mem_cons.mp hfirst with hfirst | hfirst
      · rw [hfirst] at hlow
        omega
      · rw [← List.mem_singleton.mp hfirst] at hshift
        omega

theorem wholeDays_inRange :
    ((op.wholeDays?.getD []).flatMap op.context.dayDates).any (fun date => !date.inRange) =
      false := by
  rw [List.any_eq_false]
  intro date hdate
  obtain ⟨day, hday, hdate⟩ := List.mem_flatMap.mp hdate
  cases hwhole : op.wholeDays? with
  | none =>
    rw [hwhole] at hday
    cases hday
  | some days =>
    rw [hwhole] at hday
    simp [dayDates_inRange hoffset hwhole hday date hdate]

theorem readings_escape_iff :
    ((op.scalars.filterMap op.clockReading?).map fun reading =>
      (op.context.timezone.instantOf reading).date).any (fun date => !date.inRange) = true ↔
        ∃ json ∈ op.scalars, ∃ reading, op.clockReading? json = some reading ∧
          op.context.timezone.Escapes reading := by
  have hescapes : ∀ {json reading}, op.clockReading? json = some reading →
      ((!(op.context.timezone.instantOf reading).date.inRange) = true ↔
        op.context.timezone.Escapes reading) := by
    intro json reading hreading
    rw [Bool.not_eq_true', ← Bool.not_eq_true,
      Offset.instantOf_inRange hoffset (clockReading?_inRange hreading), not_not]
  rw [List.any_map, List.any_eq_true]
  constructor
  · rintro ⟨reading, hmem, hout⟩
    obtain ⟨json, hjson, hreading⟩ := List.mem_filterMap.mp hmem
    exact ⟨json, hjson, reading, hreading, (hescapes hreading).mp hout⟩
  · rintro ⟨json, hjson, reading, hreading, hout⟩
    exact ⟨reading, List.mem_filterMap.mpr ⟨json, hjson, hreading⟩, (hescapes hreading).mpr hout⟩

theorem window_escapes_iff :
    (op.window?.toList.flatMap (op.context.windowDates op.type)).any
      (fun date => !date.inRange) = true ↔
        ∃ w, op.window? = some w ∧ op.context.WindowEscapes op.type w := by
  cases op.window? with
  | none => simp
  | some w =>
    have hdates := not_congr (@CompileContext.windowDates_inRange _ hoffset op.type w)
    rw [not_not] at hdates
    simp [← hdates]

/-- An operator leaves the representable dates when a value that it reads or its window escapes. -/
theorem overflows_iff : op.overflows = true ↔ op.Escapes := by
  unfold overflows dates Escapes
  rw [List.any_append, List.any_append, wholeDays_inRange hoffset, Bool.false_or, Bool.or_eq_true,
    readings_escape_iff hoffset, window_escapes_iff hoffset]

end

/-- The bounds of a local day are on the dates that taking it arrives at. -/
theorem localDay_inRange {day : Date} {low high : Value} (h : op.localDay day = .ok (low, high))
    (hdates : ∀ date ∈ op.context.dayDates day, date.inRange = true) :
    low.inRange = true ∧ high.inRange = true := by
  unfold localDay at h
  unfold CompileContext.dayDates at hdates
  split at h
  next next hnext =>
    rw [hnext] at hdates
    cases h
    exact ⟨hdates _ List.mem_cons_self, hdates _ (List.mem_cons_of_mem _ List.mem_cons_self)⟩
  next => cases h

/-- The bounds of a window are its days, or on the dates that resolving it arrives at. -/
theorem dayBound_inRange {w : Window} {start finish day : Date}
    (hdays : w.days? op.context.localToday = some (start, finish)) (hday : day ∈ [start, finish])
    (hdates : ∀ date ∈ op.context.windowDates op.type w, date.inRange = true) :
    (op.dayBound day).inRange = true := by
  obtain ⟨hstart, hfinish⟩ := Window.days?_inRange hdays
  unfold dayBound
  split
  next htype =>
    refine hdates _ ?_
    unfold CompileContext.windowDates CompileContext.boundDates
    rw [hdays]
    simp only
    rw [if_pos htype]
    exact List.mem_cons_of_mem _ (List.mem_cons_of_mem _ (List.mem_map_of_mem hday))
  next =>
    rcases List.mem_cons.mp hday with rfl | hday
    · exact hstart
    · rw [List.mem_singleton.mp hday]
      exact hfinish

/-- An operator that does not leave the representable dates binds representable dates only. -/
theorem yields_inRange (h : op.overflows = false) {v : Value} (hv : op.Yields v) :
    v.inRange = true := by
  have hall : ∀ date ∈ op.dates, date.inRange = true := by
    simpa [overflows] using h
  unfold dates at hall
  rw [List.forall_mem_append, List.forall_mem_append] at hall
  obtain ⟨⟨hdays, hscalars⟩, hwindow⟩ := hall
  cases hv with
  | scalar hjson hread =>
    rcases scalar_cases hread with ⟨reading, hreading, rfl⟩ | hrange
    · exact hscalars _ (List.mem_map_of_mem (List.mem_filterMap.mpr ⟨_, hjson, hreading⟩))
    · exact hrange
  | day hwhole hday hbounds hv =>
    rw [hwhole] at hdays
    obtain ⟨hlow, hhigh⟩ := localDay_inRange hbounds fun date hdate =>
      hdays date (List.mem_flatMap.mpr ⟨_, hday, hdate⟩)
    rcases hv with rfl | rfl
    · exact hlow
    · exact hhigh
  | window hw hdays hv =>
    have hdates := fun date hdate =>
      hwindow date (List.mem_flatMap.mpr ⟨_, Option.mem_toList.mpr hw, hdate⟩)
    rcases hv with rfl | rfl
    · exact dayBound_inRange hdays List.mem_cons_self hdates
    · exact dayBound_inRange hdays (List.mem_cons_of_mem _ List.mem_cons_self) hdates

end Operation
end Winnow
