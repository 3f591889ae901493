import Winnow.Compile.Leaf
import Winnow.Proofs.Calendar.Midnight
import Winnow.Proofs.Compile.Overflow
import Winnow.Proofs.Compile.Typed
import Winnow.Proofs.Engine.Kleene
import Winnow.Proofs.Sample
import Winnow.Proofs.Success

/-!
# Ranges and their bounds

A range asks whether a value is at least the lower bound and at most the upper
one, and its negation whether it is below the one or above the other.  A bound
is a value, or a plain date that stands for its local day, and the operators
that take one bound and those that take two read it alike, unless a plain date
stands beside a time: then the range takes the plain date for its midnight in
UTC (`rangeQuestion_of_reads`).
-/

namespace Winnow

open Engine

/-! ## Closed ranges -/

namespace Value

theorem isBetween_inside (low high v : Value) :
    isBetween low high false v = (satisfies .ge low v && satisfies .le high v) := by
  unfold isBetween satisfies
  cases v.compare? low with
  | none => rfl
  | some a =>
    cases v.compare? high with
    | none => exact (Bool.and_false _).symm
    | some b => exact Bool.bne_false _

theorem isBetween_outside {low high v : Value}
    (h : (v.compare? low).isSome = (v.compare? high).isSome) :
    isBetween low high true v = (satisfies .lt low v || satisfies .gt high v) := by
  unfold isBetween satisfies
  cases hlow : v.compare? low with
  | none =>
    rw [hlow] at h
    rw [Option.isSome_eq_false_iff.mp h.symm |> Option.isNone_iff_eq_none.mp]
    rfl
  | some a =>
    rw [hlow] at h
    obtain ⟨b, hhigh⟩ := Option.isSome_iff_exists.mp h.symm
    rw [hhigh]
    cases a <;> cases b <;> rfl

/-- Values of one type compare with the same values when both are numbers, and when none is. -/
theorem compare?_isSome_alike {type : ColumnType} {low high : Value}
    (hlow : low.isOf type = true) (hhigh : high.isOf type = true) (hnan : low.isNaN = high.isNaN)
    (v : Value) : (v.compare? low).isSome = (v.compare? high).isSome := by
  cases hlow' : low.isNaN with
  | false => exact compare?_isSome_congr hlow hhigh hlow' (hnan.symm.trans hlow') v
  | true => rw [eq_nan_of_isNaN hlow', eq_nan_of_isNaN (hnan.symm.trans hlow')]

end Value

/-! ## Bounds -/

/-- What a bound stands for: a value, or a day from its first instant to the first one after it. -/
inductive RangeBound where
  | point (value : Value)
  | day (start finish : Value)

namespace RangeBound

/-- What a comparison with a bound asks. -/
def question (comparison : Comparison) : RangeBound → Question
  | .point value => Value.satisfies comparison value
  | .day start finish =>
    match comparison with
    | .lt => Value.satisfies .lt start
    | .le => Value.satisfies .lt finish
    | .gt => Value.satisfies .ge finish
    | _ => Value.satisfies .ge start

end RangeBound

namespace Operation

/-- How an operation reads a bound. -/
def Reads (op : Operation) (json : Json) : RangeBound → Prop
  | .point value => op.dateOnly? json = none ∧ op.scalar json = .ok value
  | .day start finish =>
    ∃ date, op.dateOnly? json = some date ∧ op.localDay date = .ok (start, finish)

/-- Whether the bounds of a range are read as operators with one bound read them: none is a plain
date or both are, or the lower one is and local days are those of UTC. -/
def ReadsAlike (op : Operation) (low high : Json) : Prop :=
  (op.dateOnly? low).isSome = (op.dateOnly? high).isSome ∨
    op.dateOnly? high = none ∧ op.context.timezone.seconds = 0

/-- Whether a bound is read as something that is no number. -/
def readsNaN (op : Operation) (json : Json) : Bool :=
  (Value.ofJson? json op.type).any Value.isNaN

/-! ## Reading bounds -/

section
variable {op : Operation} {json : Json}

theorem text?_of_dateOnly? {date : Date} (h : op.dateOnly? json = some date) :
    op.type = .dateTime ∧ ∃ s, json.text? = some s ∧ (Text.trim s).utf8ByteSize = 10 ∧
      Calendar.readDate? (Text.trim s) = some date := by
  unfold dateOnly? at h
  split at h
  next htype =>
    obtain ⟨s, hs, h⟩ := Option.bind_eq_some_iff.mp h
    simp only at h
    split at h
    next hsize => exact ⟨htype, s, hs, hsize, h⟩
    next => cases h
  next => cases h

/-- Where a plain date is read as one instant, that is its midnight in UTC. -/
theorem scalar_of_dateOnly? {date : Date} (h : op.dateOnly? json = some date) :
    op.scalar json = .ok (.instant (Instant.startOf date)) := by
  obtain ⟨htype, s, hs, hsize, hdate⟩ := text?_of_dateOnly? h
  obtain ⟨hreading, hinstant⟩ := Calendar.readInstant?_of_short hdate (Nat.le_of_eq hsize)
  have hvalue : Value.ofJson? json .dateTime = some (.instant (Instant.startOf date)) := by
    cases json with
    | string t =>
      cases hs
      unfold Value.ofJson?
      simp [Json.text?, hinstant]
    | _ => cases hs
  unfold scalar
  simp only [if_pos htype, hs, Option.bind_some, hreading]
  rw [htype, hvalue]

/-- A value that is read is no number when the data value is none for the type. -/
theorem isNaN_of_scalar {v : Value} (h : op.scalar json = .ok v) : v.isNaN = op.readsNaN json := by
  have hinstant : ∀ w, Value.ofJson? json .dateTime = some w → w.isNaN = false := by
    intro w hw
    rcases Value.ofJson?_isOf hw with rfl | hof
    · rfl
    · cases w <;> first | rfl | cases hof
  unfold scalar at h
  unfold readsNaN
  simp only at h
  split at h
  next reading hreading =>
    cases h
    split at hreading
    next htype =>
      rw [htype]
      cases hread : Value.ofJson? json .dateTime with
      | none => rfl
      | some w => exact (hinstant w hread).symm
    next => cases hreading
  next =>
    split at h
    · cases h
    · cases h
    next hread =>
      cases h
      rw [hread]
      rfl

section
variable (other : Operation) (htype : other.type = op.type) (hcontext : other.context = op.context)

include htype

theorem dateOnly?_congr (json : Json) : other.dateOnly? json = op.dateOnly? json := by
  unfold dateOnly?
  rw [htype]

include hcontext

theorem scalar_congr {v : Value} (h : op.scalar json = .ok v) : other.scalar json = .ok v := by
  unfold scalar at h ⊢
  rw [htype, hcontext]
  simp only at h ⊢
  split at h
  · exact h
  · split at h
    · cases h
    · cases h
    · exact h

/-- What a bound is read as depends on the column type and the context only. -/
theorem Reads.congr {bound : RangeBound} (h : op.Reads json bound) : other.Reads json bound := by
  have hdate := dateOnly?_congr other htype json
  cases bound with
  | point v => exact ⟨hdate.trans h.1, scalar_congr other htype hcontext h.2⟩
  | day start finish =>
    obtain ⟨date, hsome, hday⟩ := h
    rw [localDay_of_dateOnly? hsome, ← hcontext] at hday
    exact ⟨date, hdate.trans hsome, (localDay_of_dateOnly? (hdate.trans hsome)).trans hday⟩

end

theorem reads_of_scalar {v : Value} (h : op.scalar json = .ok v) :
    ∃ bound, op.Reads json bound := by
  cases hdate : op.dateOnly? json with
  | none => exact ⟨.point v, hdate, h⟩
  | some date => exact ⟨.day _ _, date, hdate, localDay_of_dateOnly? hdate⟩

theorem comparisonQuestion_of_reads (hvalue : op.value = json) {bound : RangeBound}
    (h : op.Reads json bound) (comparison : Comparison) :
    op.comparisonQuestion comparison = .ok (bound.question comparison) := by
  unfold comparisonQuestion
  rw [hvalue]
  cases bound with
  | point v =>
    obtain ⟨hdate, hscalar⟩ := h
    rw [hdate]
    simp only [hscalar, bind, Except.bind]
    rfl
  | day start finish =>
    obtain ⟨date, hdate, hday⟩ := h
    rw [hdate]
    simp only [hday, bind, Except.bind]
    cases comparison <;> rfl

end

/-! ## Ranges -/

section
variable {op : Operation} {low high : Json}

/-- Local days of UTC begin at its midnights. -/
theorem dayStart_of_utc {zone : Offset} (h : zone.seconds = 0) (date : Date) :
    zone.dayStart date = Instant.startOf date := by
  rw [Offset.dayStart_eq, h]
  unfold Instant.startOf Instant.ofDateClock Clock.midnight
  simp

/-- Between two values that are read is at least the one and at most the other; outside is below the
one or above the other, if both are numbers or none is. -/
theorem isBetween_of_scalars {negated : Bool}
    (hnan : negated = true → op.readsNaN low = op.readsNaN high) {v w : Value}
    (hv : op.scalar low = .ok v) (hw : op.scalar high = .ok w) (u : Value) :
    Value.isBetween v w negated u =
      if negated then Value.satisfies .lt v u || Value.satisfies .gt w u
      else Value.satisfies .ge v u && Value.satisfies .le w u := by
  cases negated with
  | false => exact Value.isBetween_inside v w u
  | true =>
    have hsame : v.isNaN = w.isNaN :=
      (isNaN_of_scalar hv).trans ((hnan rfl).trans (isNaN_of_scalar hw).symm)
    exact Value.isBetween_outside
      (Value.compare?_isSome_alike (scalar_isOf hv) (scalar_isOf hw) hsame u)

variable (hvalue : op.value = .array [low, high])

include hvalue

/-- A range is accepted just when both bounds are read as values. -/
theorem scalars_of_rangeQuestion {negated : Bool} {asks : Question}
    (h : op.rangeQuestion negated = .ok asks) :
    (∃ v, op.scalar low = .ok v) ∧ ∃ v, op.scalar high = .ok v := by
  unfold rangeQuestion at h
  rw [hvalue] at h
  simp only at h
  split at h
  next first last hfirst hlast =>
    exact ⟨⟨_, scalar_of_dateOnly? hfirst⟩, ⟨_, scalar_of_dateOnly? hlast⟩⟩
  next =>
    obtain ⟨v, hv, h⟩ := bind_eq_ok h
    obtain ⟨w, hw, -⟩ := bind_eq_ok h
    exact ⟨⟨v, hv⟩, ⟨w, hw⟩⟩

theorem rangeQuestion_of_scalars {v w : Value} (hlow : op.scalar low = .ok v)
    (hhigh : op.scalar high = .ok w) (negated : Bool) :
    ∃ asks, op.rangeQuestion negated = .ok asks := by
  unfold rangeQuestion
  rw [hvalue]
  simp only
  split
  next first last hfirst hlast =>
    rw [localDay_of_dateOnly? hfirst, localDay_of_dateOnly? hlast]
    exact ⟨_, rfl⟩
  next =>
    rw [hlow, hhigh]
    exact ⟨_, rfl⟩

/-- A range whose bounds are read alike asks for both bounds, and its negation for one of them to
fail. -/
theorem rangeQuestion_of_reads (halike : op.ReadsAlike low high) {first last : RangeBound}
    (hfirst : op.Reads low first) (hlast : op.Reads high last) {negated : Bool}
    (hnan : negated = true → op.readsNaN low = op.readsNaN high) {asks : Question}
    (h : op.rangeQuestion negated = .ok asks) (u : Value) :
    asks u =
      if negated then first.question .lt u || last.question .gt u
      else first.question .ge u && last.question .le u := by
  unfold rangeQuestion at h
  rw [hvalue] at h
  simp only at h
  cases first with
  | point v' =>
    cases last with
    | point w' =>
      rw [hfirst.1, hlast.1] at h
      simp only [hfirst.2, hlast.2, bind, Except.bind] at h
      cases h
      exact isBetween_of_scalars hnan hfirst.2 hlast.2 u
    | day start finish =>
      obtain ⟨date, hdate, -⟩ := hlast
      unfold ReadsAlike at halike
      rw [hfirst.1, hdate] at halike
      rcases halike with hsome | ⟨hnone, -⟩ <;> contradiction
  | day start finish =>
    obtain ⟨date, hdate, hday⟩ := hfirst
    rw [localDay_of_dateOnly? hdate] at hday
    cases hday
    cases last with
    | point w =>
      -- with local days of UTC the midnight that the range takes is where the day begins
      obtain ⟨hnone, hscalar⟩ := hlast
      have hutc : op.context.timezone.seconds = 0 := by
        rcases halike with hsome | ⟨-, hutc⟩
        · rw [hdate, hnone] at hsome
          cases hsome
        · exact hutc
      rw [hdate, hnone] at h
      simp only [scalar_of_dateOnly? hdate, hscalar, bind, Except.bind] at h
      cases h
      rw [dayStart_of_utc hutc]
      exact isBetween_of_scalars hnan (scalar_of_dateOnly? hdate) hscalar u
    | day start finish =>
      obtain ⟨date', hdate', hday'⟩ := hlast
      rw [hdate, hdate'] at h
      simp only [localDay_of_dateOnly? hdate, hday', bind, Except.bind] at h
      cases h
      cases negated <;> rfl

end

/-! ## Predicates -/

section
variable {op : Operation}

theorem question_of_predicate {p : Predicate} (h : op.predicate = .ok (some p)) :
    ∃ asks, op.question = .ok (some asks) ∧ Asks op.column p asks := by
  have hparallel := op.predicate_asks
  rw [h] at hparallel
  generalize op.question = found at hparallel ⊢
  cases hparallel with
  | bound hasks => exact ⟨_, rfl, hasks⟩

theorem predicate_of_question {asks : Question} (h : op.question = .ok (some asks)) :
    ∃ p, op.predicate = .ok (some p) ∧ Asks op.column p asks := by
  have hparallel := op.predicate_asks
  rw [h] at hparallel
  generalize op.predicate = found at hparallel ⊢
  cases hparallel with
  | bound hasks => exact ⟨_, rfl, hasks⟩

/-- An operator with one bound reads it as a range of the same column would. -/
theorem Reads.predicate {json : Json} {bound : RangeBound} (h : op.Reads json bound)
    (other : Operation) (htype : other.type = op.type) (hcontext : other.context = op.context)
    (hvalue : other.value = json) (comparison : Comparison)
    (hquestion : other.question = (other.comparisonQuestion comparison).map some) :
    ∃ p, other.predicate = .ok (some p) ∧ Asks other.column p (bound.question comparison) := by
  rw [comparisonQuestion_of_reads hvalue (h.congr other htype hcontext)] at hquestion
  exact predicate_of_question hquestion

end

end Operation

namespace Condition

/-! ## Conjunctions of bounds -/

/-- Whenever a range is accepted, so are its negation and the operators that take one of its bounds.
If its bounds are read alike, the range holds exactly when the value is at least the lower bound and
at most the upper one; its negation holds exactly when the value is below the one or above the
other, if both bounds are numbers or none is. -/
theorem ranges_conjoin (env : Environment) (filter : Filter) (declared : Option ColumnType)
    (column : Column) (field : String) (low high : Json) (inside : Predicate)
    (hbetween : Compile.columnPredicate env column declared filter .between (.array [low, high])
      field = .ok (some inside)) :
    let range : Operation := ⟨column, declared.getD filter.kind.columnType, .between,
      .array [low, high], field, env.context⟩
    let accepts (operator : Operator) (value : Json) (p : Predicate) : Prop :=
      Compile.columnPredicate env column declared filter operator value field = .ok (some p)
    ∃ outside atLeast atMost below above,
      accepts .notBetween (.array [low, high]) outside ∧
      accepts .greaterOrEqual low atLeast ∧ accepts .lessOrEqual high atMost ∧
      accepts .less low below ∧ accepts .greater high above ∧
      (range.ReadsAlike low high → ∀ db frame,
        predicateHolds db frame inside =
          (predicateHolds db frame atLeast && predicateHolds db frame atMost) ∧
        (range.readsNaN low = range.readsNaN high →
          predicateHolds db frame outside =
            (predicateHolds db frame below || predicateHolds db frame above))) := by
  intro range accepts
  let op (operator : Operator) (value : Json) : Operation :=
    ⟨column, declared.getD filter.kind.columnType, operator, value, field, env.context⟩
  have hrange : range.predicate = .ok (some inside) := hbetween
  obtain ⟨found, hfound, hinside⟩ := Operation.question_of_predicate hrange
  obtain ⟨insideAsks, hinsideAsks, heq⟩ := map_eq_ok hfound
  cases heq
  have hvalue : range.value = .array [low, high] := rfl
  obtain ⟨⟨v, hv⟩, ⟨w, hw⟩⟩ := Operation.scalars_of_rangeQuestion hvalue hinsideAsks
  obtain ⟨first, hfirst⟩ := Operation.reads_of_scalar hv
  obtain ⟨last, hlast⟩ := Operation.reads_of_scalar hw
  let notRange := op .notBetween (.array [low, high])
  have htype : notRange.type = range.type := rfl
  have hnotValue : notRange.value = .array [low, high] := rfl
  have hnotV := Operation.scalar_congr notRange htype rfl hv
  have hnotW := Operation.scalar_congr notRange htype rfl hw
  obtain ⟨outsideAsks, houtsideAsks⟩ :=
    Operation.rangeQuestion_of_scalars hnotValue hnotV hnotW true
  have houtsideQuestion : notRange.question = .ok (some outsideAsks) := by
    show (notRange.rangeQuestion true).map some = _
    rw [houtsideAsks]
    rfl
  obtain ⟨outside, houtside, houtsideHolds⟩ := Operation.predicate_of_question houtsideQuestion
  obtain ⟨atLeast, hatLeast, hatLeastHolds⟩ :=
    hfirst.predicate (op .greaterOrEqual low) rfl rfl rfl .ge rfl
  obtain ⟨atMost, hatMost, hatMostHolds⟩ :=
    hlast.predicate (op .lessOrEqual high) rfl rfl rfl .le rfl
  obtain ⟨below, hbelow, hbelowHolds⟩ := hfirst.predicate (op .less low) rfl rfl rfl .lt rfl
  obtain ⟨above, habove, haboveHolds⟩ := hlast.predicate (op .greater high) rfl rfl rfl .gt rfl
  refine ⟨outside, atLeast, atMost, below, above, houtside, hatLeast, hatMost, hbelow, habove,
    fun halike db frame => ⟨?_, fun hnan => ?_⟩⟩
  · rw [hinside db frame, hatLeastHolds db frame, hatMostHolds db frame]
    exact Operation.rangeQuestion_of_reads hvalue halike hfirst hlast
      (fun h => absurd h Bool.false_ne_true) hinsideAsks _
  · rw [houtsideHolds db frame, hbelowHolds db frame, haboveHolds db frame]
    exact Operation.rangeQuestion_of_reads hnotValue halike
      (Operation.Reads.congr notRange htype rfl hfirst)
      (Operation.Reads.congr notRange htype rfl hlast) (fun _ => hnan) houtsideAsks _

/-- A local time and an absolute one bound the same instants, two hours to the east, as one range
and as two comparisons. -/
theorem ranges_conjoin_sample :
    let env : Environment := ⟨Sample.registry, { now := ⟨0, 0⟩, timezone := ⟨7200⟩ }, none⟩
    let frame : Frame := [("contacts", some [("seen", .instant ⟨1710064800, 0⟩)])]
    let low : Json := .string "2024-03-09 12:00"
    let high : Json := .string "2024-03-10T10:00:00Z"
    let accepts (operator : Operator) (value : Json) (p : Predicate) : Prop :=
      Compile.columnPredicate env (.field "contacts" "seen") (some .dateTime)
        (Filter.plain .dateTime "seen" "Seen") operator value "seen" = .ok (some p)
    ∃ inside atLeast atMost, accepts .between (.array [low, high]) inside ∧
      accepts .greaterOrEqual low atLeast ∧ accepts .lessOrEqual high atMost ∧
      predicateHolds Sample.dataset frame inside =
        (predicateHolds Sample.dataset frame atLeast &&
          predicateHolds Sample.dataset frame atMost) := by
  intro env frame low high accepts
  have hsome : (Compile.columnPredicate env (.field "contacts" "seen") (some .dateTime)
      (Filter.plain .dateTime "seen" "Seen") .between (.array [low, high])
      "seen").toOption.join.isSome = true := by
    decide +kernel
  obtain ⟨inside, hinside⟩ := Option.isSome_iff_exists.mp hsome
  have hbetween : accepts .between (.array [low, high]) inside :=
    ok_of_toOption (Option.join_eq_some_iff.mp hinside)
  obtain ⟨_, atLeast, atMost, _, _, _, hatLeast, hatMost, _, _, hholds⟩ := ranges_conjoin env
    (Filter.plain .dateTime "seen" "Seen") (some .dateTime) (.field "contacts" "seen") "seen" low
    high inside hbetween
  exact ⟨inside, atLeast, atMost, hbetween, hatLeast, hatMost,
    (hholds (.inl (by decide +kernel)) Sample.dataset frame).1⟩

/-- Ten in the morning is at least noon of the day before and at most the day itself, but no range
with these bounds holds it; and seven is above five, but not outside a range from no number on. -/
theorem range_misses_bounds :
    let env : Environment := ⟨Sample.registry, { now := ⟨0, 0⟩ }, none⟩
    let frame : Frame :=
      [("contacts", some [("seen", .instant ⟨1710064800, 0⟩), ("score", .decimal (.ofInt 7))])]
    let holds (type : ColumnType) (name : String) (operator : Operator) (value : Json) :
        Option Bool :=
      (Compile.columnPredicate env (.field "contacts" name) (some type)
        (Filter.plain .dateTime name name) operator value name).toOption.join.map
          (predicateHolds Sample.dataset frame)
    (holds .dateTime "seen" .between
        (.array [.string "2024-03-09 12:00", .string "2024-03-10"]) = some false ∧
      holds .dateTime "seen" .greaterOrEqual (.string "2024-03-09 12:00") = some true ∧
      holds .dateTime "seen" .lessOrEqual (.string "2024-03-10") = some true) ∧
    holds .decimal "score" .notBetween (.array [.string "NaN", .integer 5]) = some false ∧
      holds .decimal "score" .greater (.integer 5) = some true := by
  decide +kernel

end Condition
end Winnow
