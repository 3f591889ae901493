import Winnow.Proofs.Calendar.Texts
import Winnow.Proofs.Condition.Ranges
import Winnow.Proofs.Sample

/-!
# Ways to write a date

A date can be written with zeros before the month and the day or without, and
with blanks around it.  A column of dates compares with the date itself, however
it is written.  A column of instants takes it as the whole local day when the
text has ten bytes, and as its midnight in UTC otherwise (`spellings_agree`).
-/

namespace Winnow

open Calendar Text Engine

/-- Whether a text has ten bytes without the blanks around it, as a date in plain form has. -/
def HasTenBytes (s : String) : Prop := (trim s).utf8ByteSize = 10

instance (s : String) : Decidable (HasTenBytes s) :=
  inferInstanceAs (Decidable ((trim s).utf8ByteSize = 10))

/-- What an operator with one value asks of a column when the value is a whole day from a start to a
finish. -/
def Operator.onDay (column : Column) (start finish : Value) : Operator → Option Predicate
  | .equal => some (.halfOpen column start finish)
  | .notEqual => some (.outside column start finish)
  | .less => some (.test (.compare column .lt start))
  | .lessOrEqual => some (.test (.compare column .lt finish))
  | .greater => some (.test (.compare column .ge finish))
  | .greaterOrEqual => some (.test (.compare column .ge start))
  | _ => none

/-- A date as a single value of a column. -/
def ColumnType.ofDate (type : ColumnType) (date : Date) : Value :=
  if type = .dateTime then .instant (.startOf date) else .date date

/-! ## Reading -/

namespace Operation

section
variable {op : Operation} {date : Date} {s : String} (h : WritesDate date (trimChars s.toList))

include h

/-- A date on a column of instants is a whole local day when its text has ten bytes. -/
theorem dateOnly?_of_writes : op.dateOnly? (.string s) =
    if op.type = .dateTime ∧ HasTenBytes s then some date else none := by
  have hread : readDate? (trim s) = some date := by
    refine (readDate?_iff).mpr (.inl ?_)
    rwa [trimChars_trim]
  unfold dateOnly? HasTenBytes
  by_cases htype : op.type = .dateTime <;> simp [htype, Json.text?, hread]

/-- Alone a date is read as itself or as its midnight in UTC. -/
theorem scalar_of_writes (htype : op.type.isTemporal = true) :
    op.scalar (.string s) = .ok (op.type.ofDate date) := by
  have hreading := readClockReading?_of_wholeDate (readWholeDate?_iff.mpr h)
  have hdate := (readDate?_iff).mpr (.inl h)
  have hinstant := (WritesInstant.date h).readInstant?
  unfold scalar ColumnType.ofDate
  cases hop : op.type <;> rw [hop] at htype
  case date => simp [Value.ofJson?, Json.text?, hdate]
  case dateTime => simp [Value.ofJson?, Json.text?, hreading, hinstant]
  all_goals cases htype

end

/-! ## Predicates -/

section
variable {op : Operation} {date : Date} {s : String} (htype : op.type.isTemporal = true)
  (hvalue : op.value = .string s) (h : WritesDate date (trimChars s.toList))

include htype hvalue h

theorem equality_of_writes (negated : Bool) : op.equality negated =
    .ok (if op.type = .dateTime ∧ HasTenBytes s then
        op.interval negated (.instant (op.context.timezone.dayStart date))
          (.instant (op.context.timezone.dayStart (date.shift 1)))
      else .test (.compare op.column (if negated then .ne else .eq) (op.type.ofDate date))) := by
  have hdate := @dateOnly?_of_writes op date s h
  have hscalar := @scalar_of_writes op date s h htype
  unfold equality
  rw [hvalue]
  simp only [Json.isNull, Bool.false_eq_true, if_false]
  by_cases hten : op.type = .dateTime ∧ HasTenBytes s
  · rw [if_pos hten] at hdate ⊢
    rw [hdate]
    simp only [localDay_of_dateOnly? hdate, bind, Except.bind]
  · rw [if_neg hten] at hdate ⊢
    rw [hdate]
    simp only [hscalar, bind, Except.bind]

theorem comparison_of_writes (comparison : Comparison) : op.comparison comparison =
    .ok (if op.type = .dateTime ∧ HasTenBytes s then
        .test (match comparison with
          | .lt => .compare op.column .lt (.instant (op.context.timezone.dayStart date))
          | .le => .compare op.column .lt (.instant (op.context.timezone.dayStart (date.shift 1)))
          | .gt => .compare op.column .ge (.instant (op.context.timezone.dayStart (date.shift 1)))
          | _ => .compare op.column .ge (.instant (op.context.timezone.dayStart date)))
      else .test (.compare op.column comparison (op.type.ofDate date))) := by
  have hdate := @dateOnly?_of_writes op date s h
  have hscalar := @scalar_of_writes op date s h htype
  unfold Operation.comparison
  rw [hvalue]
  by_cases hten : op.type = .dateTime ∧ HasTenBytes s
  · rw [if_pos hten] at hdate ⊢
    rw [hdate]
    cases comparison <;> simp only [localDay_of_dateOnly? hdate, bind, Except.bind]
  · rw [if_neg hten] at hdate ⊢
    rw [hdate]
    simp only [hscalar, bind, Except.bind]

/-- An operator with one value asks about the whole local day or compares with a single value. -/
theorem predicate_of_writes {comparison : Comparison}
    (hoperator : op.operator.comparison? = some comparison) : op.predicate =
      .ok (if op.type = .dateTime ∧ HasTenBytes s then
          op.operator.onDay op.column (.instant (op.context.timezone.dayStart date))
            (.instant (op.context.timezone.dayStart (date.shift 1)))
        else some (.test (.compare op.column comparison (op.type.ofDate date)))) := by
  have hequality := equality_of_writes htype hvalue h
  have hcomparison := comparison_of_writes htype hvalue h
  by_cases hten : op.type = .dateTime ∧ HasTenBytes s
  all_goals
    simp only [hten, and_self, if_true, if_false] at hequality hcomparison ⊢
    unfold predicate
    cases hop : op.operator <;> rw [hop] at hoperator <;> cases hoperator <;>
      simp only [hequality, hcomparison] <;> rfl

end

section
variable {op : Operation} {first last : Date} {low high : String}
  (htype : op.type.isTemporal = true) (hvalue : op.value = .array [.string low, .string high])
  (hfirst : WritesDate first (trimChars low.toList)) (hlast : WritesDate last (trimChars high.toList))

include htype hvalue hfirst hlast

/-- A range of two dates is one of whole local days when both have ten bytes. -/
theorem range_of_writes (negated : Bool) : op.range negated =
    .ok (if op.type = .dateTime ∧ HasTenBytes low ∧ HasTenBytes high then
        op.interval negated (.instant (op.context.timezone.dayStart first))
          (.instant (op.context.timezone.dayStart (last.shift 1)))
      else .test (.between op.column (op.type.ofDate first) (op.type.ofDate last) negated)) := by
  have hlow := @dateOnly?_of_writes op first low hfirst
  have hhigh := @dateOnly?_of_writes op last high hlast
  unfold range
  rw [hvalue]
  simp only
  split
  next start finish hstart hfinish =>
    rw [hlow, Option.ite_none_right_eq_some] at hstart
    rw [hhigh, Option.ite_none_right_eq_some] at hfinish
    obtain ⟨⟨htype, hten⟩, hsame⟩ := hstart
    obtain ⟨⟨-, hten'⟩, hsame'⟩ := hfinish
    cases hsame
    cases hsame'
    rw [if_pos ⟨htype, hten⟩] at hlow
    rw [if_pos ⟨htype, hten'⟩] at hhigh
    simp only [localDay_of_dateOnly? hlow, localDay_of_dateOnly? hhigh, htype, hten, hten', and_self,
      if_true, bind, Except.bind]
  next hnot =>
    have hten : ¬(op.type = .dateTime ∧ HasTenBytes low ∧ HasTenBytes high) := by
      rintro ⟨htype, hten, hten'⟩
      exact hnot first last (by rw [hlow, if_pos ⟨htype, hten⟩]) (by rw [hhigh, if_pos ⟨htype, hten'⟩])
    simp only [scalar_of_writes hfirst htype, scalar_of_writes hlast htype, if_neg hten, bind,
      Except.bind]

end

end Operation

/-! ## Two ways to write a date -/

namespace Condition

/-- Two conditionals with the same branches agree when their conditions do, and when the branches do. -/
theorem ite_eq_ite_iff_or {α : Type} {p q r : Prop} [Decidable p] [Decidable q] {x y : α}
    (h : x = y ↔ r) : (if p then x else y) = (if q then x else y) ↔ (p ↔ q) ∨ r := by
  by_cases hp : p <;> by_cases hq : q <;> simp [hp, hq, h, eq_comm (a := y)]

/-- A whole local day is a comparison with its midnight in UTC only before it and from it on, and only
when local days are those of UTC. -/
theorem onDay_eq_compare_iff {operator : Operator} {comparison : Comparison}
    (hoperator : operator.comparison? = some comparison) (column : Column) (zone : Offset)
    (date : Date) :
    operator.onDay column (.instant (zone.dayStart date)) (.instant (zone.dayStart (date.shift 1))) =
        some (.test (.compare column comparison (.instant (.startOf date)))) ↔
      zone.seconds = 0 ∧ (operator = .less ∨ operator = .greaterOrEqual) := by
  have hstart : zone.dayStart date = .startOf date ↔ zone.seconds = 0 := by
    refine ⟨fun h => ?_, fun h => Operation.dayStart_of_utc h date⟩
    have hseconds := congrArg Instant.seconds h
    rw [Offset.dayStart_eq] at hseconds
    change date.dayNumber * Instant.dayLength - zone.seconds =
      date.dayNumber * Instant.dayLength + 0 at hseconds
    omega
  cases operator <;> cases hoperator <;>
    simp [Operator.onDay, Predicate.halfOpen, Predicate.outside, hstart]

section
variable (env : Environment) (filter : Filter) (declared : Option ColumnType)
  (htype : (declared.getD filter.kind.columnType).isTemporal = true) (column : Column)
  (field : String)

include htype

/-- What a column is asked by an operator with one value that is a date. -/
theorem columnPredicate_of_writes {operator : Operator} {comparison : Comparison}
    (hoperator : operator.comparison? = some comparison) {date : Date} {s : String}
    (h : WritesDate date (trimChars s.toList)) :
    Compile.columnPredicate env column declared filter operator (.string s) field =
      .ok (if declared.getD filter.kind.columnType = .dateTime ∧ HasTenBytes s then
          operator.onDay column (.instant (env.context.timezone.dayStart date))
            (.instant (env.context.timezone.dayStart (date.shift 1)))
        else some (.test (.compare column comparison
          ((declared.getD filter.kind.columnType).ofDate date)))) :=
  @Operation.predicate_of_writes ⟨column, declared.getD filter.kind.columnType, operator, .string s,
    field, env.context⟩ date s htype rfl h comparison hoperator

/-- What a column is asked by a range of two dates. -/
theorem columnPredicate_of_writes_range {first last : Date} {low high : String}
    (hfirst : WritesDate first (trimChars low.toList))
    (hlast : WritesDate last (trimChars high.toList)) (negated : Bool) :
    Compile.columnPredicate env column declared filter
        (if negated then .notBetween else .between) (.array [.string low, .string high]) field =
      .ok (some (if declared.getD filter.kind.columnType = .dateTime ∧
            HasTenBytes low ∧ HasTenBytes high then
          (if negated then Predicate.outside else Predicate.halfOpen) column
            (.instant (env.context.timezone.dayStart first))
            (.instant (env.context.timezone.dayStart (last.shift 1)))
        else .test (.between column ((declared.getD filter.kind.columnType).ofDate first)
          ((declared.getD filter.kind.columnType).ofDate last) negated))) := by
  let op : Operation := ⟨column, declared.getD filter.kind.columnType,
    if negated then .notBetween else .between, .array [.string low, .string high], field, env.context⟩
  have hrange := @Operation.range_of_writes op first last low high htype rfl hfirst hlast negated
  have hpredicate : op.predicate = (op.range negated).map some := by
    cases negated <;> rfl
  refine hpredicate.trans ?_
  rw [hrange]
  cases negated <;> rfl

end

/-- On a column of dates or of instants every operator with one or two values can be used with dates,
and on a column of dates it means the same however they are written.  On a column of instants a text of
ten bytes stands for the whole local day and any other for midnight in UTC, and so do the two of a range,
of which both must have ten bytes.  Two ways to write a date therefore mean the same just when they agree
in that, or when local days are those of UTC and the operator is before the day or from it on. -/
theorem spellings_agree (env : Environment) (filter : Filter) (declared : Option ColumnType)
    (htype : (declared.getD filter.kind.columnType).isTemporal = true) (column : Column)
    (field : String) {date last : Date} {a b c d : String}
    (ha : WritesDate date (trimChars a.toList)) (hb : WritesDate date (trimChars b.toList))
    (hc : WritesDate last (trimChars c.toList)) (hd : WritesDate last (trimChars d.toList)) :
    let type := declared.getD filter.kind.columnType
    let zone := env.context.timezone
    let predicate (operator : Operator) (value : Json) :=
      Compile.columnPredicate env column declared filter operator value field
    (∀ operator comparison, operator.comparison? = some comparison →
      predicate operator (.string a) =
        .ok (if type = .dateTime ∧ HasTenBytes a then
            operator.onDay column (.instant (zone.dayStart date))
              (.instant (zone.dayStart (date.shift 1)))
          else some (.test (.compare column comparison (type.ofDate date)))) ∧
      (predicate operator (.string a) = predicate operator (.string b) ↔
        (type = .dateTime → (HasTenBytes a ↔ HasTenBytes b) ∨
          zone.seconds = 0 ∧ (operator = .less ∨ operator = .greaterOrEqual)))) ∧
    ∀ negated,
      let range (low high : String) :=
        predicate (if negated then .notBetween else .between) (.array [.string low, .string high])
      range a c = .ok (some (if type = .dateTime ∧ HasTenBytes a ∧ HasTenBytes c then
          (if negated then Predicate.outside else Predicate.halfOpen) column
            (.instant (zone.dayStart date)) (.instant (zone.dayStart (last.shift 1)))
        else .test (.between column (type.ofDate date) (type.ofDate last) negated))) ∧
      (range a c = range b d ↔ (type = .dateTime →
        (HasTenBytes a ∧ HasTenBytes c ↔ HasTenBytes b ∧ HasTenBytes d))) := by
  dsimp only
  constructor
  · intro operator comparison hoperator
    have hread {s : String} (h : WritesDate date (trimChars s.toList)) :=
      columnPredicate_of_writes env filter declared htype column field hoperator h
    refine ⟨hread ha, ?_⟩
    rw [hread ha, hread hb, Except.ok.injEq]
    by_cases hinstant : declared.getD filter.kind.columnType = .dateTime
    · have hday := onDay_eq_compare_iff hoperator column env.context.timezone date
      rw [show (declared.getD filter.kind.columnType).ofDate date = .instant (.startOf date) from
        if_pos hinstant, ite_eq_ite_iff_or hday]
      simp only [hinstant, true_and, true_implies]
    · simp only [hinstant, false_and, if_false, false_implies]
  · intro negated
    have hread {s t : String} (hs : WritesDate date (trimChars s.toList))
        (ht : WritesDate last (trimChars t.toList)) :=
      columnPredicate_of_writes_range env filter declared htype column field hs ht negated
    have hday {start finish low high : Value} :
        (if negated then Predicate.outside else Predicate.halfOpen) column start finish =
          .test (.between column low high negated) ↔ False := by
      cases negated <;> simp [Predicate.outside, Predicate.halfOpen]
    refine ⟨hread ha hc, ?_⟩
    rw [hread ha hc, hread hb hd, Except.ok.injEq, Option.some.injEq, ite_eq_ite_iff_or hday,
      or_false, and_congr_right_iff]

/-- East of Greenwich too, blanks around a date change nothing; without its zeros a date is another
question, save for what asks whether a day is before another in UTC. -/
theorem spellings_agree_sample :
    let predicate (zone : Offset) (operator : Operator) (value : Json) :=
      Compile.columnPredicate ⟨Sample.registry, { now := ⟨0, 0⟩, timezone := zone }, none⟩
        (.field "contacts" "seen") (some .dateTime) (Filter.plain .dateTime "seen" "Seen") operator
        value "seen"
    predicate ⟨7200⟩ .equal (.string "2024-03-10") = predicate ⟨7200⟩ .equal (.string " 2024-03-10 ") ∧
      predicate ⟨7200⟩ .less (.string "2024-03-10") ≠ predicate ⟨7200⟩ .less (.string "2024-3-10") ∧
      predicate ⟨0⟩ .less (.string "2024-03-10") = predicate ⟨0⟩ .less (.string "2024-3-10") := by
  intro predicate
  have hplain : WritesDate ⟨19792⟩ (trimChars "2024-03-10".toList) :=
    (readWholeDate?_iff).mp (by decide +kernel)
  have hblanks : WritesDate ⟨19792⟩ (trimChars " 2024-03-10 ".toList) :=
    (readWholeDate?_iff).mp (by decide +kernel)
  have hshort : WritesDate ⟨19792⟩ (trimChars "2024-3-10".toList) :=
    (readWholeDate?_iff).mp (by decide +kernel)
  have hagree (zone : Offset) {b : String} (hb : WritesDate ⟨19792⟩ (trimChars b.toList)) :=
    (spellings_agree ⟨Sample.registry, { now := ⟨0, 0⟩, timezone := zone }, none⟩
      (Filter.plain .dateTime "seen" "Seen") (some .dateTime) rfl (.field "contacts" "seen") "seen"
      hplain hb hplain hb).1
  refine ⟨?_, ?_, ?_⟩
  · exact ((hagree ⟨7200⟩ hblanks) .equal .eq rfl).2.mpr fun _ => .inl (by decide +kernel)
  · intro h
    have hsame := ((hagree ⟨7200⟩ hshort) .less .lt rfl).2.mp h rfl
    revert hsame
    decide +kernel
  · exact ((hagree ⟨0⟩ hshort) .less .lt rfl).2.mpr fun _ => .inr ⟨rfl, .inl rfl⟩

/-- Ten in the morning is on its day, but not when the day is written without a zero. -/
theorem unpadded_day_is_midnight :
    let env : Environment := ⟨Sample.registry, { now := ⟨0, 0⟩ }, none⟩
    let frame : Frame := [("contacts", some [("seen", .instant ⟨1710064800, 0⟩)])]
    let holds (s : String) : Option Bool :=
      (Compile.columnPredicate env (.field "contacts" "seen") (some .dateTime)
        (Filter.plain .dateTime "seen" "Seen") .equal (.string s) "seen").toOption.join.map
          (predicateHolds Sample.dataset frame)
    (∀ s ∈ ["2024-03-10", "2024-3-10"], WritesDate ⟨19792⟩ (trimChars s.toList)) ∧
      holds "2024-03-10" = some true ∧ holds "2024-3-10" = some false := by
  intro env frame holds
  have hread : ∀ s ∈ ["2024-03-10", "2024-3-10"],
      readWholeDate? (trimChars s.toList) = some ⟨19792⟩ := by
    decide +kernel
  exact ⟨fun s hs => (readWholeDate?_iff).mp (hread s hs), by decide +kernel, by decide +kernel⟩

end Condition
end Winnow
