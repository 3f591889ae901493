import Winnow.Proofs.Calendar.Texts
import Winnow.Proofs.Compile.Applied
import Winnow.Proofs.Sample

/-!
# Rules with dates as texts

A column of dates or of instants takes the texts that write a date or an
instant, but also those that only begin with a date (`ColumnType.Takes`).  A
rule can be used exactly when its texts are taken (`date_texts_taken`).
-/

namespace Winnow

open Calendar Text

/-- The texts that a column takes: those that write a date or, in a column of instants, an instant, and
those that begin with a date. -/
def ColumnType.Takes (s : String) : ColumnType → Prop
  | .date => (∃ date, WritesDate date (trimChars s.toList)) ∨
      ∃ date, LeadsWith date (trimChars s.toList)
  | .dateTime => (∃ t, WritesInstant t (trimChars s.toList)) ∨
      ∃ date, LeadsWith date (trimChars s.toList)
  | _ => True

/-! ## Columns -/

section
variable {s : String}

theorem takes_date_iff : ColumnType.date.Takes s ↔ ∃ date, readDate? s = some date := by
  simp only [readDate?_iff, exists_or, exists_and_left]
  unfold ColumnType.Takes
  refine ⟨fun h => ?_, Or.imp_right And.right⟩
  by_cases hwritten : ∃ date, WritesDate date (trimChars s.toList)
  · exact .inl hwritten
  · exact .inr ⟨not_exists.mp hwritten, h.resolve_left hwritten⟩

theorem takes_instant_iff : ColumnType.dateTime.Takes s ↔ ∃ t, readInstant? s = some t := by
  simp only [readInstant?_iff, exists_or, exists_and_left]
  unfold ColumnType.Takes
  constructor
  · intro h
    by_cases hwritten : ∃ t, WritesInstant t (trimChars s.toList)
    · exact .inl hwritten
    · obtain ⟨date, hdate⟩ := h.resolve_left hwritten
      exact .inr ⟨not_exists.mp hwritten, _, date, hdate, rfl⟩
  · rintro (h | ⟨-, -, date, hdate, -⟩)
    · exact .inl h
    · exact .inr ⟨date, hdate⟩

/-- A text is read as a value of a column exactly when the column takes it. -/
theorem Operation.scalar_isOk_iff {op : Operation} (htype : op.type.isTemporal = true) :
    (op.scalar (.string s)).isOk = true ↔ op.type.Takes s := by
  unfold scalar
  cases hop : op.type <;> rw [hop] at htype
  case date =>
    rw [takes_date_iff]
    cases hread : readDate? s <;> simp [Value.ofJson?, Json.text?, hread, Except.isOk, Except.toBool]
  case dateTime =>
    rw [takes_instant_iff]
    cases hreading : readClockReading? s with
    | some reading =>
      have hread := (WritesInstant.reading (readClockReading?_iff.mp hreading)).readInstant?
      simp [Json.text?, hreading, hread, Except.isOk, Except.toBool]
    | none =>
      cases hread : readInstant? s <;>
        simp [Value.ofJson?, Json.text?, hreading, hread, Except.isOk, Except.toBool]
  all_goals cases htype

end

/-! ## Rules -/

namespace Compile

/-- A text is read as the date or the instant that it writes; a text that writes none, as the date that
it begins with.  A rule whose values are texts, on a column of dates or of instants, compiles when the
column takes all of them; a text that the column does not take is reported when rules are strict and
leaves the rule out otherwise. -/
theorem date_texts_taken (s : String) :
    (∀ date, readDate? s = some date ↔ WritesDate date (trimChars s.toList) ∨
      (∀ other, ¬WritesDate other (trimChars s.toList)) ∧ LeadsWith date (trimChars s.toList)) ∧
    (∀ t, readInstant? s = some t ↔ WritesInstant t (trimChars s.toList) ∨
      (∀ other, ¬WritesInstant other (trimChars s.toList)) ∧
        ∃ date, LeadsWith date (trimChars s.toList) ∧ t = .startOf date) ∧
    (∀ t, WritesInterchange t (trimChars s.toList) → ColumnType.date.Takes s) ∧
    ∀ (filters : FilterSet) (env : Environment) (q : Query) (leaf : Rule.Leaf) (op : Operation),
      leafOperation? filters env q leaf = some op → op.type.isTemporal = true →
      (∀ json ∈ op.operands, ∃ text, json = .string text) → .string s ∈ op.operands →
        ((∀ text, .string text ∈ op.operands → op.type.Takes text) →
          ∀ connective, (compileLeaf filters env leaf connective q).isOk = true) ∧
        (¬op.type.Takes s → ∃ reason, ∀ connective,
          compileNode filters env connective q (.leaf leaf) =
            if env.context.isStrict then
              .error (.invalidValue op.field op.operator.token reason)
            else .ok q) := by
  refine ⟨fun _ => readDate?_iff, fun _ => readInstant?_iff, fun _ h => .inr h.leadsWith, ?_⟩
  intro filters env q leaf op hop htype htexts hs
  have hsome : op.operands ≠ [] := List.ne_nil_of_mem hs
  have hnull : .null ∉ op.operands := by
    intro hnull
    obtain ⟨_, h⟩ := htexts _ hnull
    cases h
  obtain ⟨asked, hcompile⟩ := compileLeaf_applies hop
  constructor
  · intro htaken connective
    have hok : op.predicate.isOk = true := by
      rw [Operation.predicate_isOk_iff hsome hnull]
      intro json hjson
      obtain ⟨text, rfl⟩ := htexts json hjson
      exact (Operation.scalar_isOk_iff htype).mpr (htaken text hjson)
    obtain ⟨p, hp⟩ := ok_of_isOk hok
    rw [hcompile, hp]
    rfl
  · intro hrefused
    have hfails : ¬op.predicate.isOk = true := by
      rw [Operation.predicate_isOk_iff hsome hnull]
      exact fun h => hrefused ((Operation.scalar_isOk_iff htype).mp (h _ hs))
    cases hpredicate : op.predicate with
    | ok p =>
      rw [hpredicate] at hfails
      exact absurd rfl hfails
    | error error =>
      obtain ⟨reason, rfl⟩ := op.predicate_refuses error hpredicate
      refine ⟨reason, fun connective => ?_⟩
      unfold compileNode
      rw [hcompile, hpredicate]
      rfl

/-- Visits, on a day and at an instant. -/
def sampleVisit : Entity :=
  ((Entity.make "visit" "visits").addColumn "day" .date).addColumn "seen" .dateTime

/-- Filters on the day and on the instant of a visit. -/
def sampleDates : FilterSet :=
  ⟨[Filter.plain .date "day" "Day", Filter.plain .dateTime "seen" "Seen"]⟩

theorem operation_of_summary {filters : FilterSet} {env : Environment} {q : Query} {leaf : Rule.Leaf}
    {type : ColumnType} {operator : Operator} {text field : String}
    (h : (leafOperation? filters env q leaf).map
      (fun op => (op.type, op.operator, op.field, op.operands.map Json.text?)) =
        some (type, operator, field, [some text])) :
    ∃ op, leafOperation? filters env q leaf = some op ∧ op.type = type ∧ op.operator = operator ∧
      op.field = field ∧ op.operands = [.string text] := by
  obtain ⟨op, hop, heq⟩ := Option.map_eq_some_iff.mp h
  simp only [Prod.mk.injEq] at heq
  obtain ⟨htype, hoperator, hfield, htexts⟩ := heq
  obtain ⟨json, hjson, htext⟩ := List.map_eq_singleton_iff.mp htexts
  cases json with
  | string s =>
    cases htext
    exact ⟨op, hop, htype, hoperator, hfield, hjson⟩
  | _ => cases htext

/-- A day that is not written as one is reported, an instant that is written as one is used. -/
theorem date_texts_taken_sample :
    let env : Environment := ⟨Sample.registry, Sample.context.strict, none⟩
    let q := Query.ofEntity sampleVisit
    let day : Rule.Leaf := ⟨"day", "equal", none, .string "10.03.2024"⟩
    let seen : Rule.Leaf := ⟨"seen", "less", none, .string "2024-03-10T14:30:00+02:00"⟩
    (∃ reason, compileNode sampleDates env .and q (.leaf day) =
      .error (.invalidValue "day" "equal" reason)) ∧
    (compileLeaf sampleDates env seen .and q).isOk = true := by
  intro env q day seen
  have hnone : readDate? "10.03.2024" = none := by decide +kernel
  have hsome : (readInstant? "2024-03-10T14:30:00+02:00").isSome = true := by decide +kernel
  constructor
  · obtain ⟨op, hop, htype, hoperator, hfield, hoperands⟩ := @operation_of_summary sampleDates env q
      day .date .equal "10.03.2024" "day" (by decide +kernel)
    obtain ⟨reason, hrefused⟩ := ((date_texts_taken "10.03.2024").2.2.2 sampleDates env q day op hop
      (by rw [htype]; rfl) (by simp [hoperands]) (by simp [hoperands])).2
      (by rw [htype, takes_date_iff, hnone]; simp)
    rw [hoperator, hfield] at hrefused
    exact ⟨reason, hrefused .and⟩
  · obtain ⟨op, hop, htype, -, -, hoperands⟩ := @operation_of_summary sampleDates env q seen
      .dateTime .less "2024-03-10T14:30:00+02:00" "seen" (by decide +kernel)
    refine ((date_texts_taken "2024-03-10T14:30:00+02:00").2.2.2 sampleDates env q seen op hop
      (by rw [htype]; rfl) (by simp [hoperands]) (by simp [hoperands])).1 (fun text htext => ?_) .and
    rw [hoperands] at htext
    cases List.mem_singleton.mp htext
    rw [htype, takes_instant_iff]
    exact Option.isSome_iff_exists.mp hsome

/-- An impossible time of day and other text after a date are taken, as midnight in UTC, by strict
rules too; and no date is read off a text that writes one with a time of day but without zeros. -/
theorem damaged_texts_taken :
    let env : Environment := ⟨Sample.registry, Sample.context.strict, none⟩
    (∀ s ∈ ["2024-03-10 25:99", "2024-03-10 nonsense"],
      (∀ t, ¬WritesInstant t (trimChars s.toList)) ∧ readDate? s = some ⟨19792⟩ ∧
        readInstant? s = some ⟨1710028800, 0⟩ ∧ ∀ filter ∈ ["day", "seen"],
          (compileLeaf sampleDates env ⟨filter, "equal", none, .string s⟩ .and
            (Query.ofEntity sampleVisit)).isOk = true) ∧
    (∃ t, WritesInstant t (trimChars "2024-3-1 10:00".toList)) ∧
      readDate? "2024-3-1 10:00" = none := by
  intro env
  refine ⟨fun s hs => ⟨?_, ?_⟩, ?_, by decide +kernel⟩
  · have hnone : ∀ s ∈ ["2024-03-10 25:99", "2024-03-10 nonsense"],
        readStrict? (trimChars s.toList) = none ∧ readClockReading? s = none ∧
          readWholeDate? (trimChars s.toList) = none := by
      decide +kernel
    obtain ⟨hstrict, hreading, hwhole⟩ := hnone s hs
    rintro t (h | h | h)
    · cases hstrict.symm.trans (readStrict?_iff.mpr h)
    · cases hreading.symm.trans (readClockReading?_iff.mpr h)
    · cases hwhole.symm.trans (readWholeDate?_iff.mpr h)
  · revert s hs
    decide +kernel
  · have hreading : (readClockReading? "2024-3-1 10:00").isSome = true := by decide +kernel
    obtain ⟨t, ht⟩ := Option.isSome_iff_exists.mp hreading
    exact ⟨t, .reading (readClockReading?_iff.mp ht)⟩

end Compile
end Winnow
