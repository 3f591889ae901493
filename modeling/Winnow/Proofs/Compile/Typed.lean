import Winnow.Compile.Operation
import Winnow.Proofs.Query.Closed

/-!
# The values that tests bind

A value is read for the type of a column, or refused: it is null only where the
data value is (`ofJson?_isOf`), and operators refuse null before they compare
with it (`scalar_isOf`).  So every test that an operator leads to binds values
of one type (`Test.Typed`, `predicate_typed`), and none binds null.
-/

namespace Winnow

/-! ## Definitions -/

/-- Whether a value, which is not null, is one of a column type. -/
def Value.isOf (type : ColumnType) : Value → Bool
  | .null => false
  | .bool _ => type == .boolean
  | .integer _ => type == .integer
  | .decimal _ => type == .decimal
  | .text _ => type == .text || type == .time || type == .json
  | .date _ => type == .date
  | .instant _ => type == .dateTime

namespace Test

/-- The values that a test binds besides the text of a pattern. -/
def values : Test → List Value
  | .compare _ _ value => [value]
  | .member _ values _ => values
  | .between _ low high _ => [low, high]
  | .like .. | .null .. | .empty .. => []

/-- Whether the values of a test are of one type. -/
def Typed (t : Test) : Prop := ∃ type, ∀ v ∈ t.values, v.isOf type = true

end Test

/-! ## Values -/

theorem Value.isNull_of_isOf {v : Value} {type : ColumnType} (h : v.isOf type = true) :
    v.isNull = false := by
  cases v <;> first | rfl | cases h

theorem Test.Typed.isNull {t : Test} (h : t.Typed) {v : Value} (hv : v ∈ t.values) :
    v.isNull = false := by
  obtain ⟨type, htype⟩ := h
  exact Value.isNull_of_isOf (htype v hv)

/-- What is read for a type is null or of the type. -/
theorem Value.ofJson?_isOf {json : Json} {type : ColumnType} {v : Value}
    (h : Value.ofJson? json type = some v) : v = .null ∨ v.isOf type = true := by
  unfold Value.ofJson? at h
  split at h
  · cases h
    exact .inl rfl
  · refine .inr ?_
    cases type
    case json =>
      cases h
      rfl
    all_goals
      obtain ⟨_, -, rfl⟩ := Option.map_eq_some_iff.mp h
      rfl

/-- The values of an operator on a column are of the type that they are read for. -/
theorem Operation.scalar_isOf {op : Operation} {json : Json} {v : Value}
    (h : op.scalar json = .ok v) : v.isOf op.type = true := by
  unfold Operation.scalar at h
  simp only at h
  split at h
  next reading hreading =>
    cases h
    split at hreading
    next htype =>
      rw [htype]
      rfl
    next => cases hreading
  next =>
    split at h
    · cases h
    · cases h
    next hne hfound =>
      cases h
      rcases Value.ofJson?_isOf hfound with rfl | htyped
      · exact absurd rfl hne
      · exact htyped

/-! ## Tests of operators -/

namespace Test

variable (column : Column)

theorem typed_compare (comparison : Comparison) {v : Value} {type : ColumnType}
    (hv : v.isOf type = true) : (Test.compare column comparison v).Typed := by
  refine ⟨type, fun w hw => ?_⟩
  rw [List.mem_singleton.mp hw]
  exact hv

theorem typed_between {low high : Value} {type : ColumnType} (hlow : low.isOf type = true)
    (hhigh : high.isOf type = true) (negated : Bool) :
    (Test.between column low high negated).Typed := by
  refine ⟨type, fun v hv => ?_⟩
  rcases List.mem_cons.mp hv with rfl | hv
  · exact hlow
  · rw [List.mem_singleton.mp hv]
    exact hhigh

theorem typed_of_values {t : Test} (h : t.values = []) : t.Typed := ⟨.text, by simp [h]⟩

end Test

/-- Whether the tests of a predicate are of one column and bind values of one type. -/
def Predicate.TypedOn (column : Column) (p : Predicate) : Prop :=
  ∀ t ∈ predicateTests p, t.column = column ∧ t.Typed

section
variable {column : Column}

theorem typedOn_test {t : Test} (hcolumn : t.column = column) (ht : t.Typed) :
    (Predicate.test t).TypedOn column := by
  intro other hother
  rw [predicateTests, List.mem_singleton] at hother
  rw [hother]
  exact ⟨hcolumn, ht⟩

variable {low high : Value} {type : ColumnType} (hlow : low.isOf type = true)
  (hhigh : high.isOf type = true)

include hlow hhigh

theorem halfOpen_typed : (Predicate.halfOpen column low high).TypedOn column := by
  intro t ht
  have hmem : t ∈ [Test.compare column .ge low, Test.compare column .lt high] := ht
  rcases List.mem_cons.mp hmem with rfl | hmem
  · exact ⟨rfl, Test.typed_compare _ _ hlow⟩
  · rw [List.mem_singleton.mp hmem]
    exact ⟨rfl, Test.typed_compare _ _ hhigh⟩

theorem outside_typed : (Predicate.outside column low high).TypedOn column := by
  intro t ht
  have hmem : t ∈ [Test.compare column .lt low, Test.compare column .ge high] := ht
  rcases List.mem_cons.mp hmem with rfl | hmem
  · exact ⟨rfl, Test.typed_compare _ _ hlow⟩
  · rw [List.mem_singleton.mp hmem]
    exact ⟨rfl, Test.typed_compare _ _ hhigh⟩

end

namespace Operation

variable {op : Operation} {p : Predicate}

theorem interval_typed {low high : Value} {type : ColumnType} (hlow : low.isOf type = true)
    (hhigh : high.isOf type = true) (negated : Bool) :
    (op.interval negated low high).TypedOn op.column := by
  cases negated with
  | false => exact halfOpen_typed hlow hhigh
  | true => exact outside_typed hlow hhigh

theorem localDay_isOf {date : Date} {low high : Value} (h : op.localDay date = .ok (low, high)) :
    low.isOf .dateTime = true ∧ high.isOf .dateTime = true := by
  unfold localDay at h
  split at h
  · cases h
    exact ⟨rfl, rfl⟩
  · cases h

theorem equality_typed {negated : Bool} (h : op.equality negated = .ok p) : p.TypedOn op.column := by
  unfold equality at h
  split at h
  · cases h
    exact typedOn_test rfl (Test.typed_of_values rfl)
  · split at h
    · obtain ⟨⟨start, finish⟩, hday, h⟩ := bind_eq_ok h
      cases h
      exact interval_typed (localDay_isOf hday).1 (localDay_isOf hday).2 negated
    · obtain ⟨v, hv, h⟩ := bind_eq_ok h
      cases h
      exact typedOn_test rfl (Test.typed_compare _ _ (scalar_isOf hv))

theorem comparison_typed {comparison : Comparison} (h : op.comparison comparison = .ok p) :
    p.TypedOn op.column := by
  unfold Operation.comparison at h
  split at h
  · obtain ⟨⟨start, finish⟩, hday, h⟩ := bind_eq_ok h
    obtain ⟨hstart, hfinish⟩ := localDay_isOf hday
    cases h
    cases comparison <;>
      exact typedOn_test rfl (Test.typed_compare _ _ ‹_›)
  · obtain ⟨v, hv, h⟩ := bind_eq_ok h
    cases h
    exact typedOn_test rfl (Test.typed_compare _ _ (scalar_isOf hv))

theorem range_typed {negated : Bool} (h : op.range negated = .ok p) : p.TypedOn op.column := by
  unfold range at h
  split at h
  · split at h
    · obtain ⟨⟨start, _⟩, hfirst, h⟩ := bind_eq_ok h
      obtain ⟨⟨_, finish⟩, hlast, h⟩ := bind_eq_ok h
      cases h
      exact interval_typed (localDay_isOf hfirst).1 (localDay_isOf hlast).2 negated
    · obtain ⟨low, hlow, h⟩ := bind_eq_ok h
      obtain ⟨high, hhigh, h⟩ := bind_eq_ok h
      cases h
      exact typedOn_test rfl
        (Test.typed_between _ (scalar_isOf hlow) (scalar_isOf hhigh) negated)
  · cases h

theorem membership_typed {negated : Bool} (h : op.membership negated = .ok (some p)) :
    p.TypedOn op.column := by
  unfold membership at h
  obtain ⟨values, hvalues, h⟩ := bind_eq_ok h
  split at h
  · cases h
  · cases h
    refine typedOn_test rfl ⟨op.type, fun v hv => ?_⟩
    obtain ⟨json, -, hread⟩ := of_mem_mapM hvalues hv
    exact scalar_isOf hread

theorem pattern_typed {before after : String} {negated : Bool}
    (h : op.pattern before after negated = .ok p) : p.TypedOn op.column := by
  unfold pattern at h
  obtain ⟨text, -, h⟩ := bind_eq_ok h
  cases h
  exact typedOn_test rfl (Test.typed_of_values rfl)

theorem window_typed (h : op.window = .ok p) : p.TypedOn op.column := by
  unfold window at h
  simp only at h
  split at h
  · cases h
  · split at h
    · cases h
    · split at h
      · cases h
        have hinstant : ∀ t, (Value.instant t).isOf .dateTime = true := fun _ => rfl
        exact halfOpen_typed (hinstant _) (hinstant _)
      · cases h
        have hdate : ∀ d, (Value.date d).isOf .date = true := fun _ => rfl
        exact halfOpen_typed (hdate _) (hdate _)

/-- The tests of an operation are of its column and bind values of one type. -/
theorem predicate_typed (h : op.predicate = .ok (some p)) : p.TypedOn op.column := by
  have hsome : ∀ {x : Except CompileError Predicate}, x.map some = .ok (some p) → x = .ok p := by
    intro x hx
    obtain ⟨found, hfound, hsame⟩ := map_eq_ok hx
    rw [hfound, Option.some.inj hsame]
  unfold predicate at h
  split at h
  case h_1 | h_2 => exact equality_typed (hsome h)
  case h_3 | h_4 | h_5 | h_6 => exact comparison_typed (hsome h)
  case h_7 | h_8 => exact range_typed (hsome h)
  case h_9 | h_10 => exact membership_typed h
  case h_11 | h_12 | h_13 | h_14 | h_15 | h_16 => exact pattern_typed (hsome h)
  case h_21 | h_22 => exact window_typed (hsome h)
  all_goals
    cases h
    exact typedOn_test rfl (Test.typed_of_values rfl)

end Operation

end Winnow
