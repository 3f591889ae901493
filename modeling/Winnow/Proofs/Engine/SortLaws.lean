import Winnow.Proofs.Engine.Sorting

/-!
# When the values of a column can be sorted

Sorting relies on an order that is total and transitive.  The values of a column
are of one type, so all of them compare with each other but one: a decimal that
is no number, which sorts as equal to every number and so relates two numbers
that differ in the wrong direction (`sortOrder_trans`).  The order for sorting is
lawful on the values of a column exactly when no such value stands among
different ones, and exactly then all of them come out sorted
(`columns_sort_lawfully`).  Only a text puts such a value into a column of
decimals (`ofJson?_eq_nan_iff`).
-/

namespace Winnow

/-! ## Definitions -/

/-- Whether a data value is no number where a decimal is read: a text that writes the word, or a
number that is none, which no data document holds. -/
def Json.IsNaN : Json → Prop
  | .decimal x => x.isNaN = true
  | .string s => Decimal.WritesNaN (Text.trimChars s.toList)
  | _ => False

namespace Value

/-- Whether the order for sorting is a total preorder of some values. -/
structure SortsLawfully (values : List Value) : Prop where
  refl : ∀ a ∈ values, a.sortOrder a = .eq
  swap : ∀ a ∈ values, ∀ b ∈ values, a.sortOrder b = (b.sortOrder a).swap
  trans : ∀ a ∈ values, ∀ b ∈ values, ∀ c ∈ values,
    (a.sortOrder b).isLE = true → (b.sortOrder c).isLE = true → (a.sortOrder c).isLE = true
  alike : ∀ a ∈ values, ∀ b ∈ values, ∀ c ∈ values,
    a.sortOrder b = .eq → b.sortOrder c = .eq → a.sortOrder c = .eq

/-- Whether a decimal that is no number stands among values that differ. -/
def HidesOrder (values : List Value) : Prop :=
  .decimal .nan ∈ values ∧ ∃ a ∈ values, ∃ b ∈ values, a ≠ .null ∧ a.sortOrder b = .lt

/-! ## Reading what is no number -/

theorem decimalOf?_eq_nan_iff {json : Json} : decimalOf? json = some .nan ↔ json.IsNaN := by
  cases json with
  | integer n =>
    refine iff_of_false (fun h => ?_) not_false
    have hnumber := ofInt_isNaN n
    rw [Option.some.inj h] at hnumber
    cases hnumber
  | decimal x => cases x <;> simp [decimalOf?, Json.IsNaN, Decimal.isNaN]
  | string s =>
    show Decimal.read? (Text.trim s) = some .nan ↔ _
    rw [Decimal.read?_eq_nan_iff]
    unfold Text.trim
    rw [String.toList_ofList]
    rfl
  | _ => exact iff_of_false (by simp [decimalOf?]) not_false

theorem ofJson?_decimal {json : Json} (h : json ≠ .null) :
    ofJson? json .decimal = (decimalOf? json).map .decimal := by
  cases json <;> first | exact absurd rfl h | rfl

/-- A value that is no number is read for a decimal only, and from a text that writes the word. -/
theorem ofJson?_eq_nan_iff {json : Json} {type : ColumnType} :
    ofJson? json type = some (.decimal .nan) ↔ type = .decimal ∧ json.IsNaN := by
  constructor
  · intro h
    have htype : type = .decimal := by
      rcases ofJson?_isOf h with hnull | htyped
      · cases hnull
      · cases type <;> first | rfl | cases htyped
    have hne : json ≠ .null := by
      rintro rfl
      cases h
    rw [htype, ofJson?_decimal hne] at h
    obtain ⟨x, hx, hvalue⟩ := Option.map_eq_some_iff.mp h
    cases hvalue
    exact ⟨htype, decimalOf?_eq_nan_iff.mp hx⟩
  · rintro ⟨rfl, hnan⟩
    have hne : json ≠ .null := by
      rintro rfl
      exact hnan
    rw [ofJson?_decimal hne, decimalOf?_eq_nan_iff.mpr hnan]
    rfl

/-! ## Laws of the order -/

theorem sortOrder_self (a : Value) : a.sortOrder a = .eq := by
  have h := sortOrder_swap a a
  cases horder : a.sortOrder a <;> rw [horder] at h <;> first | rfl | cases h

theorem null_sortOrder {b : Value} (h : b ≠ .null) : null.sortOrder b = .lt := by
  cases b <;> first | exact absurd rfl h | rfl

theorem sortOrder_null {a : Value} (h : a ≠ .null) : a.sortOrder null = .gt := by
  rw [← sortOrder_swap, null_sortOrder h]
  rfl

/-- What is no number sorts as equal to whatever is not null. -/
theorem nan_sortOrder {b : Value} (h : b ≠ .null) : (decimal .nan).sortOrder b = .eq := by
  cases b <;> first | exact absurd rfl h | rfl

theorem sortOrder_nan {a : Value} (h : a ≠ .null) : a.sortOrder (decimal .nan) = .eq := by
  rw [← sortOrder_swap, nan_sortOrder h]
  rfl

/-- Values that come at or before each other sort as equal. -/
theorem sortOrder_eq_of_isLE {a b : Value} (hab : (a.sortOrder b).isLE = true)
    (hba : (b.sortOrder a).isLE = true) : a.sortOrder b = .eq := by
  rw [← sortOrder_swap] at hba
  cases h : a.sortOrder b with
  | lt =>
    rw [h] at hba
    cases hba
  | eq => rfl
  | gt =>
    rw [h] at hab
    cases hab

section
variable {type : ColumnType} {a b c : Value}

theorem sortsAs_of_ne_nan (h : a = .null ∨ a.isOf type = true) (hne : a ≠ .decimal .nan) :
    a.SortsAs type := by
  refine h.imp id fun htyped => ⟨htyped, ?_⟩
  rw [← Bool.not_eq_true]
  exact fun hnan => hne (eq_nan_of_isNaN hnan)

/-- Values of one type are in order as long as the one between them is a number, or null. -/
theorem sortOrder_trans (ha : a = .null ∨ a.isOf type = true) (hb : b = .null ∨ b.isOf type = true)
    (hc : c = .null ∨ c.isOf type = true) (hnumber : b ≠ .decimal .nan)
    (hab : (a.sortOrder b).isLE = true) (hbc : (b.sortOrder c).isLE = true) :
    (a.sortOrder c).isLE = true := by
  by_cases hnull : a = .null
  · rw [hnull]
    by_cases hnull' : c = .null
    · rw [hnull']
      rfl
    · rw [null_sortOrder hnull']
      rfl
  -- what comes behind a value that is not null is not null
  have hb' : b ≠ .null := by
    rintro rfl
    rw [sortOrder_null hnull] at hab
    cases hab
  have hc' : c ≠ .null := by
    rintro rfl
    rw [sortOrder_null hb'] at hbc
    cases hbc
  by_cases hnan : a = .decimal .nan
  · rw [hnan, nan_sortOrder hc']
    rfl
  by_cases hnan' : c = .decimal .nan
  · rw [hnan', sortOrder_nan hnull]
    rfl
  have hsorts := sortsAs_of_ne_nan ha hnan
  have hsorts' := sortsAs_of_ne_nan hb hnumber
  have hsorts'' := sortsAs_of_ne_nan hc hnan'
  rw [sortOrder_eq_rankOrder hsorts hsorts'] at hab
  rw [sortOrder_eq_rankOrder hsorts' hsorts''] at hbc
  rw [sortOrder_eq_rankOrder hsorts hsorts'']
  exact Std.TransCmp.isLE_trans hab hbc

end

/-! ## Lawful columns -/

section
variable {type : ColumnType} {values : List Value}

/-- Transitivity is all that can be missing, and equality is transitive with the order. -/
theorem SortsLawfully.of_trans
    (h : ∀ a ∈ values, ∀ b ∈ values, ∀ c ∈ values,
      (a.sortOrder b).isLE = true → (b.sortOrder c).isLE = true → (a.sortOrder c).isLE = true) :
    SortsLawfully values := by
  refine ⟨fun a _ => sortOrder_self a, fun a _ b _ => (sortOrder_swap b a).symm, h, ?_⟩
  have hle : ∀ {a b : Value}, a.sortOrder b = .eq →
      (a.sortOrder b).isLE = true ∧ (b.sortOrder a).isLE = true := by
    intro a b heq
    rw [← sortOrder_swap a b, heq]
    exact ⟨rfl, rfl⟩
  intro a ha b hb c hc hab hbc
  obtain ⟨hab, hba⟩ := hle hab
  obtain ⟨hbc, hcb⟩ := hle hbc
  exact sortOrder_eq_of_isLE (h a ha b hb c hc hab hbc) (h c hc b hb a ha hcb hba)

theorem sortsLawfully_iff (htyped : ∀ v ∈ values, v = .null ∨ v.isOf type = true) :
    SortsLawfully values ↔ ¬HidesOrder values := by
  constructor
  · rintro h ⟨hnan, a, ha, b, hb, hne, hless⟩
    have hne' : b ≠ .null := by
      rintro rfl
      rw [sortOrder_null hne] at hless
      cases hless
    have hback := h.trans b hb _ hnan a ha (by rw [sortOrder_nan hne']; rfl)
      (by rw [nan_sortOrder hne]; rfl)
    rw [← sortOrder_swap, hless] at hback
    cases hback
  · intro h
    refine .of_trans fun a ha b hb c hc hab hbc => ?_
    by_cases hnan : b = .decimal .nan
    · subst hnan
      have hne : c ≠ .null := by
        rintro rfl
        cases hbc
      cases hac : a.sortOrder c with
      | gt =>
        refine absurd ⟨hb, c, hc, a, ha, hne, ?_⟩ h
        rw [← sortOrder_swap, hac]
        rfl
      | _ => rfl
    · exact sortOrder_trans (htyped a ha) (htyped b hb) (htyped c hc) hnan hab hbc

end

end Value

/-! ## Sorted columns -/

namespace Engine

/-- Whether a list of values is placed in order. -/
def PlacesInOrder (list : List Value) : Prop :=
  (arrange (fun a b => a.sortOrder b == .lt) list).Pairwise fun a b => (a.sortOrder b).isLE = true

/-- Values that sort lawfully are placed in order. -/
theorem placesInOrder_of_lawful {values list : List Value} (h : Value.SortsLawfully values)
    (hlist : ∀ v ∈ list, v ∈ values) : PlacesInOrder list := by
  -- on the values themselves the order is an order of a type
  let cmp (a b : {v // v ∈ values}) : Ordering := a.1.sortOrder b.1
  have htrans : Std.TransCmp cmp :=
    { eq_swap := fun {a b} => h.swap a.1 a.2 b.1 b.2
      isLE_trans := fun {a b c} => h.trans a.1 a.2 b.1 b.2 c.1 c.2 }
  have hmap : list = (list.attachWith (· ∈ values) hlist).map Subtype.val := by simp
  unfold PlacesInOrder
  rw [hmap, arrange_map, List.pairwise_map]
  exact pairwise_arrange cmp _

/-- What is no number keeps a number that comes before another behind it. -/
theorem arrange_nan {a b : Value} (ha : a ≠ .null) (hb : b ≠ .null) :
    arrange (fun a b => a.sortOrder b == .lt) [b, .decimal .nan, a] = [b, .decimal .nan, a] := by
  have hfirst : ((Value.decimal .nan).sortOrder b == .lt) = false := by
    rw [Value.nan_sortOrder hb]
    rfl
  have hlast : (a.sortOrder (.decimal .nan) == .lt) = false := by
    rw [Value.sortOrder_nan ha]
    rfl
  simp [arrange, place, hfirst, hlast]

theorem lawful_iff_placesInOrder {type : ColumnType} {values : List Value}
    (htyped : ∀ v ∈ values, v = .null ∨ v.isOf type = true) :
    Value.SortsLawfully values ↔
      ∀ list : List Value, (∀ v ∈ list, v ∈ values) → PlacesInOrder list := by
  refine ⟨fun h list hlist => placesInOrder_of_lawful h hlist, fun h => ?_⟩
  rw [Value.sortsLawfully_iff htyped]
  rintro ⟨hnan, a, ha, b, hb, hne, hless⟩
  have hne' : b ≠ .null := by
    rintro rfl
    rw [Value.sortOrder_null hne] at hless
    cases hless
  have hplaced := h [b, .decimal .nan, a] (by simp [hnan, ha, hb])
  unfold PlacesInOrder at hplaced
  rw [arrange_nan hne hne', List.pairwise_cons] at hplaced
  have hback := hplaced.1 a (by simp)
  rw [← Value.sortOrder_swap, hless] at hback
  cases hback

end Engine

/-! ## Deals by amount -/

namespace Amounts

def deal : Entity := (Entity.make "deals" "deals").addColumn "amount" .decimal

def registry : Registry := ⟨[("deals", deal)]⟩

/-- A deal with an amount. -/
def row (id : Int) (amount : Json) : Json := .object [("amount", amount), ("id", .integer id)]

/-- Between two amounts in the wrong order stands one that is no number. -/
def document : Json :=
  .object [("deals", .array [row 1 (.integer 2), row 2 (.string "NaN"), row 3 (.integer 1)])]

def byAmount : Query := (Query.ofEntity deal).orderByColumn "amount" .ascending

end Amounts

namespace Engine

/-- The values that are read for a column sort as equal to themselves, and either way round alike.
They are ordered transitively exactly when no decimal that is no number stands among values that
differ, and exactly then all lists of them are placed in order.  Such a value is read in columns of
decimals only, from the word for it. -/
theorem columns_sort_lawfully (type : ColumnType) (values : List Value)
    (hread : ∀ v ∈ values, ∃ json, Value.ofJson? json type = some v) :
    (∀ a ∈ values, a.sortOrder a = .eq) ∧
    (∀ a ∈ values, ∀ b ∈ values, a.sortOrder b = (b.sortOrder a).swap) ∧
    (Value.SortsLawfully values ↔ ¬Value.HidesOrder values) ∧
    (Value.SortsLawfully values ↔
      ∀ list : List Value, (∀ v ∈ list, v ∈ values) → PlacesInOrder list) ∧
    ∀ json, Value.ofJson? json type = some (.decimal .nan) ↔ type = .decimal ∧ json.IsNaN := by
  have htyped : ∀ v ∈ values, v = .null ∨ v.isOf type = true := by
    intro v hv
    obtain ⟨json, hjson⟩ := hread v hv
    exact Value.ofJson?_isOf hjson
  exact ⟨fun a _ => Value.sortOrder_self a, fun a _ b _ => (Value.sortOrder_swap b a).symm,
    Value.sortsLawfully_iff htyped, lawful_iff_placesInOrder htyped,
    fun _ => Value.ofJson?_eq_nan_iff⟩

/-- No amount, two and minus infinity. -/
theorem columns_sort_lawfully_amounts :
    let values : List Value := [.null, .decimal (.ofInt 2), .decimal (.infinite true)]
    Value.SortsLawfully values ∧ PlacesInOrder values := by
  intro values
  have hread : ∀ v ∈ values, ∃ json, Value.ofJson? json .decimal = some v := by
    intro v hv
    simp only [values, List.mem_cons, List.not_mem_nil, or_false] at hv
    rcases hv with rfl | rfl | rfl
    · exact ⟨.null, rfl⟩
    · exact ⟨.integer 2, rfl⟩
    · exact ⟨.string " -Inf", by decide +kernel⟩
  obtain ⟨-, -, hlawful, hplaces, -⟩ := columns_sort_lawfully .decimal values hread
  have hnumbers : ¬Value.HidesOrder values := by
    rintro ⟨hnan, -⟩
    exact absurd hnan (by decide +kernel)
  have hsorts := hlawful.mpr hnumbers
  exact ⟨hsorts, hplaces.mp hsorts values fun v hv => hv⟩

/-- Two sorts as equal to what is no number, that as equal to one, and two behind one.  So deals in
the order of their amounts begin with two and end with one. -/
theorem nan_hides_order :
    Value.ofJson? (.integer 2) .decimal = some (.decimal (.ofInt 2)) ∧
    Value.ofJson? (.string "NaN") .decimal = some (.decimal .nan) ∧
    Value.ofJson? (.integer 1) .decimal = some (.decimal (.ofInt 1)) ∧
    (Value.decimal (.ofInt 2)).sortOrder (.decimal .nan) = .eq ∧
    (Value.decimal .nan).sortOrder (.decimal (.ofInt 1)) = .eq ∧
    (Value.decimal (.ofInt 2)).sortOrder (.decimal (.ofInt 1)) = .gt ∧
    (Dataset.load Amounts.registry Amounts.document).toOption.map (fun db =>
      ids db Amounts.byAmount) = some [1, 2, 3] := by
  decide +kernel

end Engine
end Winnow
