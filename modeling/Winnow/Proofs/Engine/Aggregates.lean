import Winnow.Proofs.Decimal.Exact
import Winnow.Proofs.Engine.Sorting

/-!
# Aggregates of values

`AggregateOf` says what the aggregate of some values is, whatever their order:
their number, a least or greatest of them, the exact sum of integers, or a sum
of decimals in some order.  The engine folds values of a column to such an
aggregate (`aggregateOf_fold`) when they can be aggregated (`Aggregable`); for
integers this asks that their sum never leaves the range in which decimals are
exact.
-/

namespace Winnow

/-- Whether a value is an integer or a decimal. -/
def Value.IsNumber (v : Value) : Prop := v.isOf .integer = true ∨ v.isOf .decimal = true

namespace Engine

/-! ## What an aggregate is -/

/-- The aggregate of a column in `count` rows, of which `values` are the values other than null. -/
inductive AggregateOf (count : Nat) (values : List Value) : AggregateFunction → Value → Prop
  | count : AggregateOf count values .count (.integer count)
  | exists_ : AggregateOf count values .exists_ (.integer (if 0 < count then 1 else 0))
  | none {function : AggregateFunction} : function ≠ .count → function ≠ .exists_ → values = [] →
    AggregateOf count values function .null
  | min {v : Value} : v ∈ values → (∀ w ∈ values, ∃ o, v.compare? w = some o ∧ o ≠ .gt) →
    AggregateOf count values .min v
  | max {v : Value} : v ∈ values → (∀ w ∈ values, ∃ o, v.compare? w = some o ∧ o ≠ .lt) →
    AggregateOf count values .max v
  | integers {numbers : List Int} : numbers ≠ [] → values.Perm (numbers.map .integer) →
    AggregateOf count values .sum (.integer numbers.sum)
  | decimals {ordered : List Value} : (∀ v ∈ values, v.IsNumber) →
    (∃ v ∈ values, isInteger v = false) → values.Perm ordered →
    AggregateOf count values .sum (.decimal (Decimal.sum (ordered.map summand)))
  | average {ordered : List Value} : (∀ v ∈ values, v.IsNumber) → values ≠ [] →
    values.Perm ordered → AggregateOf count values .avg
      (.decimal ((Decimal.sum (ordered.map summand)).div (Decimal.ofInt values.length)))

/-- Whether values other than null can be aggregated: least and greatest of one type, and numbers,
whose sum has to stay exact when they are integers. -/
def Aggregable (values : List Value) : AggregateFunction → Prop
  | .count | .exists_ => True
  | .min | .max => ∃ type, ∀ v ∈ values, v.isOf type = true ∧ v.isNaN = false
  | .sum =>
    (∀ v ∈ values, v.IsNumber) ∧
      ∀ numbers : List Int, values = numbers.map .integer → (numbers.map Int.natAbs).sum ≤ 2 ^ 53
  | .avg => ∀ v ∈ values, v.IsNumber

/-- The order of the rows does not matter. -/
theorem AggregateOf.perm {count : Nat} {values others : List Value} {function : AggregateFunction}
    {v : Value} (h : AggregateOf count values function v) (hperm : values.Perm others) :
    AggregateOf count others function v := by
  have hall : ∀ {holds : Value → Prop}, (∀ w ∈ values, holds w) → ∀ w ∈ others, holds w :=
    fun h w hw => h w (hperm.mem_iff.mpr hw)
  cases h with
  | count => exact .count
  | exists_ => exact .exists_
  | none hcount hexists hnil => exact .none hcount hexists (hnil ▸ hperm).nil_eq.symm
  | min hmem hleast => exact .min (hperm.mem_iff.mp hmem) (hall hleast)
  | max hmem hgreatest => exact .max (hperm.mem_iff.mp hmem) (hall hgreatest)
  | integers hne hnumbers => exact .integers hne (hperm.symm.trans hnumbers)
  | decimals hnumbers hsome hordered =>
    obtain ⟨w, hw, hinteger⟩ := hsome
    exact .decimals (hall hnumbers) ⟨w, hperm.mem_iff.mp hw, hinteger⟩ (hperm.symm.trans hordered)
  | average hnumbers hne hordered =>
    rw [hperm.length_eq]
    refine .average (hall hnumbers) ?_ (hperm.symm.trans hordered)
    rintro rfl
    exact hne hperm.eq_nil

/-! ## Least and greatest -/

/-- Picking one of two values at a time, from the first on, ends with one that bounds them all. -/
theorem foldl_pick {α : Type} (le : α → α → Prop) {pick : α → α → α} {among : α → Prop}
    (hrefl : ∀ a, le a a) (htrans : ∀ a b c, le a b → le b c → le a c)
    (hpick : ∀ a b, among a → among b →
      (pick a b = a ∨ pick a b = b) ∧ le (pick a b) a ∧ le (pick a b) b)
    {first : α} {rest : List α} (h : ∀ a ∈ first :: rest, among a) :
    rest.foldl pick first ∈ first :: rest ∧
      ∀ a ∈ first :: rest, le (rest.foldl pick first) a := by
  induction rest generalizing first with
  | nil =>
    refine ⟨List.mem_singleton_self first, ?_⟩
    intro a ha
    rw [List.mem_singleton.mp ha]
    exact hrefl first
  | cons next rest ih =>
    obtain ⟨hfirst, hnext, hrest⟩ : among first ∧ among next ∧ ∀ a ∈ rest, among a := by
      simpa using h
    obtain ⟨hone, hlefirst, hlenext⟩ := hpick first next hfirst hnext
    have hpicked : among (pick first next) := by
      rcases hone with heq | heq <;> rw [heq] <;> assumption
    obtain ⟨hmem, hbound⟩ := ih (List.forall_mem_cons.mpr ⟨hpicked, hrest⟩)
    rw [List.foldl_cons]
    constructor
    · rcases List.mem_cons.mp hmem with heq | hmem
      · rw [heq]
        rcases hone with heq | heq <;> rw [heq] <;> simp
      · exact List.mem_cons_of_mem _ (List.mem_cons_of_mem _ hmem)
    · have hlepicked := hbound _ List.mem_cons_self
      intro a ha
      rcases List.mem_cons.mp ha with rfl | ha
      · exact htrans _ _ _ hlepicked hlefirst
      rcases List.mem_cons.mp ha with rfl | ha
      · exact htrans _ _ _ hlepicked hlenext
      · exact hbound a (List.mem_cons_of_mem _ ha)

section
variable {type : ColumnType}

/-- Whether a value is of a type, and no number that is none. -/
def OfType (type : ColumnType) (v : Value) : Prop := v.isOf type = true ∧ v.isNaN = false

theorem compare?_eq_sortOrder {a b : Value} (ha : OfType type a) (hb : OfType type b) :
    a.compare? b = some (a.sortOrder b) := by
  obtain ⟨o, ho⟩ := Option.isSome_iff_exists.mp (Value.compare?_isSome ha.1 hb.1 ha.2 hb.2)
  unfold Value.sortOrder
  rw [Value.isNull_of_isOf ha.1, Value.isNull_of_isOf hb.1, ho]
  rfl

theorem sortOrder_eq_rankOrder {a b : Value} (ha : OfType type a) (hb : OfType type b) :
    a.sortOrder b = a.rankOrder b :=
  Value.sortOrder_eq_rankOrder (.inr ha) (.inr hb)

theorem rankOrder_refl (a : Value) : (a.rankOrder a).isLE = true :=
  Ordering.isLE_of_eq_eq Std.ReflCmp.compare_self

/-- Of two values in this or the other order, one is not greater. -/
theorem rankOrder_total {a b : Value} (h : (a.rankOrder b == .gt) = true) :
    (b.rankOrder a).isLE = true := by
  have hswap : b.rankOrder a = (a.rankOrder b).swap := Std.OrientedCmp.eq_swap
  rw [hswap, eq_of_beq h]
  rfl

theorem isLE_of_not_gt {o : Ordering} (h : ¬ (o == .gt) = true) : o.isLE = true := by
  cases o <;> first | rfl | exact absurd rfl h

/-- The least of values of one type is one of them, and not greater than any. -/
theorem least_spec {values : List Value} (hne : values ≠ []) (h : ∀ v ∈ values, OfType type v) :
    least values ∈ values ∧
      ∀ w ∈ values, ∃ o, (least values).compare? w = some o ∧ o ≠ .gt := by
  obtain ⟨first, rest, rfl⟩ := List.exists_cons_of_ne_nil hne
  have hpick : ∀ a b, OfType type a → OfType type b →
      ((if a.sortOrder b == .gt then b else a) = a ∨ (if a.sortOrder b == .gt then b else a) = b) ∧
      ((if a.sortOrder b == .gt then b else a).rankOrder a).isLE = true ∧
      ((if a.sortOrder b == .gt then b else a).rankOrder b).isLE = true := by
    intro a b ha hb
    rw [sortOrder_eq_rankOrder ha hb]
    split
    next hgt => exact ⟨.inr rfl, rankOrder_total hgt, rankOrder_refl b⟩
    next hle => exact ⟨.inl rfl, rankOrder_refl a, isLE_of_not_gt hle⟩
  have hpicked := foldl_pick (fun a b => (a.rankOrder b).isLE = true) rankOrder_refl
    (fun _ _ _ => Std.TransCmp.isLE_trans) hpick h
  obtain ⟨hmem, hbound⟩ : least (first :: rest) ∈ first :: rest ∧
    ∀ w ∈ first :: rest, ((least (first :: rest)).rankOrder w).isLE = true := hpicked
  refine ⟨hmem, ?_⟩
  intro w hw
  refine ⟨_, compare?_eq_sortOrder (h _ hmem) (h w hw), ?_⟩
  rw [sortOrder_eq_rankOrder (h _ hmem) (h w hw)]
  exact Ordering.ne_gt_iff_isLE.mpr (hbound w hw)

/-- The greatest of values of one type is one of them, and not less than any. -/
theorem greatest_spec {values : List Value} (hne : values ≠ []) (h : ∀ v ∈ values, OfType type v) :
    greatest values ∈ values ∧
      ∀ w ∈ values, ∃ o, (greatest values).compare? w = some o ∧ o ≠ .lt := by
  obtain ⟨first, rest, rfl⟩ := List.exists_cons_of_ne_nil hne
  have hpick : ∀ a b, OfType type a → OfType type b →
      ((if a.sortOrder b == .gt then a else b) = a ∨ (if a.sortOrder b == .gt then a else b) = b) ∧
      (a.rankOrder (if a.sortOrder b == .gt then a else b)).isLE = true ∧
      (b.rankOrder (if a.sortOrder b == .gt then a else b)).isLE = true := by
    intro a b ha hb
    rw [sortOrder_eq_rankOrder ha hb]
    split
    next hgt => exact ⟨.inl rfl, rankOrder_refl a, rankOrder_total hgt⟩
    next hle => exact ⟨.inr rfl, isLE_of_not_gt hle, rankOrder_refl b⟩
  have hpicked := foldl_pick (fun a b => (b.rankOrder a).isLE = true) rankOrder_refl
    (fun _ _ _ hab hbc => Std.TransCmp.isLE_trans hbc hab) hpick h
  obtain ⟨hmem, hbound⟩ : greatest (first :: rest) ∈ first :: rest ∧
    ∀ w ∈ first :: rest, (w.rankOrder (greatest (first :: rest))).isLE = true := hpicked
  refine ⟨hmem, ?_⟩
  intro w hw
  refine ⟨_, compare?_eq_sortOrder (h _ hmem) (h w hw), ?_⟩
  rw [← Value.sortOrder_swap, sortOrder_eq_rankOrder (h w hw) (h _ hmem)]
  have hle := hbound w hw
  intro hlt
  rw [Ordering.swap_eq_lt.mp hlt] at hle
  cases hle

end

/-! ## Folding -/

theorem integers_of_all {values : List Value} (h : values.all isInteger = true) :
    ∃ numbers : List Int, values = numbers.map .integer := by
  induction values with
  | nil => exact ⟨[], rfl⟩
  | cons v values ih =>
    obtain ⟨hv, hvalues⟩ := List.forall_mem_cons.mp (List.all_eq_true.mp h)
    obtain ⟨numbers, rfl⟩ := ih (List.all_eq_true.mpr hvalues)
    cases v with
    | integer n => exact ⟨n :: numbers, rfl⟩
    | _ => cases hv

/-- The values that are not null. -/
def nonNull (values : List Value) : List Value := values.filter fun v => !v.isNull

/-- Folding values that can be aggregated gives their aggregate. -/
theorem aggregateOf_fold {function : AggregateFunction} {values : List Value} (count : Nat)
    (h : Aggregable (nonNull values) function) :
    AggregateOf count (nonNull values) function (fold function values count) := by
  by_cases hnil : nonNull values = []
  · unfold fold
    simp only [show (values.filter fun v => !v.isNull) = [] from hnil]
    cases function with
    | count => exact .count
    | exists_ => exact .exists_
    | sum | min | max | avg => exact .none (by decide) (by decide) hnil
  cases function with
  | count => exact .count
  | exists_ => exact .exists_
  | min =>
    obtain ⟨type, htype⟩ := h
    obtain ⟨hmem, hleast⟩ := least_spec hnil htype
    exact .min hmem hleast
  | max =>
    obtain ⟨type, htype⟩ := h
    obtain ⟨hmem, hgreatest⟩ := greatest_spec hnil htype
    exact .max hmem hgreatest
  | avg =>
    have hfold : fold .avg values count = .decimal ((Decimal.sum ((nonNull values).map summand)).div
        (Decimal.ofInt (nonNull values).length)) :=
      if_neg fun hempty => hnil (List.isEmpty_iff.mp hempty)
    rw [hfold]
    exact .average h hnil (.refl _)
  | sum =>
    obtain ⟨hnumbers, hbound⟩ := h
    have hfold : fold .sum values count = if (nonNull values).all isInteger then
        .integer (Decimal.sum ((nonNull values).map summand)).toInt64
        else .decimal (Decimal.sum ((nonNull values).map summand)) :=
      if_neg fun hempty => hnil (List.isEmpty_iff.mp hempty)
    rw [hfold]
    split
    next hall =>
      obtain ⟨numbers, heq⟩ := integers_of_all hall
      have hne : numbers ≠ [] := by
        rintro rfl
        exact hnil heq
      have hsum : Decimal.sum ((nonNull values).map summand) = Decimal.ofInt numbers.sum := by
        rw [heq, List.map_map]
        exact Decimal.sum_ofInt hne (hbound numbers heq)
      have hrange := (Decimal.natAbs_sum_le numbers).trans (hbound numbers heq)
      rw [hsum, Decimal.toInt64_ofInt hrange]
      exact .integers hne (.of_eq heq)
    next hsome =>
      have hother : ∃ v ∈ nonNull values, isInteger v = false := by simpa using hsome
      exact .decimals hnumbers hother (.refl _)

end Engine
end Winnow
