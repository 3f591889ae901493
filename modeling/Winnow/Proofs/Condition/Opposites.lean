import Winnow.Proofs.Condition.Ranges

/-!
# Opposite operators

Most operators come in pairs of which one denies what the other says.  Both
read their value alike, and both compare with the same bounds, so that exactly
one of them holds of a value that compares with all of these, and none of a
value that does not compare with one (`Decided`).  A value of the column type
compares with every bound that is a number; null compares with nothing
(`Opposed`, `question_together`).
-/

namespace Winnow

open Engine

/-- The pairs of operators of which the second denies what the first says. -/
def Operator.opposites : List (Operator × Operator) := [
  (.equal, .notEqual), (.less, .greaterOrEqual), (.lessOrEqual, .greater),
  (.between, .notBetween), (.in_, .notIn), (.contains, .notContains),
  (.beginsWith, .notBeginsWith), (.endsWith, .notEndsWith), (.isEmpty, .isNotEmpty),
  (.isNull, .isNotNull)
]

/-! ## Definitions -/

/-- How the outcomes of two operators go together: both refuse the value, or it is no constraint for
both, or both make constraints of it that are related. -/
inductive Together {α : Type} (related : α → α → Prop) :
    Except CompileError (Option α) → Except CompileError (Option α) → Prop
  | refused (e e' : CompileError) : Together related (.error e) (.error e')
  | free : Together related (.ok none) (.ok none)
  | bound {a b : α} (h : related a b) : Together related (.ok (some a)) (.ok (some b))

namespace Operation

/-- Whether the operator compares with a bound that is no number.  Being in a list is no such
comparison. -/
def comparesNaN (op : Operation) : Bool :=
  op.operator != .in_ && op.operator != .notIn && op.operands.any op.readsNaN

/-- Whether the operator or its opposite holds of null: it tests for null or for empty text, or the
value is null. -/
def answersNull (op : Operation) : Bool :=
  op.operator.isNullCheck || op.operator.isEmptyCheck ||
    ((op.operator == .equal || op.operator == .notEqual) && op.value.isNull)

/-- How the questions of an operator and of its opposite go together. -/
structure Opposed (op : Operation) (asks denies : Question) : Prop where
  exclude : ∀ v : Value, v.isOf op.type = true → v.isNaN = false → op.comparesNaN = false →
    denies v = !asks v
  null : if op.answersNull then denies .null = !asks .null
    else asks .null = false ∧ denies .null = false
  nan : op.comparesNaN = true → ∀ v, asks v = false ∧ denies v = false

/-- How the predicates of an operator and of its opposite go together, whatever the frame. -/
structure Excludes (op : Operation) (p q : Predicate) : Prop where
  /-- Exactly one holds of a number, or of a value that needs to be none. -/
  exclude : ∀ (db : Dataset) (frame : Frame), (read frame op.column).isOf op.type = true →
    (read frame op.column).isNaN = false → op.comparesNaN = false →
      predicateHolds db frame q = !predicateHolds db frame p
  /-- Of null one holds only if null is what they are about. -/
  null : ∀ (db : Dataset) (frame : Frame), read frame op.column = .null →
    if op.answersNull then predicateHolds db frame q = !predicateHolds db frame p
    else predicateHolds db frame p = false ∧ predicateHolds db frame q = false
  /-- None holds where they compare with no number. -/
  nan : op.comparesNaN = true → ∀ (db : Dataset) (frame : Frame),
    predicateHolds db frame p = false ∧ predicateHolds db frame q = false

end Operation

/-! ## Bounds -/

namespace Value

theorem compare?_nan (v : Value) : v.compare? (.decimal .nan) = none := by
  cases v with
  | integer n => simp [compare?, Decimal.compare?, Decimal.isNaN]
  | decimal x => simp [compare?, Decimal.compare?, Decimal.isNaN]
  | _ => rfl

/-- Two questions of which exactly one holds of a value that compares with all bounds, and none of a
value that does not compare with one. -/
structure Decided (bounds : List Value) (asks denies : Question) : Prop where
  decided : ∀ v : Value, (∀ b ∈ bounds, (v.compare? b).isSome = true) → denies v = !asks v
  undecided : ∀ v b : Value, b ∈ bounds → v.compare? b = none → asks v = false ∧ denies v = false

theorem decided_satisfies {op opposite : Comparison} (h : ∀ o, opposite.holds o = !op.holds o)
    (bound : Value) : Decided [bound] (satisfies op bound) (satisfies opposite bound) := by
  constructor
  · intro v hsome
    obtain ⟨o, ho⟩ := Option.isSome_iff_exists.mp (hsome bound List.mem_cons_self)
    unfold satisfies
    rw [ho]
    exact h o
  · intro v b hb hnone
    rw [List.mem_singleton.mp hb] at hnone
    unfold satisfies
    rw [hnone]
    exact ⟨rfl, rfl⟩

theorem decided_within {low high : Value}
    (halike : ∀ v : Value, (v.compare? low).isSome = (v.compare? high).isSome) :
    Decided [low, high] (isWithin low high false) (isWithin low high true) := by
  constructor
  · intro v hsome
    obtain ⟨a, ha⟩ := Option.isSome_iff_exists.mp (hsome low (by simp))
    obtain ⟨b, hb⟩ := Option.isSome_iff_exists.mp (hsome high (by simp))
    unfold isWithin satisfies
    rw [ha, hb]
    cases a <;> cases b <;> rfl
  · intro v b hb hnone
    have hboth : v.compare? low = none ∧ v.compare? high = none := by
      have hv := halike v
      rcases List.mem_cons.mp hb with rfl | hb
      · rw [hnone] at hv
        exact ⟨hnone, Option.isNone_iff_eq_none.mp (Option.isSome_eq_false_iff.mp hv.symm)⟩
      · rw [List.mem_singleton.mp hb] at hnone
        rw [hnone] at hv
        exact ⟨Option.isNone_iff_eq_none.mp (Option.isSome_eq_false_iff.mp hv), hnone⟩
    unfold isWithin satisfies
    rw [hboth.1, hboth.2]
    exact ⟨rfl, rfl⟩

theorem decided_between (low high : Value) :
    Decided [low, high] (isBetween low high false) (isBetween low high true) := by
  constructor
  · intro v hsome
    obtain ⟨a, ha⟩ := Option.isSome_iff_exists.mp (hsome low (by simp))
    obtain ⟨b, hb⟩ := Option.isSome_iff_exists.mp (hsome high (by simp))
    unfold isBetween
    rw [ha, hb]
    cases a <;> cases b <;> rfl
  · intro v b hb hnone
    unfold isBetween
    rcases List.mem_cons.mp hb with rfl | hb
    · rw [hnone]
      exact ⟨rfl, rfl⟩
    · rw [List.mem_singleton.mp hb] at hnone
      rw [hnone]
      cases v.compare? low <;> exact ⟨rfl, rfl⟩

end Value

namespace Operation

section
variable {op : Operation} {asks denies : Question}

/-- Questions that bounds decide are opposed when the bounds are of the column type. -/
theorem opposed_of_decided {bounds : List Value} (h : Value.Decided bounds asks denies)
    (hne : bounds ≠ []) (htyped : ∀ b ∈ bounds, b.isOf op.type = true)
    (hnan : op.comparesNaN = bounds.any Value.isNaN) (hnull : op.answersNull = false) :
    op.Opposed asks denies := by
  constructor
  · intro v hv hnumber hnumbers
    rw [hnan, List.any_eq_false] at hnumbers
    exact h.decided v fun b hb =>
      Value.compare?_isSome hv (htyped b hb) hnumber (Bool.eq_false_iff.mpr (hnumbers b hb))
  · rw [hnull, if_neg Bool.false_ne_true]
    obtain ⟨b, hb⟩ := List.exists_mem_of_ne_nil bounds hne
    exact h.undecided .null b hb (by cases b <;> rfl)
  · intro hsome v
    rw [hnan, List.any_eq_true] at hsome
    obtain ⟨b, hb, hbnan⟩ := hsome
    refine h.undecided v b hb ?_
    rw [Value.eq_nan_of_isNaN hbnan]
    exact v.compare?_nan

/-- Questions that compare with no bound are opposed when exactly one holds of every value but
null. -/
theorem opposed_of_exclude (hnan : op.comparesNaN = false)
    (h : ∀ v : Value, v.isNull = false → denies v = !asks v)
    (hnull : if op.answersNull then denies .null = !asks .null
      else asks .null = false ∧ denies .null = false) : op.Opposed asks denies := by
  refine ⟨fun v hv _ _ => h v (Value.isNull_of_isOf hv), hnull, fun hsome => ?_⟩
  rw [hnan] at hsome
  cases hsome

/-- A bound is of the column type, and no number just when the data value is read as none. -/
theorem Reads.typed {json : Json} {bound : RangeBound} (h : op.Reads json bound) :
    match bound with
    | .point v => v.isOf op.type = true ∧ v.isNaN = op.readsNaN json
    | .day start finish =>
      (start.isOf op.type = true ∧ start.isNaN = op.readsNaN json) ∧
        finish.isOf op.type = true ∧ finish.isNaN = op.readsNaN json := by
  cases bound with
  | point v => exact ⟨scalar_isOf h.2, isNaN_of_scalar h.2⟩
  | day start finish =>
    obtain ⟨date, hdate, hday⟩ := h
    obtain ⟨htype, -⟩ := text?_of_dateOnly? hdate
    have hnumber := isNaN_of_scalar (scalar_of_dateOnly? hdate)
    rw [localDay_of_dateOnly? hdate] at hday
    cases hday
    rw [htype]
    exact ⟨⟨rfl, hnumber⟩, rfl, hnumber⟩

theorem opposed_satisfies {comparison opposite : Comparison}
    (hholds : ∀ o, opposite.holds o = !comparison.holds o) {bound : Value}
    (htyped : bound.isOf op.type = true) (hnan : op.comparesNaN = bound.isNaN)
    (hnull : op.answersNull = false) :
    op.Opposed (Value.satisfies comparison bound) (Value.satisfies opposite bound) := by
  refine opposed_of_decided (Value.decided_satisfies hholds bound) (List.cons_ne_nil _ _) ?_ ?_ hnull
  · simpa using htyped
  · simpa using hnan

theorem opposed_within {low high : Value} (hlow : low.isOf op.type = true)
    (hhigh : high.isOf op.type = true) (hlow' : low.isNaN = false) (hhigh' : high.isNaN = false)
    (hnan : op.comparesNaN = false) (hnull : op.answersNull = false) :
    op.Opposed (Value.isWithin low high false) (Value.isWithin low high true) := by
  refine opposed_of_decided (Value.decided_within ?_) (List.cons_ne_nil _ _) ?_ ?_ hnull
  · exact Value.compare?_isSome_congr hlow hhigh hlow' hhigh'
  · simp [hlow, hhigh]
  · simp [hnan, hlow', hhigh']

end

/-! ## Values that are read alike -/

section
variable {first second : Operation} (htype : second.type = first.type)
  (hcontext : second.context = first.context) (hvalue : second.value = first.value)

include htype hcontext

theorem scalar_together (json : Json) :
    (∃ v, first.scalar json = .ok v ∧ second.scalar json = .ok v) ∨
      ∃ e e', first.scalar json = .error e ∧ second.scalar json = .error e' := by
  cases hfirst : first.scalar json with
  | ok v => exact .inl ⟨v, rfl, scalar_congr second htype hcontext hfirst⟩
  | error e =>
    cases hsecond : second.scalar json with
    | error e' => exact .inr ⟨e, e', rfl, rfl⟩
    | ok v =>
      have hback := scalar_congr first htype.symm hcontext.symm hsecond
      rw [hfirst] at hback
      cases hback

/-- A data value is read as the same bound by both, or as none by both. -/
theorem reads_together (json : Json) :
    (∃ bound, first.Reads json bound ∧ second.Reads json bound) ∨
      (first.dateOnly? json = none ∧ second.dateOnly? json = none) ∧
        ∃ e e', first.scalar json = .error e ∧ second.scalar json = .error e' := by
  rcases scalar_together htype hcontext json with ⟨v, hfirst, -⟩ | herror
  · obtain ⟨bound, hbound⟩ := reads_of_scalar hfirst
    exact .inl ⟨bound, hbound, hbound.congr second htype hcontext⟩
  · have hnone : first.dateOnly? json = none := by
      obtain ⟨e, -, hfirst, -⟩ := herror
      cases hdate : first.dateOnly? json with
      | none => rfl
      | some date =>
        rw [scalar_of_dateOnly? hdate] at hfirst
        cases hfirst
    exact .inr ⟨⟨hnone, (dateOnly?_congr second htype json).trans hnone⟩, herror⟩

theorem mapM_scalar_together (items : List Json) :
    (∃ vs, items.mapM first.scalar = .ok vs ∧ items.mapM second.scalar = .ok vs) ∨
      ∃ e e', items.mapM first.scalar = .error e ∧ items.mapM second.scalar = .error e' := by
  induction items with
  | nil => exact .inl ⟨[], rfl, rfl⟩
  | cons item rest ih =>
    rw [List.mapM_cons, List.mapM_cons]
    rcases scalar_together htype hcontext item with ⟨v, hfirst, hsecond⟩ | ⟨e, e', hfirst, hsecond⟩
    · rw [hfirst, hsecond]
      rcases ih with ⟨vs, hfirsts, hseconds⟩ | ⟨e, e', hfirsts, hseconds⟩
      · rw [hfirsts, hseconds]
        exact .inl ⟨v :: vs, rfl, rfl⟩
      · rw [hfirsts, hseconds]
        exact .inr ⟨e, e', rfl, rfl⟩
    · rw [hfirst, hsecond]
      exact .inr ⟨e, e', rfl, rfl⟩

include hvalue

/-! ## Pairs -/

/-- Before a bound and from it on, or up to a bound and after it. -/
theorem comparison_together {comparison opposite : Comparison}
    (hpair : (comparison, opposite) = (.lt, .ge) ∨ (comparison, opposite) = (.le, .gt))
    (hnan : first.comparesNaN = first.readsNaN first.value) (hnull : first.answersNull = false) :
    Together first.Opposed ((first.comparisonQuestion comparison).map some)
      ((second.comparisonQuestion opposite).map some) := by
  have hholds : ∀ o, opposite.holds o = !comparison.holds o := by
    rcases hpair with hpair | hpair <;> cases hpair <;> exact fun o => by cases o <;> rfl
  rcases reads_together htype hcontext first.value with ⟨bound, hfirst, hsecond⟩ | ⟨hdate, herror⟩
  · rw [comparisonQuestion_of_reads rfl hfirst, comparisonQuestion_of_reads hvalue hsecond]
    refine .bound ?_
    have htyped := hfirst.typed
    cases bound with
    | point v => exact opposed_satisfies hholds htyped.1 (hnan.trans htyped.2.symm) hnull
    | day start finish =>
      obtain ⟨⟨hstart, hstart'⟩, hfinish, hfinish'⟩ := htyped
      rcases hpair with hpair | hpair
      · cases hpair
        exact opposed_satisfies hholds hstart (hnan.trans hstart'.symm) hnull
      · cases hpair
        have hday : ∀ o, Comparison.holds .ge o = !Comparison.holds .lt o :=
          fun o => by cases o <;> rfl
        exact opposed_satisfies hday hfinish (hnan.trans hfinish'.symm) hnull
  · obtain ⟨e, e', hfirst, hsecond⟩ := herror
    unfold comparisonQuestion
    rw [hvalue, hdate.1, hdate.2]
    simp only [hfirst, hsecond, bind, Except.bind]
    exact .refused e e'

theorem equality_together (hnan : first.comparesNaN = first.readsNaN first.value)
    (hnull : first.answersNull = first.value.isNull) :
    Together first.Opposed ((first.equalityQuestion false).map some)
      ((second.equalityQuestion true).map some) := by
  unfold equalityQuestion
  rw [hvalue]
  by_cases hvalueNull : first.value.isNull = true
  · rw [if_pos hvalueNull, if_pos hvalueNull]
    have hnumber : first.readsNaN first.value = false := by
      cases hjson : first.value with
      | null => rfl
      | _ =>
        rw [hjson] at hvalueNull
        cases hvalueNull
    refine .bound (opposed_of_exclude (hnan.trans hnumber) (fun v _ => by cases v.isNull <;> rfl) ?_)
    rw [hnull, hvalueNull, if_pos rfl]
    rfl
  rw [if_neg hvalueNull, if_neg hvalueNull]
  have hanswers : first.answersNull = false := hnull.trans (Bool.eq_false_iff.mpr hvalueNull)
  rcases reads_together htype hcontext first.value with ⟨bound, hfirst, hsecond⟩ | ⟨hdate, herror⟩
  · have htyped := hfirst.typed
    cases bound with
    | point v =>
      rw [hfirst.1, hsecond.1]
      simp only [hfirst.2, hsecond.2, bind, Except.bind]
      have hholds : ∀ o, Comparison.holds .ne o = !Comparison.holds .eq o :=
        fun o => by cases o <;> rfl
      exact .bound (opposed_satisfies hholds htyped.1 (hnan.trans htyped.2.symm) hanswers)
    | day start finish =>
      obtain ⟨date, hdate, hday⟩ := hfirst
      obtain ⟨date', hdate', hday'⟩ := hsecond
      rw [hdate, hdate']
      simp only [hday, hday', bind, Except.bind]
      obtain ⟨⟨hstart, hstart'⟩, hfinish, hfinish'⟩ := htyped
      have hnumber : first.readsNaN first.value = false :=
        (isNaN_of_scalar (scalar_of_dateOnly? hdate)).symm
      rw [hnumber] at hstart' hfinish' hnan
      exact .bound (opposed_within hstart hfinish hstart' hfinish' hnan hanswers)
  · obtain ⟨e, e', hfirst, hsecond⟩ := herror
    rw [hdate.1, hdate.2]
    simp only [hfirst, hsecond, bind, Except.bind]
    exact .refused e e'

theorem range_together
    (hnan : ∀ low high, first.value = .array [low, high] →
      first.comparesNaN = (first.readsNaN low || first.readsNaN high))
    (hnull : first.answersNull = false) :
    Together first.Opposed ((first.rangeQuestion false).map some)
      ((second.rangeQuestion true).map some) := by
  unfold rangeQuestion
  rw [hvalue]
  split
  next low high heq =>
    have hnan := hnan low high heq
    rw [dateOnly?_congr second htype low, dateOnly?_congr second htype high]
    split
    next hlow hhigh =>
      have hlow' := (dateOnly?_congr second htype low).trans hlow
      have hhigh' := (dateOnly?_congr second htype high).trans hhigh
      have hnumber : first.readsNaN low = false ∧ first.readsNaN high = false :=
        ⟨(isNaN_of_scalar (scalar_of_dateOnly? hlow)).symm,
          (isNaN_of_scalar (scalar_of_dateOnly? hhigh)).symm⟩
      rw [hnumber.1, hnumber.2] at hnan
      simp only [localDay_of_dateOnly? hlow, localDay_of_dateOnly? hhigh,
        localDay_of_dateOnly? hlow', localDay_of_dateOnly? hhigh', hcontext, bind, Except.bind]
      obtain ⟨hinstants, -⟩ := text?_of_dateOnly? hlow
      exact .bound (opposed_within (by rw [hinstants]; rfl) (by rw [hinstants]; rfl) rfl rfl hnan
        hnull)
    next =>
      rcases scalar_together htype hcontext low with ⟨v, hv, hv'⟩ | ⟨e, e', he, he'⟩
      · rcases scalar_together htype hcontext high with ⟨w, hw, hw'⟩ | ⟨e, e', he, he'⟩
        · simp only [hv, hv', hw, hw', bind, Except.bind]
          refine .bound (opposed_of_decided (Value.decided_between v w) (List.cons_ne_nil _ _) ?_ ?_
            hnull)
          · simp [scalar_isOf hv, scalar_isOf hw]
          · rw [hnan, ← isNaN_of_scalar hv, ← isNaN_of_scalar hw]
            simp
        · simp only [hv, hv', he, he', bind, Except.bind]
          exact .refused e e'
      · simp only [he, he', bind, Except.bind]
        exact .refused e e'
  next => exact .refused _ _

theorem membership_together (hnan : first.comparesNaN = false) (hnull : first.answersNull = false) :
    Together first.Opposed (first.membershipQuestion false) (second.membershipQuestion true) := by
  unfold membershipQuestion
  rw [hvalue]
  rcases mapM_scalar_together htype hcontext (listValues first.value) with
    ⟨vs, hfirst, hsecond⟩ | ⟨e, e', hfirst, hsecond⟩
  · simp only [hfirst, hsecond, bind, Except.bind]
    cases vs.isEmpty with
    | true => exact .free
    | false =>
      refine .bound (opposed_of_exclude hnan (fun v hv => ?_) ?_)
      · unfold Value.isMember
        rw [hv]
        cases vs.any v.equals <;> rfl
      · rw [hnull, if_neg Bool.false_ne_true]
        exact ⟨rfl, rfl⟩
  · simp only [hfirst, hsecond, bind, Except.bind]
    exact .refused e e'

omit htype hcontext in
theorem pattern_together (before after : String) (hnan : first.comparesNaN = false)
    (hnull : first.answersNull = false) :
    Together first.Opposed ((first.patternQuestion before after false).map some)
      ((second.patternQuestion before after true).map some) := by
  unfold patternQuestion text
  rw [hvalue]
  cases Value.textOf? first.value with
  | none => exact .refused _ _
  | some s =>
    refine .bound (opposed_of_exclude hnan (fun v hv => ?_) ?_)
    · obtain ⟨written, hwritten⟩ : ∃ written, v.text? = some written := by
        cases v with
        | null => cases hv
        | _ => exact ⟨_, rfl⟩
      unfold Value.isLike
      rw [hwritten]
      simp
    · rw [hnull, if_neg Bool.false_ne_true]
      exact ⟨rfl, rfl⟩

omit htype hcontext hvalue in
theorem comparesNaN_of_value (h : first.operator ∈ [.equal, .less, .lessOrEqual]) :
    first.comparesNaN = first.readsNaN first.value := by
  unfold comparesNaN operands
  simp only [List.mem_cons, List.not_mem_nil, or_false] at h
  rcases h with h | h | h <;> rw [h] <;> simp

omit htype hcontext hvalue in
theorem comparesNaN_of_range (h : first.operator = .between) {low high : Json}
    (hrange : first.value = .array [low, high]) :
    first.comparesNaN = (first.readsNaN low || first.readsNaN high) := by
  unfold comparesNaN operands
  rw [h, hrange]
  simp

omit htype hcontext hvalue in
theorem comparesNaN_of_other
    (h : first.operator ∈ [.in_, .contains, .beginsWith, .endsWith, .isEmpty, .isNull]) :
    first.comparesNaN = false := by
  unfold comparesNaN operands
  simp only [List.mem_cons, List.not_mem_nil, or_false] at h
  rcases h with h | h | h | h | h | h <;> rw [h] <;> simp

/-- The questions of opposite operators go together, whatever the value. -/
theorem question_together {pair : Operator × Operator} (hpair : pair ∈ Operator.opposites)
    (hfirst : first.operator = pair.1) (hsecond : second.operator = pair.2) :
    Together first.Opposed first.question second.question := by
  have hvalueNaN := @comparesNaN_of_value first
  have hother := @comparesNaN_of_other first
  have hanswers : first.answersNull = (first.operator.isNullCheck || first.operator.isEmptyCheck ||
    ((first.operator == .equal || first.operator == .notEqual) && first.value.isNull)) := rfl
  unfold Operator.opposites at hpair
  simp only [List.mem_cons, List.not_mem_nil, or_false] at hpair
  unfold question
  rcases hpair with rfl | rfl | rfl | rfl | rfl | rfl | rfl | rfl | rfl | rfl <;>
    rw [hfirst] at hvalueNaN hother hanswers ⊢ <;> rw [hsecond]
  · exact equality_together htype hcontext hvalue (hvalueNaN (by decide)) hanswers
  · exact comparison_together htype hcontext hvalue (.inl rfl) (hvalueNaN (by decide)) hanswers
  · exact comparison_together htype hcontext hvalue (.inr rfl) (hvalueNaN (by decide)) hanswers
  · exact range_together htype hcontext hvalue (fun _ _ => comparesNaN_of_range hfirst) hanswers
  · exact membership_together htype hcontext hvalue (hother (by decide)) hanswers
  · exact pattern_together hvalue "%" "%" (hother (by decide)) hanswers
  · exact pattern_together hvalue "" "%" (hother (by decide)) hanswers
  · exact pattern_together hvalue "%" "" (hother (by decide)) hanswers
  · refine .bound (opposed_of_exclude (hother (by decide)) (fun _ _ => rfl) ?_)
    rw [hanswers]
    rfl
  · refine .bound (opposed_of_exclude (hother (by decide)) (fun _ _ => rfl) ?_)
    rw [hanswers]
    rfl

/-- So do their predicates, which ask these questions of the column. -/
theorem predicate_together (hcolumn : second.column = first.column) {pair : Operator × Operator}
    (hpair : pair ∈ Operator.opposites) (hfirst : first.operator = pair.1)
    (hsecond : second.operator = pair.2) :
    Together first.Excludes first.predicate second.predicate := by
  have hquestions := question_together htype hcontext hvalue hpair hfirst hsecond
  -- a predicate holds where its question does, so nothing else about the operators is needed
  have hasks := first.predicate_asks
  have hdenies := second.predicate_asks
  rw [hcolumn] at hdenies
  generalize first.question = x at hquestions hasks
  generalize second.question = y at hquestions hdenies
  generalize first.predicate = p at hasks ⊢
  generalize second.predicate = q at hdenies ⊢
  cases hquestions with
  | refused e e' =>
    cases hasks
    cases hdenies
    exact .refused e e'
  | free =>
    cases hasks
    cases hdenies
    exact .free
  | bound h =>
    cases hasks with
    | bound hasks =>
      cases hdenies with
      | bound hdenies =>
        refine .bound ⟨fun db frame hv hnumber hnumbers => ?_, fun db frame hnull => ?_,
          fun hnan db frame => ?_⟩
        · rw [hasks db frame, hdenies db frame]
          exact h.exclude _ hv hnumber hnumbers
        · rw [hasks db frame, hdenies db frame, hnull]
          exact h.null
        · rw [hasks db frame, hdenies db frame]
          exact h.nan hnan _

end

/-- Only an empty list is no constraint. -/
theorem listValues_of_free {op : Operation} (h : op.predicate = .ok none) :
    (op.operator = .in_ ∨ op.operator = .notIn) ∧ listValues op.value = [] := by
  have hmembership : ∀ negated, op.membership negated = .ok none → listValues op.value = [] := by
    intro negated h
    obtain ⟨vs, hvs, h⟩ := bind_eq_ok h
    split at h
    next hempty =>
      have hall := mapM_eq_ok hvs
      rw [List.isEmpty_iff.mp hempty] at hall
      exact List.forall₂_nil_right_iff.mp hall
    next => cases h
  unfold predicate at h
  cases hop : op.operator <;> rw [hop] at h
  case in_ => exact ⟨.inl rfl, hmembership false h⟩
  case notIn => exact ⟨.inr rfl, hmembership true h⟩
  case isEmpty | isNotEmpty | isNull | isNotNull => cases h
  -- the other operators make a constraint of every value that they take
  all_goals
    obtain ⟨p, -, hp⟩ := map_eq_ok h
    cases hp

end Operation

namespace Condition

open Compile

/-! ## Tags -/

/-- How tags of a list and no tags of it go together: both refuse the list, or it is empty and both
leave the query, or each adds a question about related rows, and one denies the other. -/
def TagsExclude (env : Environment) (filter : Filter) (value : Json) (connective : Connective)
    (q : Query) : Prop :=
  (∃ e, compileTags env filter .in_ value connective q = .error e ∧
    compileTags env filter .notIn value connective q = .error e) ∨
  (listValues value = [] ∧ compileTags env filter .in_ value connective q = .ok q ∧
    compileTags env filter .notIn value connective q = .ok q) ∨
  ∃ tagged untagged,
    compileTags env filter .in_ value connective q = .ok (q.addClause connective tagged) ∧
    compileTags env filter .notIn value connective q = .ok (q.addClause connective untagged) ∧
    ∀ db frame, predicateHolds db frame untagged = !predicateHolds db frame tagged

theorem tags_exclude (env : Environment) (filter : Filter) (value : Json)
    (connective : Connective) (q : Query) : TagsExclude env filter value connective q := by
  unfold TagsExclude compileTags
  cases filter.relation with
  | none => exact .inl ⟨_, rfl, rfl⟩
  | some relation =>
    cases hrelated : q.relationQuery env.registry relation with
    | error e =>
      simp only [bind, Except.bind, hrelated]
      exact .inl ⟨e, rfl, rfl⟩
    | ok pair =>
      obtain ⟨link, related⟩ := pair
      simp only [bind, Except.bind, hrelated]
      cases hlisted : columnPredicate env (related.column related.entity.primaryKey)
          (related.entity.columnType? related.entity.primaryKey) filter .in_ value filter.id with
      | error e => exact .inl ⟨e, rfl, rfl⟩
      | ok found =>
        cases found with
        | none => exact .inr (.inl ⟨(Operation.listValues_of_free hlisted).2, rfl, rfl⟩)
        | some p =>
          refine .inr (.inr ⟨_, _, rfl, rfl, fun db frame => ?_⟩)
          rw [predicateHolds, predicateHolds, Bool.bne_true, Bool.bne_false]

/-! ## Complements -/

/-- Opposite operators take the same values, and only an empty list is no constraint.  Exactly one
of them holds of a stored value of the column type, unless a value to compare with is no number:
then neither does.  Of null neither holds, unless they test for null or for empty text or the value
is null: then exactly one does.  And of every row exactly one holds of tags of a list and no tags of
it. -/
theorem opposites_exclude (env : Environment) (filter : Filter) (value : Json) :
    (∀ (declared : Option ColumnType) (column : Column) (field : String),
      ∀ pair ∈ Operator.opposites,
        Together (Operation.Excludes
            ⟨column, declared.getD filter.kind.columnType, pair.1, value, field, env.context⟩)
          (columnPredicate env column declared filter pair.1 value field)
          (columnPredicate env column declared filter pair.2 value field) ∧
        (columnPredicate env column declared filter pair.1 value field = .ok none →
          pair.1 = .in_ ∧ listValues value = [])) ∧
    ∀ (connective : Connective) (q : Query), TagsExclude env filter value connective q := by
  refine ⟨?_, tags_exclude env filter value⟩
  intro declared column field pair hpair
  constructor
  · exact Operation.predicate_together rfl rfl rfl rfl hpair rfl rfl
  · intro hfree
    obtain ⟨hlist, hempty⟩ := Operation.listValues_of_free hfree
    have hpairs : ∀ pair ∈ Operator.opposites, pair.1 = .in_ ∨ pair.1 = .notIn → pair.1 = .in_ := by
      decide
    exact ⟨hpairs pair hpair hlist, hempty⟩

/-- An instant is before a local day two hours to the east or it is not. -/
theorem opposites_exclude_sample :
    let env : Environment := ⟨Sample.registry, { now := ⟨0, 0⟩, timezone := ⟨7200⟩ }, none⟩
    let frame : Frame := [("contacts", some [("seen", .instant ⟨1710064800, 0⟩)])]
    let accepts (operator : Operator) (p : Predicate) : Prop :=
      columnPredicate env (.field "contacts" "seen") (some .dateTime)
        (Filter.plain .dateTime "seen" "Seen") operator (.string "2024-03-10") "seen" = .ok (some p)
    ∃ before since, accepts .less before ∧ accepts .greaterOrEqual since ∧
      predicateHolds Sample.dataset frame since = !predicateHolds Sample.dataset frame before := by
  intro env frame accepts
  have hsome : (columnPredicate env (.field "contacts" "seen") (some .dateTime)
      (Filter.plain .dateTime "seen" "Seen") .less (.string "2024-03-10")
      "seen").toOption.join.isSome = true := by
    decide +kernel
  obtain ⟨before, hbefore⟩ := Option.isSome_iff_exists.mp hsome
  have hless : accepts .less before := ok_of_toOption (Option.join_eq_some_iff.mp hbefore)
  obtain ⟨htogether, -⟩ := (opposites_exclude env (Filter.plain .dateTime "seen" "Seen")
    (.string "2024-03-10")).1 (some .dateTime) (.field "contacts" "seen") "seen"
    (.less, .greaterOrEqual) (by decide)
  rw [hless] at htogether
  generalize hsince : columnPredicate env _ _ _ _ _ _ = outcome at htogether
  cases htogether with
  | bound hexcludes =>
    exact ⟨before, _, hless, hsince,
      hexcludes.exclude Sample.dataset frame (by decide +kernel) (by decide +kernel)
        (by decide +kernel)⟩

/-- Seven neither equals what is no number nor differs from it, and is neither below it nor not. -/
theorem seven_undecided :
    let env : Environment := ⟨Sample.registry, { now := ⟨0, 0⟩ }, none⟩
    let frame : Frame := [("contacts", some [("score", .decimal (.ofInt 7))])]
    let holds (operator : Operator) : Option Bool :=
      (columnPredicate env (.field "contacts" "score") (some .decimal)
        (Filter.plain .number "score" "Score") operator (.string "NaN") "score").toOption.join.map
          (predicateHolds Sample.dataset frame)
    holds .equal = some false ∧ holds .notEqual = some false ∧
      holds .less = some false ∧ holds .greaterOrEqual = some false := by
  decide +kernel

end Condition
end Winnow
