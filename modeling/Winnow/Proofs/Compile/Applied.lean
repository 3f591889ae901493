import Winnow.Compile.Overflow
import Winnow.Proofs.Compile.Additions
import Winnow.Proofs.Condition.Ranges

/-!
# The operator that a rule applies

The predicate of a rule that applies an operator is the predicate of the
operator, as a question about related rows where the column is one of theirs
(`compileLeaf_applies`).  An operator on values can be used exactly when each of
them is read (`predicate_isOk_iff`).
-/

namespace Winnow

/-! ## Values that are read -/

namespace Operation

variable {op : Operation}

theorem isOk_of_dateOnly? {json : Json} {date : Date} (h : op.dateOnly? json = some date) :
    (op.scalar json).isOk = true ∧ (op.localDay date).isOk = true := by
  rw [scalar_of_dateOnly? h, localDay_of_dateOnly? h]
  exact ⟨rfl, rfl⟩

theorem equality_isOk (hvalue : op.value ≠ .null) (negated : Bool) :
    (op.equality negated).isOk = (op.scalar op.value).isOk := by
  have hnull : op.value.isNull = false := by
    cases h : op.value with
    | null => exact absurd h hvalue
    | _ => rfl
  unfold equality
  rw [if_neg (by simp [hnull])]
  cases hdate : op.dateOnly? op.value with
  | some date =>
    obtain ⟨hscalar, hday⟩ := isOk_of_dateOnly? hdate
    obtain ⟨days, hdays⟩ := ok_of_isOk hday
    simp only [hdays, hscalar, bind, Except.bind]
    rfl
  | none => cases op.scalar op.value <;> rfl

theorem comparison_isOk (comparison : Comparison) :
    (op.comparison comparison).isOk = (op.scalar op.value).isOk := by
  unfold Operation.comparison
  cases hdate : op.dateOnly? op.value with
  | some date =>
    obtain ⟨hscalar, hday⟩ := isOk_of_dateOnly? hdate
    obtain ⟨days, hdays⟩ := ok_of_isOk hday
    simp only [hdays, hscalar, bind, Except.bind]
    rfl
  | none => cases op.scalar op.value <;> rfl

theorem range_isOk {low high : Json} (hvalue : op.value = .array [low, high]) (negated : Bool) :
    (op.range negated).isOk = ((op.scalar low).isOk && (op.scalar high).isOk) := by
  unfold range
  rw [hvalue]
  simp only
  split
  next first last hfirst hlast =>
    obtain ⟨hlow, hday⟩ := isOk_of_dateOnly? hfirst
    obtain ⟨hhigh, hday'⟩ := isOk_of_dateOnly? hlast
    obtain ⟨days, hdays⟩ := ok_of_isOk hday
    obtain ⟨days', hdays'⟩ := ok_of_isOk hday'
    simp only [hdays, hdays', hlow, hhigh, bind, Except.bind]
    rfl
  next =>
    cases op.scalar low <;> cases op.scalar high <;> rfl

theorem membership_isOk (negated : Bool) :
    (op.membership negated).isOk = true ↔
      ∀ json ∈ listValues op.value, (op.scalar json).isOk = true := by
  rw [← mapM_isOk_iff]
  unfold membership
  cases (listValues op.value).mapM op.scalar with
  | error error => exact Iff.rfl
  | ok values =>
    simp only [bind, Except.bind]
    split <;> exact Iff.rfl

/-- A range that reads values has two of them. -/
theorem exists_bounds (hoperator : op.operator = .between ∨ op.operator = .notBetween)
    (hsome : op.operands ≠ []) : ∃ low high, op.value = .array [low, high] := by
  unfold operands at hsome
  rcases hoperator with hoperator | hoperator <;> rw [hoperator] at hsome <;> split at hsome <;>
    first
    | exact ⟨_, _, ‹_›⟩
    | contradiction

/-- An operator that reads values can be used exactly when each of them is read. -/
theorem predicate_isOk_iff (hsome : op.operands ≠ []) (hnull : .null ∉ op.operands) :
    op.predicate.isOk = true ↔ ∀ json ∈ op.operands, (op.scalar json).isOk = true := by
  have hmap : ∀ x : Except CompileError Predicate, (x.map some).isOk = x.isOk := by
    intro x
    cases x <;> rfl
  have hrange : ∀ negated, (op.operator = .between ∨ op.operator = .notBetween) →
      ((op.range negated).isOk = true ↔ ∀ json ∈ op.operands, (op.scalar json).isOk = true) := by
    intro negated hoperator
    obtain ⟨low, high, hvalue⟩ := exists_bounds hoperator hsome
    rw [range_isOk hvalue, (operands_range hoperator hvalue).1, Bool.and_eq_true]
    simp
  unfold predicate
  cases hop : op.operator
  case between => exact hmap _ ▸ hrange false (.inl hop)
  case notBetween => exact hmap _ ▸ hrange true (.inr hop)
  all_goals
    unfold operands at hsome hnull ⊢
    simp only [hop] at hsome hnull ⊢
  case equal | notEqual =>
    rw [hmap, equality_isOk (by simpa [eq_comm] using hnull)]
    simp
  case less | lessOrEqual | greater | greaterOrEqual =>
    rw [hmap, comparison_isOk]
    simp
  case in_ | notIn => exact membership_isOk _
  all_goals exact absurd rfl hsome

end Operation

/-! ## From the operator to the rule -/

namespace Compile

theorem predicate_map_id (x : Except CompileError (Option Predicate)) : x = x.map (·.map id) := by
  rcases x with error | _ | p <;> rfl

section
variable {env : Environment} {filter : Filter} {operator : Operator} {value : Json}
  {op : Operation}

/-- Through relations the predicate of the operator is asked of related rows. -/
theorem relatedPredicate_applies {field column : String} {relations : List String} {q : Query}
    (h : relatedOperation env filter operator value field column relations q = .ok op) :
    ∃ asked : Predicate → Predicate,
      relatedPredicate env filter operator value field column relations q =
        op.predicate.map (·.map asked) := by
  induction relations generalizing q with
  | nil =>
    cases h
    exact ⟨id, predicate_map_id _⟩
  | cons relation rest ih =>
    obtain ⟨⟨link, related⟩, hquery, h⟩ := bind_eq_ok h
    obtain ⟨asked, hasked⟩ := ih h
    refine ⟨fun p => .related link (related.addClause .and (asked p)) false, ?_⟩
    unfold relatedPredicate
    rw [hquery]
    simp only [hasked, bind, Except.bind]
    rcases op.predicate with error | _ | p <;> rfl

theorem fieldPredicate_applies {field : String} {q : Query}
    (h : fieldOperation env q field filter operator value = .ok op) :
    ∃ asked : Predicate → Predicate,
      fieldPredicate env q field filter operator value = op.predicate.map (·.map asked) := by
  unfold fieldOperation at h
  unfold fieldPredicate
  cases hparts : filter.dateTimeParts with
  | some parts =>
    rw [hparts] at h
    cases h
    exact ⟨id, predicate_map_id _⟩
  | none =>
    rw [hparts] at h
    simp only at h ⊢
    split at h
    next hown =>
      cases h
      rw [if_pos hown]
      exact ⟨id, predicate_map_id _⟩
    next hrelated =>
      rw [if_neg hrelated]
      cases htarget : joinOf? env q (env.registry.splitPath q.entity field) with
      | some target =>
        simp only [htarget] at h ⊢
        obtain ⟨related, hwalk, h⟩ := bind_eq_ok h
        cases h
        simp only [hwalk, bind, Except.bind]
        exact ⟨id, predicate_map_id _⟩
      | none =>
        simp only [htarget] at h ⊢
        exact relatedPredicate_applies h

theorem map_map_predicate (x : Except CompileError (Option Predicate)) (f g : Predicate → Predicate) :
    (x.map (·.map f)).map (·.map g) = x.map (·.map (g ∘ f)) := by
  rcases x with error | _ | p <;> rfl

/-- Whatever the kind of the rule, its predicate is that of its operator. -/
theorem resolvedPredicate_applies {r : Resolved} {q : Query}
    (h : resolvedOperation? env r value q = some op) :
    ∃ asked : Predicate → Predicate,
      resolvedPredicate env r value q = op.predicate.map (·.map asked) := by
  unfold resolvedOperation? at h
  unfold resolvedPredicate
  simp only at h
  split at h
  next hmany =>
    rw [if_pos hmany]
    obtain ⟨related, hrelated, h⟩ := Option.bind_eq_some_iff.mp h
    obtain ⟨relation, hrelation, hrelated⟩ := Option.bind_eq_some_iff.mp hrelated
    obtain ⟨⟨link, _⟩, hquery, heq⟩ := Option.bind_eq_some_iff.mp hrelated
    cases heq
    obtain ⟨asked, hasked⟩ := fieldPredicate_applies (ok_of_toOption h)
    unfold hasManyPredicate
    simp only [hrelation, ok_of_toOption hquery, bind, Except.bind, hasked, map_map_predicate]
    exact ⟨_, rfl⟩
  next hmany =>
    rw [if_neg hmany]
    split at h
    next => cases h
    next hcountable =>
      rw [Option.not_isSome_iff_eq_none.mp hcountable]
      simp only
      split at h
      next htags =>
        rw [if_pos htags]
        split at h
        next hlist =>
          obtain ⟨related, hrelated, heq⟩ := Option.map_eq_some_iff.mp h
          obtain ⟨relation, hrelation, hrelated⟩ := Option.bind_eq_some_iff.mp hrelated
          obtain ⟨⟨link, _⟩, hquery, hsame⟩ := Option.bind_eq_some_iff.mp hrelated
          cases hsame
          subst heq
          unfold tagsPredicate
          simp only [hrelation, ok_of_toOption hquery, bind, Except.bind]
          rcases hlist with hlist | hlist <;> simp only [hlist] <;> exact ⟨_, rfl⟩
        next => cases h
      next htags =>
        rw [if_neg htags]
        exact fieldPredicate_applies (ok_of_toOption h)

/-- A rule that applies an operator compiles as the operator does. -/
theorem compileLeaf_applies {filters : FilterSet} {q : Query} {leaf : Rule.Leaf}
    (h : leafOperation? filters env q leaf = some op) : ∃ asked : Predicate → Predicate,
      ∀ connective, compileLeaf filters env leaf connective q =
        op.predicate.map fun p => q.addPredicate connective (p.map asked) := by
  obtain ⟨r, hr, h⟩ := Option.bind_eq_some_iff.mp h
  split at h
  next => cases h
  next hcustom =>
    obtain ⟨asked, hasked⟩ := resolvedPredicate_applies h
    refine ⟨asked, fun connective => ?_⟩
    unfold compileLeaf
    rw [ok_of_toOption hr]
    refine (compileResolved_eq env r leaf connective q
      (Option.not_isSome_iff_eq_none.mp hcustom)).trans ?_
    rw [hasked]
    rcases op.predicate with error | p <;> rfl

end

end Compile
end Winnow
