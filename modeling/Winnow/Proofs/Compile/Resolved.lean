import Winnow.Compile.Leaf

/-!
# What a usable rule is made of

The parts of a usable rule belong together: its filter is the one the rule
names, its operand is one of that filter, and both accept the operator
(`resolve_ok_iff`).  So what holds of every custom predicate of a filter set
holds of the one that takes over a rule (`EachCustom.of_resolve`).

A filter with operands wraps whole filters.  Of the filter of an operand a rule
uses its operators, its kind and its columns; whether the user may use it is not
looked at, so rules compile as they do with the filters of all operands open
(`compileLeaf_opened`).
-/

namespace Winnow

/-- Whether something holds of every custom predicate that can take over a rule. -/
def FilterSet.EachCustom (set : FilterSet) (P : CustomPredicate → Prop) : Prop :=
  ∀ f ∈ set.filters, (∀ custom, f.custom = some custom → P custom) ∧
    ∀ operand ∈ f.operands, ∀ custom, operand.filter.custom = some custom → P custom

/-- Whether no custom predicate can take over a rule. -/
def FilterSet.Plain (set : FilterSet) : Prop := set.EachCustom fun _ => False

/-- Then anything holds of each. -/
theorem FilterSet.Plain.eachCustom {set : FilterSet} (h : set.Plain) (P : CustomPredicate → Prop) :
    set.EachCustom P := by
  intro f hf
  obtain ⟨hfilter, hoperands⟩ := h f hf
  refine ⟨fun custom hcustom => ?_, fun operand hoperand custom hcustom => ?_⟩
  · exact (hfilter custom hcustom).elim
  · exact (hoperands operand hoperand custom hcustom).elim

namespace Compile

theorem resolve_ok_iff (filters : FilterSet) (leaf : Rule.Leaf) (r : Resolved) :
    resolve filters leaf = .ok r ↔
      filters.get? leaf.rule = some r.filter ∧ r.filter.isAuthorized = true ∧
        Operator.ofToken? leaf.operator = some r.operator ∧
        resolveOperand r.filter leaf = .ok r.operand ∧
        isAllowed r.filter r.operand r.operator = true := by
  obtain ⟨filter, operator, operand⟩ := r
  unfold resolve
  simp only [bind, Except.bind]
  cases hf : filters.get? leaf.rule with
  | none => simp
  | some f =>
    cases hauth : f.isAuthorized with
    | false =>
      have hnone : (some f).filter Filter.isAuthorized = none := by simp [Option.filter, hauth]
      simp only [hnone, reduceCtorEq, Option.some.injEq, false_iff]
      rintro ⟨rfl, h, -⟩
      rw [hauth] at h
      cases h
    | true =>
      have hsome : (some f).filter Filter.isAuthorized = some f := by simp [Option.filter, hauth]
      simp only [hsome]
      cases hop : Operator.ofToken? leaf.operator with
      | none => simp
      | some op =>
        simp only
        cases hopd : resolveOperand f leaf with
        | error e =>
          simp only [reduceCtorEq, Option.some.injEq, false_iff]
          rintro ⟨rfl, -, -, h, -⟩
          rw [hopd] at h
          cases h
        | ok opd =>
          by_cases hall : isAllowed f opd op = true
          · simp only [hall, if_true, Except.ok.injEq, Resolved.mk.injEq, Option.some.injEq]
            constructor
            · rintro ⟨rfl, rfl, rfl⟩
              exact ⟨rfl, hauth, rfl, hopd, hall⟩
            · rintro ⟨rfl, -, rfl, h, -⟩
              rw [hopd] at h
              exact ⟨rfl, rfl, Except.ok.inj h⟩
          · simp only [hall, Bool.false_eq_true, if_false, reduceCtorEq, Option.some.injEq,
              false_iff]
            rintro ⟨rfl, -, rfl, h, h'⟩
            rw [hopd] at h
            cases h
            exact hall h'

theorem resolveOperand_mem (filter : Filter) (leaf : Rule.Leaf) (operand : Operand)
    (h : resolveOperand filter leaf = .ok (some operand)) : operand ∈ filter.operands := by
  unfold resolveOperand at h
  split at h
  · cases hb : leaf.operand.bind filter.operand? with
    | none => simp [hb] at h
    | some o =>
      simp only [hb, Except.ok.injEq, Option.some.injEq] at h
      subst h
      obtain ⟨value, -, hfind⟩ := Option.bind_eq_some_iff.mp hb
      exact List.mem_of_find?_eq_some hfind
  · cases h

/-- The custom predicate that takes over a rule is one of the filter set. -/
theorem EachCustom.of_resolve {filters : FilterSet} {P : CustomPredicate → Prop}
    (hall : filters.EachCustom P) {leaf : Rule.Leaf} {r : Resolved}
    (hr : resolve filters leaf = .ok r) {custom : CustomPredicate}
    (hcustom : r.custom? = some custom) : P custom := by
  obtain ⟨hfilter, -, -, hoperand, -⟩ := (resolve_ok_iff filters leaf r).mp hr
  obtain ⟨hown, hoperands⟩ := hall r.filter (List.mem_of_find?_eq_some hfilter)
  unfold Resolved.custom? at hcustom
  cases hf : r.filter.custom with
  | some c =>
    rw [hf] at hcustom
    exact hown custom (hf.trans hcustom)
  | none =>
    rw [hf] at hcustom
    simp only [Resolved.target] at hcustom
    cases ho : r.operand with
    | none =>
      rw [ho] at hcustom
      exact hown custom hcustom
    | some operand =>
      rw [ho] at hcustom hoperand
      exact hoperands operand (resolveOperand_mem r.filter leaf operand hoperand) custom hcustom

theorem custom_none_of_plain {filters : FilterSet} (hplain : filters.Plain) {leaf : Rule.Leaf}
    {r : Resolved} (hr : resolve filters leaf = .ok r) : r.custom? = none := by
  cases h : r.custom? with
  | none => rfl
  | some custom => exact (EachCustom.of_resolve hplain hr h).elim

end Compile

/-! ## Filters of operands -/

/-- The operand with its filter open to the user. -/
def Operand.opened (operand : Operand) : Operand :=
  { operand with filter := { operand.filter with authorization := none } }

/-- The filter with those of its operands open to the user. -/
def Filter.opened (f : Filter) : Filter := { f with operands := f.operands.map Operand.opened }

/-- The filters with those of their operands open to the user. -/
def FilterSet.opened (set : FilterSet) : FilterSet := ⟨set.filters.map Filter.opened⟩

/-! ## Filters -/

namespace Filter

/-- What operators a filter accepts does not depend on who may use it. -/
theorem allows_decided (op : Operator) (f : Filter) (authorization : Option Bool) :
    allows op { f with authorization := authorization } = allows op f := by
  cases f
  rfl

theorem someAllows_opened (op : Operator) (operands : List Operand) :
    someAllows op (operands.map Operand.opened) = someAllows op operands := by
  induction operands with
  | nil => rfl
  | cons operand rest ih =>
    obtain ⟨value, label, f⟩ := operand
    rw [List.map_cons, Operand.opened, someAllows, someAllows, allows_decided, ih]

theorem allows_opened (op : Operator) (f : Filter) : allows op f.opened = allows op f := by
  cases f
  unfold opened allows
  rw [someAllows_opened]
  rfl

theorem operand?_opened (f : Filter) (value : String) :
    f.opened.operand? value = (f.operand? value).map Operand.opened := by
  unfold operand? opened
  rw [List.find?_map]
  rfl

end Filter

theorem FilterSet.get?_opened (set : FilterSet) (id : String) :
    set.opened.get? id = (set.get? id).map Filter.opened := by
  unfold get? opened
  rw [List.find?_map]
  rfl

/-! ## Rules -/

namespace Compile

/-- The parts of a rule with the filters of operands open to the user. -/
def Resolved.opened (r : Resolved) : Resolved :=
  ⟨r.filter.opened, r.operator, r.operand.map Operand.opened⟩

theorem resolveOperand_opened (f : Filter) (leaf : Rule.Leaf) :
    resolveOperand f.opened leaf =
      (resolveOperand f leaf).map (Option.map Operand.opened) := by
  unfold resolveOperand
  show (if f.kind.usesOperands then _ else _) = _
  split
  · have hfind : leaf.operand.bind f.opened.operand? =
        (leaf.operand.bind f.operand?).map Operand.opened := by
      cases leaf.operand with
      | none => rfl
      | some value => exact f.operand?_opened value
    rw [hfind]
    cases leaf.operand.bind f.operand? <;> rfl
  · rfl

theorem isAllowed_opened (f : Filter) (operand : Option Operand) (operator : Operator) :
    isAllowed f.opened (operand.map Operand.opened) operator = isAllowed f operand operator := by
  cases operand with
  | none => exact f.allows_opened operator
  | some operand =>
    show (Filter.allows operator f.opened && Filter.allows operator operand.opened.filter) = _
    rw [Filter.allows_opened]
    exact congrArg _ (Filter.allows_decided operator operand.filter none)

theorem resolve_opened (filters : FilterSet) (leaf : Rule.Leaf) :
    resolve filters.opened leaf = (resolve filters leaf).map Resolved.opened := by
  have hfind : (filters.opened.get? leaf.rule).filter Filter.isAuthorized =
      ((filters.get? leaf.rule).filter Filter.isAuthorized).map Filter.opened := by
    rw [FilterSet.get?_opened, Option.filter_map]
    rfl
  unfold resolve
  rw [hfind]
  cases (filters.get? leaf.rule).filter Filter.isAuthorized with
  | none => rfl
  | some f =>
    cases Operator.ofToken? leaf.operator with
    | none => rfl
    | some operator =>
      simp only [Option.map_some, resolveOperand_opened, bind, Except.bind]
      cases resolveOperand f leaf with
      | error error => rfl
      | ok operand =>
        simp only [Except.map, isAllowed_opened]
        split <;> rfl

/-- A predicate on a field depends on the kind of the filter and on the columns of its parts. -/
theorem fieldPredicate_congr (env : Environment) (q : Query) (field : String) {f f' : Filter}
    (hkind : f.kind = f'.kind) (hparts : f.dateTimeParts = f'.dateTimeParts) (operator : Operator)
    (value : Json) :
    fieldPredicate env q field f operator value = fieldPredicate env q field f' operator value := by
  have hcolumn : ∀ column declared, columnPredicate env column declared f operator value field =
      columnPredicate env column declared f' operator value field := by
    intro column declared
    unfold columnPredicate
    rw [hkind]
  have hrelated : ∀ column relations q,
      relatedPredicate env f operator value field column relations q =
        relatedPredicate env f' operator value field column relations q := by
    intro column relations
    induction relations with
    | nil => exact fun q => hcolumn ..
    | cons relation rest ih =>
      intro q
      unfold relatedPredicate
      simp only [ih]
  unfold fieldPredicate
  simp only [hparts, hcolumn, hrelated]

theorem compileResolved_opened (env : Environment) (r : Resolved) (leaf : Rule.Leaf)
    (connective : Connective) (q : Query) :
    compileResolved env r.opened leaf connective q = compileResolved env r leaf connective q := by
  obtain ⟨hname, hkind, hparts, hcustom⟩ : r.opened.field = r.field ∧
      r.opened.target.kind = r.target.kind ∧
      r.opened.target.dateTimeParts = r.target.dateTimeParts ∧ r.opened.custom? = r.custom? := by
    obtain ⟨f, operator, operand⟩ := r
    cases operand <;> exact ⟨rfl, rfl, rfl, rfl⟩
  have hfield : ∀ q, fieldPredicate env q r.opened.field r.opened.target r.opened.operator
      leaf.value = fieldPredicate env q r.field r.target r.operator leaf.value := by
    intro q
    rw [hname, fieldPredicate_congr env q r.field hkind hparts]
    rfl
  unfold compileResolved compileHasMany compileField
  simp only [hfield, hcustom]
  rfl

/-- Whether the user may use the filter of an operand is not looked at. -/
theorem compileLeaf_opened (filters : FilterSet) (env : Environment) (leaf : Rule.Leaf)
    (connective : Connective) (q : Query) :
    compileLeaf filters.opened env leaf connective q =
      compileLeaf filters env leaf connective q := by
  unfold compileLeaf
  rw [resolve_opened]
  cases resolve filters leaf with
  | error error => rfl
  | ok r => exact compileResolved_opened env r leaf connective q

end Compile
end Winnow
