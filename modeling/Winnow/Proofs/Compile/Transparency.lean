import Winnow.Proofs.Compile.Additions
import Winnow.Proofs.Compile.Resolved
import Winnow.Proofs.Filter.Accepted
import Winnow.Proofs.Sample

/-!
# Operands and direct rules

A rule with an operand compares the field of the operand, whatever kind of
filter stands behind it (`compileLeaf_operand`).  So it compiles as a rule on
that filter itself does where that is such a comparison too
(`operands_transparent`), and differently for tags, counts and filters with
operands of their own, which the rule on the filter itself treats by kind.
-/

namespace Winnow

/-- Whether the work of a custom predicate does not depend on the filter and the operand that the
rule names. -/
def CustomPredicate.IgnoresNames (custom : CustomPredicate) : Prop :=
  ∀ env value connective operator leaf leaf' q,
    custom.apply env ⟨value, connective, operator, leaf⟩ q =
      custom.apply env ⟨value, connective, operator, leaf'⟩ q

/-- Whether a rule on the filter compares its field, when no custom predicate takes over. -/
def Filter.ComparesField (f : Filter) : Prop := f.kind ≠ .tags ∧ f.countable = none

namespace Compile

/-! ## What a rule is made of -/

section
variable {filters : FilterSet} {outer : Filter} {operand : Operand} {operator : Operator}
  {token : String} (htoken : Operator.ofToken? token = some operator)

include htoken

/-- A rule that selects an operand is made of its filter, its operator and the operand. -/
theorem resolve_operand (hget : filters.get? outer.id = some outer)
    (hauthorized : outer.isAuthorized = true) (huses : outer.kind.usesOperands = true)
    (hoperand : outer.operand? operand.value = some operand)
    (hallowed : outer.allowsWith operand operator = true) (value : Json) :
    resolve filters ⟨outer.id, token, some operand.value, value⟩ =
      .ok ⟨outer, operator, some operand⟩ := by
  refine (resolve_ok_iff filters _ _).mpr ⟨hget, hauthorized, htoken, ?_, hallowed⟩
  unfold resolveOperand
  simp only [huses, if_true, Option.bind_some, hoperand]

theorem resolve_direct {f : Filter} (hget : filters.get? f.id = some f)
    (hauthorized : f.isAuthorized = true) (huses : f.kind.usesOperands = false)
    (hallowed : Filter.allows operator f = true) (value : Json) :
    resolve filters ⟨f.id, token, none, value⟩ = .ok ⟨f, operator, none⟩ := by
  refine (resolve_ok_iff filters _ _).mpr ⟨hget, hauthorized, htoken, ?_, hallowed⟩
  unfold resolveOperand
  simp only [huses, Bool.false_eq_true, if_false]

end

/-- A filter whose operands are fields compares the field of the operand. -/
theorem resolvedPredicate_operand {env : Environment} {outer : Filter} (operand : Operand)
    (operator : Operator) (hkind : outer.kind = .operand ∨ outer.kind = .nullableOperand)
    (hcountable : outer.countable = none) (value : Json) (q : Query) :
    resolvedPredicate env ⟨outer, operator, some operand⟩ value q =
      fieldPredicate env q operand.value operand.filter operator value := by
  unfold resolvedPredicate
  rcases hkind with hkind | hkind <;> simp only [hkind, hcountable] <;> rfl

theorem resolvedPredicate_direct {env : Environment} {f : Filter} (operator : Operator)
    (hcompares : f.ComparesField) (huses : f.kind.usesOperands = false) (value : Json) (q : Query) :
    resolvedPredicate env ⟨f, operator, none⟩ value q =
      fieldPredicate env q f.field f operator value := by
  have hmany : f.kind ≠ .hasMany := by
    intro h
    rw [h] at huses
    cases huses
  unfold resolvedPredicate
  rw [if_neg (by simpa using hmany), hcompares.2]
  simp only
  rw [if_neg (by simpa using hcompares.1)]
  rfl

/-! ## Both rules -/

section
variable {filters direct : FilterSet} {env : Environment} {outer : Filter} {operand : Operand}
  {operator : Operator} {selecting itself : Rule.Leaf}
  (hkind : outer.kind = .operand ∨ outer.kind = .nullableOperand)
  (hcountable : outer.countable = none) (hcustom : outer.custom = none)

include hkind hcountable hcustom

section
variable (hselecting : resolve filters selecting = .ok ⟨outer, operator, some operand⟩)

include hselecting

/-- Where no custom predicate takes over, a rule with an operand is a comparison of the field. -/
theorem compileLeaf_operand (hbehind : operand.filter.custom = none) (connective : Connective)
    (q : Query) :
    compileLeaf filters env selecting connective q =
      (fieldPredicate env q operand.value operand.filter operator selecting.value).map
        (q.addPredicate connective) := by
  have hnone : (⟨outer, operator, some operand⟩ : Resolved).custom? = none := by
    unfold Resolved.custom?
    rw [hcustom]
    exact hbehind
  unfold compileLeaf
  rw [hselecting]
  refine (compileResolved_eq env _ selecting connective q hnone).trans ?_
  rw [resolvedPredicate_operand operand operator hkind hcountable]

/-- A rule with an operand compiles as one with the same value on the filter behind the operand. -/
theorem compileLeaf_direct
    (hitself : resolve direct itself = .ok ⟨operand.filter, operator, none⟩)
    (hvalue : itself.value = selecting.value) (hfield : operand.filter.field = operand.value)
    (huses : operand.filter.kind.usesOperands = false)
    (hignores : ∀ custom, operand.filter.custom = some custom → custom.IgnoresNames)
    (hcompares : operand.filter.custom = none → operand.filter.ComparesField)
    (connective : Connective) (q : Query) :
    compileLeaf filters env selecting connective q =
      compileLeaf direct env itself connective q := by
  cases hbehind : operand.filter.custom with
  | none =>
    have hnone : (⟨operand.filter, operator, none⟩ : Resolved).custom? = none := by
      unfold Resolved.custom?
      rw [hbehind]
      exact hbehind
    rw [compileLeaf_operand hkind hcountable hcustom hselecting hbehind]
    unfold compileLeaf
    rw [hitself]
    refine Eq.trans ?_ (compileResolved_eq env _ itself connective q hnone).symm
    rw [resolvedPredicate_direct operator (hcompares hbehind) huses, hfield, hvalue]
  | some custom =>
    unfold compileLeaf
    rw [hselecting, hitself]
    show compileResolved env _ _ _ _ = compileResolved env _ _ _ _
    unfold compileResolved Resolved.custom? Resolved.target
    simp only [hcustom, hbehind]
    unfold compileCustom
    rw [hvalue, hignores custom hbehind env selecting.value connective operator selecting itself]

end

/-- Both rules ask for the same join. -/
theorem leafPath?_operand {token : String} {value : Json}
    (hget : filters.get? outer.id = some outer)
    (hdirect : direct.get? operand.filter.id = some operand.filter)
    (hoperand : outer.operand? operand.value = some operand)
    (hfield : operand.filter.field = operand.value) (hbehind : operand.filter.custom = none)
    (huses : operand.filter.kind.usesOperands = false) (hcompares : operand.filter.ComparesField)
    (registry : Registry) (entity : Entity) :
    leafPath? filters registry entity ⟨outer.id, token, some operand.value, value⟩ =
      leafPath? direct registry entity ⟨operand.filter.id, token, none, value⟩ := by
  have hmany : operand.filter.kind ≠ .hasMany := by
    intro h
    rw [h] at huses
    cases huses
  have houter : outer.kind.usesOperands = true ∧ outer.kind ≠ .hasMany ∧ outer.kind ≠ .tags := by
    rcases hkind with hkind | hkind <;> rw [hkind] <;> decide
  unfold leafPath?
  simp only [hget, hdirect, bind, Option.bind, hcustom, hbehind, hcountable, hcompares.2, houter.1,
    huses, hoperand, hfield, if_true, Option.isSome_none, Bool.false_or,
    beq_eq_false_iff_ne.mpr hmany, beq_eq_false_iff_ne.mpr hcompares.1,
    beq_eq_false_iff_ne.mpr houter.2.1, beq_eq_false_iff_ne.mpr houter.2.2]
  rfl

end

/-! ## Transparency -/

/-- Let a filter of an accepted set, whose operands are fields, be open to the user and without a
custom predicate of its own, and let a rule on it select an operand by its value, which is the field
of the filter behind it, with an operator that both allow.  That filter is accepted by itself.
Without a custom predicate behind it, the rule compares the field by the kind and the parts of that
filter, whatever kind that is.  The rule compiles as the same rule on the filter itself, with the same
error if there is one, and asks for the same join, provided that the filter is open to the user, has
no operands of its own, and is neither a filter on tags nor a count unless a custom predicate takes
over, which must not look at the names in the rule. -/
theorem operands_transparent (env : Environment) {declared : List Filter} {filters : FilterSet}
    (haccepted : FilterSet.ofList declared = .ok filters) {outer : Filter}
    (houter : outer ∈ filters.filters)
    (hkind : outer.kind = .operand ∨ outer.kind = .nullableOperand)
    (hauthorized : outer.isAuthorized = true) (hcustom : outer.custom = none) {operand : Operand}
    (hoperand : outer.operand? operand.value = some operand)
    (hfield : operand.filter.field = operand.value) {operator : Operator} {token : String}
    (htoken : Operator.ofToken? token = some operator)
    (hallowed : outer.allowsWith operand operator = true) :
    let direct : FilterSet := ⟨[operand.filter]⟩
    let selecting (value : Json) : Rule.Leaf := ⟨outer.id, token, some operand.value, value⟩
    let itself (value : Json) : Rule.Leaf := ⟨operand.filter.id, token, none, value⟩
    FilterSet.ofList [operand.filter] = .ok direct ∧
    (operand.filter.custom = none → ∀ value connective q,
      compileLeaf filters env (selecting value) connective q =
        (fieldPredicate env q operand.value operand.filter operator value).map
          (q.addPredicate connective)) ∧
    (operand.filter.isAuthorized = true → operand.filter.kind.usesOperands = false →
      (∀ custom, operand.filter.custom = some custom → custom.IgnoresNames) →
      (operand.filter.custom = none → operand.filter.ComparesField) →
      ∀ value connective q,
        compileLeaf filters env (selecting value) connective q =
          compileLeaf direct env (itself value) connective q) ∧
    (operand.filter.custom = none → operand.filter.kind.usesOperands = false →
      operand.filter.ComparesField → ∀ registry entity value,
        leafPath? filters registry entity (selecting value) =
          leafPath? direct registry entity (itself value)) := by
  intro direct selecting itself
  obtain ⟨hset, -⟩ := FilterSet.ofList_accepted haccepted
  have hget := hset.get? outer houter
  have huses : outer.kind.usesOperands = true := by
    rcases hkind with hkind | hkind <;> rw [hkind] <;> rfl
  obtain ⟨hself, hoperands, -⟩ := (Filter.check_ok_iff outer).mp (hset.check outer houter)
  obtain ⟨hnonempty, -, -, -, hcount⟩ := (Filter.checkSelf_ok_iff outer).mp hself
  have hcountable : outer.countable = none := by
    by_contra hsome
    exact hnonempty huses (hcount hsome)
  have hmember : operand ∈ outer.operands := List.mem_of_find?_eq_some hoperand
  have hcheck := (Filter.checkOperands_ok hoperands operand hmember).2
  have hallowed' := (Bool.and_eq_true_iff.mp hallowed).2
  have hselecting := resolve_operand htoken hget hauthorized huses hoperand hallowed
  have hdirect : direct.get? operand.filter.id = some operand.filter :=
    List.find?_cons_of_pos (beq_self_eq_true _)
  refine ⟨FilterSet.ofList_singleton hcheck, ?_, ?_, ?_⟩
  · intro hbehind value
    exact compileLeaf_operand hkind hcountable hcustom (hselecting value) hbehind
  · intro hopen huses' hignores hcompares value
    exact compileLeaf_direct hkind hcountable hcustom (hselecting value)
      (resolve_direct htoken hdirect hopen huses' hallowed' value) rfl hfield huses' hignores
      hcompares
  · intro hbehind huses' hcompares registry entity value
    exact leafPath?_operand hkind hcountable hcustom hget hdirect hoperand hfield hbehind huses'
      hcompares registry entity

/-- A filter that chooses between the name of a contact, its companies as tags, their number, and
another filter that chooses the name. -/
def sampleChoice : Filter :=
  let name := Filter.plain .text "name" "Name"
  { Filter.plain .nullableOperand "about" "About" with
    operands := [⟨"name", "Name", name⟩,
      ⟨"company", "Company", Filter.ofRelation .tags "company" "Company" "company"⟩,
      ⟨"companies", "Companies",
        { Filter.plain .number "companies" "Companies" with countable := some "company" }⟩,
      ⟨"called", "Called",
        { Filter.plain .operand "called" "Called" with operands := [⟨"name", "Name", name⟩] }⟩] }

/-- A rule that selects the name compiles as one on the name. -/
theorem operands_transparent_sample :
    let env : Environment := ⟨Sample.registry, Sample.context.strict, none⟩
    let name := Filter.plain .text "name" "Name"
    FilterSet.ofList [sampleChoice] = .ok ⟨[sampleChoice]⟩ ∧
      name.ComparesField ∧
      ∀ connective q,
        compileLeaf ⟨[sampleChoice]⟩ env ⟨"about", "begins_with", some "name", .string "A"⟩ connective
            q =
          compileLeaf ⟨[name]⟩ env ⟨"name", "begins_with", none, .string "A"⟩ connective q := by
  intro env name
  have haccepted : FilterSet.ofList [sampleChoice] = .ok ⟨[sampleChoice]⟩ :=
    FilterSet.ofList_singleton rfl
  have hcompares : name.ComparesField := ⟨by decide, rfl⟩
  have houter : sampleChoice ∈ [sampleChoice] := List.mem_singleton.mpr rfl
  let operand : Operand := ⟨"name", "Name", name⟩
  have hoperand : sampleChoice.operand? operand.value = some operand := rfl
  have htoken : Operator.ofToken? "begins_with" = some .beginsWith := by decide +kernel
  obtain ⟨-, -, hsame, -⟩ := operands_transparent env haccepted houter (.inr rfl) rfl rfl hoperand
    rfl htoken (by decide +kernel)
  exact ⟨haccepted, hcompares,
    hsame rfl rfl (fun _ h => nomatch h) (fun _ => hcompares) (.string "A")⟩

/-- A rule that selects tags or a count compares a column, where a rule on the filter itself asks for
related rows; and one that selects a filter with operands compiles, where a rule on that filter needs
an operand. -/
theorem operand_kinds_differ :
    let filters : FilterSet := ⟨[sampleChoice]⟩
    let listed (filters : FilterSet) (leaf : Rule.Leaf) : Option (List Int) :=
      (compileLeaf filters ⟨Sample.registry, Sample.context.strict, none⟩ leaf .and
        (Query.ofEntity Sample.contact)).toOption.map (Engine.ids Sample.dataset)
    let itself (value : String) (leaf : Rule.Leaf) : Option (List Int) :=
      (sampleChoice.operand? value).bind fun operand => listed ⟨[operand.filter]⟩ leaf
    (FilterSet.ofList [sampleChoice]).toOption.map (·.filters.length) = some 1 ∧
    (sampleChoice.operands.all fun operand => operand.filter.field == operand.value) = true ∧
    (listed filters ⟨"about", "in", some "company", .array [.integer 1]⟩ = some [] ∧
      itself "company" ⟨"company", "in", none, .array [.integer 1]⟩ = some [1, 3]) ∧
    (listed filters ⟨"about", "equal", some "companies", .integer 1⟩ = some [] ∧
      itself "companies" ⟨"companies", "equal", none, .integer 1⟩ = some [1, 3]) ∧
    listed filters ⟨"about", "equal", some "called", .string "Ann"⟩ = some [] ∧
      itself "called" ⟨"called", "equal", none, .string "Ann"⟩ = none := by
  decide +kernel

end Compile
end Winnow
