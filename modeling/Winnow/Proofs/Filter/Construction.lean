import Winnow.Proofs.Filter.Accepted

/-!
# Constructing filters

A filter starts with its kind and is then changed by chained options, in any
order; operands are given filters of their own (`FilterRecipe`).  Two options and
the making of an operand check something at once, the set checks the rest, and
together they let through exactly what is well set at every depth
(`FilterSet.construct_iff`).
-/

namespace Winnow

/-! ## Recipes -/

/-- The ways to start a filter. -/
inductive FilterStart where
  | text
  | number
  | date
  | dateTime
  | select (options : List FilterOption)
  | multiSelect (options : List FilterOption)
  | checkbox (options : List FilterOption)
  | tags (relation : String)
  | hasMany (relation : String)
  | operand
  | nullableOperand
  | timezone
  | static (custom : CustomPredicate)
  /-- A choice of users. -/
  | user (options : List FilterOption)

namespace FilterStart

/-- The filter that a start makes. -/
def filter (id label : String) : FilterStart → Filter
  | .text => .plain .text id label
  | .number => .plain .number id label
  | .date => .plain .date id label
  | .dateTime => .plain .dateTime id label
  | .select options => .choice .select id label options
  | .multiSelect options => .choice .multiSelect id label options
  | .checkbox options => .choice .checkbox id label options
  | .tags relation => .ofRelation .tags id label relation
  | .hasMany relation => .ofRelation .hasMany id label relation
  | .operand => .plain .operand id label
  | .nullableOperand => .plain .nullableOperand id label
  | .timezone => .plain .timezone id label
  | .static custom => { Filter.plain .static id label with custom := some custom }
  | .user options => .user id label options

end FilterStart

/-- The options of a filter that cannot fail. -/
inductive FilterSetting where
  | column (name : String)
  | options (choices : List FilterOption)
  | exclude (operators : List Operator)
  | only (operators : List Operator)
  | help (text : String)
  | display (text : String)
  | authorized (decision : Bool)
  | custom (predicate : CustomPredicate)
  | dateTimeParts (date time : String)
  | userSelector

namespace FilterSetting

/-- The filter with an option set; excluded operators add up. -/
def set (f : Filter) : FilterSetting → Filter
  | .column name => { f with column := some name }
  | .options choices => { f with options := choices }
  | .exclude operators => { f with excluded := f.excluded ++ operators }
  | .only operators => { f with only := some operators }
  | .help text => { f with help := some text }
  | .display text => { f with display := some text }
  | .authorized decision => { f with authorization := some decision }
  | .custom predicate => { f with custom := some predicate }
  | .dateTimeParts date time => { f with dateTimeParts := some (date, time) }
  | .userSelector => { f with userSelector := true }

end FilterSetting

mutual

/-- A chain of steps that makes a filter. -/
inductive FilterRecipe where
  | start (kind : FilterStart) (id label : String)
  | set (recipe : FilterRecipe) (setting : FilterSetting)
  | operands (recipe : FilterRecipe) (choices : List OperandRecipe)
  /-- The filter compares the number of rows of a relation. -/
  | counting (recipe : FilterRecipe) (relation : String)

/-- The making of an operand from a filter. -/
inductive OperandRecipe where
  | make (value label : String) (recipe : FilterRecipe)

end

namespace FilterRecipe

mutual

/-- The filter that the steps of a recipe make. -/
def build : FilterRecipe → Except CompileError Filter
  | .start kind id label => .ok (kind.filter id label)
  | .set recipe setting => do
    let f ← build recipe
    .ok (setting.set f)
  | .operands recipe choices => do
    let f ← build recipe
    let operands ← buildOperands choices
    f.withOperands operands
  | .counting recipe relation => do
    let f ← build recipe
    f.counting relation

/-- The operands that recipes make, in order. -/
def buildOperands : List OperandRecipe → Except CompileError (List Operand)
  | [] => .ok []
  | ⟨value, label, recipe⟩ :: rest => do
    let f ← build recipe
    let operand ← Operand.make value label f
    let rest ← buildOperands rest
    .ok (operand :: rest)

end

end FilterRecipe

/-- The set of the filters that recipes make. -/
def FilterSet.construct (recipes : List FilterRecipe) : Except CompileError FilterSet := do
  let filters ← recipes.mapM FilterRecipe.build
  FilterSet.ofList filters

namespace Filter

/-! ## Filters at every depth -/

/-- A filter is within itself and within those that have an operand it is within. -/
inductive Within : Filter → Filter → Prop
  | self (f : Filter) : Within f f
  | operand {f g : Filter} {operand : Operand} :
    operand ∈ f.operands → Within operand.filter g → Within f g

/-- What must be set on a filter, and what must not be set together. -/
structure WellSet (f : Filter) : Prop where
  operands : f.kind.usesOperands = true → f.operands ≠ []
  operand_kind : ∀ operand ∈ f.operands, operand.filter.kind ≠ .hasMany
  countable_operands : f.countable ≠ none → f.operands = []
  countable_only : f.countable ≠ none → ∀ only, f.only = some only →
    .between ∉ only ∧ .notBetween ∉ only
  static : f.kind = .static → f.custom ≠ none

/-- Whether a filter of a kind that needs a relation has one; no step can take it away. -/
def HasRelation (f : Filter) : Prop := f.kind = .hasMany ∨ f.kind = .tags → f.relation ≠ none

/-- What is within a filter is the filter or within one of its operands. -/
theorem within_iff {f g : Filter} :
    f.Within g ↔ g = f ∨ ∃ operand ∈ f.operands, operand.filter.Within g := by
  constructor
  · rintro (_ | ⟨hmem, hwithin⟩)
    · exact .inl rfl
    · exact .inr ⟨_, hmem, hwithin⟩
  · rintro (rfl | ⟨operand, hmem, hwithin⟩)
    · exact .self g
    · exact .operand hmem hwithin

theorem forall_within_iff {f : Filter} {holds : Filter → Prop} :
    (∀ g, f.Within g → holds g) ↔
      holds f ∧ ∀ operand ∈ f.operands, ∀ g, operand.filter.Within g → holds g := by
  constructor
  · intro h
    refine ⟨h f (.self f), ?_⟩
    intro operand hmem g hg
    exact h g (.operand hmem hg)
  · rintro ⟨hself, hoperands⟩ g hg
    rcases within_iff.mp hg with rfl | ⟨operand, hmem, hwithin⟩
    · exact hself
    · exact hoperands operand hmem g hwithin

theorem sizeOf_operand_lt {f : Filter} {operand : Operand} (h : operand ∈ f.operands) :
    sizeOf operand.filter < sizeOf f := by
  have hlist := List.sizeOf_lt_of_mem h
  cases f
  cases operand
  simp only [Filter.mk.sizeOf_spec, Operand.mk.sizeOf_spec] at hlist ⊢
  omega

/-! ## What the checks let through -/

theorem checkCountable_ok_iff (f : Filter) :
    f.checkCountable = .ok () ↔ (f.countable ≠ none → ∀ only, f.only = some only →
      .between ∉ only ∧ .notBetween ∉ only) := by
  have hrange : ∀ only : List Operator,
      only.any Operator.isRange = false ↔ .between ∉ only ∧ .notBetween ∉ only := by
    intro only
    rw [List.any_eq_false]
    constructor
    · intro h
      exact ⟨fun hmem => h _ hmem rfl, fun hmem => h _ hmem rfl⟩
    · rintro ⟨hbetween, hnot⟩ op hop hop'
      unfold Operator.isRange at hop'
      rcases Bool.or_eq_true_iff.mp hop' with heq | heq
      · exact hbetween (eq_of_beq heq ▸ hop)
      · exact hnot (eq_of_beq heq ▸ hop)
  unfold checkCountable
  split
  next relation only hcountable honly =>
    have hlisted : (f.countable ≠ none → ∀ only, f.only = some only →
        .between ∉ only ∧ .notBetween ∉ only) ↔ only.any Operator.isRange = false := by
      rw [hcountable, honly, hrange]
      simp
    rw [hlisted]
    split
    next hany => simp [hany]
    next hany => simp [hany]
  next hnot =>
    refine iff_of_true rfl fun hcountable only honly => ?_
    obtain ⟨relation, hrelation⟩ := Option.ne_none_iff_exists'.mp hcountable
    exact absurd honly (hnot relation only hrelation)

theorem checkOperands_ok_iff (operands : List Operand) :
    checkOperands operands = .ok () ↔
      ∀ operand ∈ operands, operand.filter.kind ≠ .hasMany ∧ operand.filter.check = .ok () := by
  constructor
  · exact checkOperands_ok
  · intro h
    induction operands with
    | nil => rfl
    | cons operand rest ih =>
      obtain ⟨value, label, filter⟩ := operand
      obtain ⟨⟨hkind, hfilter⟩, hrest⟩ := List.forall_mem_cons.mp h
      unfold checkOperands
      rw [if_neg (by rw [beq_iff_eq]; exact hkind), hfilter]
      exact ih hrest

/-- Apart from the relation, which starts already give, a filter passes its own checks when it is
well set and the filters of its operands pass theirs. -/
theorem check_ok_iff_wellSet (f : Filter) :
    f.check = .ok () ↔ (f.WellSet ∧ f.HasRelation) ∧
      ∀ operand ∈ f.operands, operand.filter.check = .ok () := by
  rw [check_ok_iff, checkSelf_ok_iff, checkOperands_ok_iff, checkCountable_ok_iff]
  constructor
  · rintro ⟨⟨hoperands, hmany, htags, hstatic, hcountable⟩, hall, honly⟩
    refine ⟨⟨⟨hoperands, fun operand hmem => (hall operand hmem).1, hcountable, honly, hstatic⟩,
      ?_⟩, fun operand hmem => (hall operand hmem).2⟩
    rintro (hkind | hkind)
    · exact hmany hkind
    · exact htags hkind
  · rintro ⟨⟨⟨hoperands, hkinds, hcountable, honly, hstatic⟩, hrelation⟩, hall⟩
    refine ⟨⟨hoperands, fun h => hrelation (.inl h), fun h => hrelation (.inr h), hstatic,
      hcountable⟩, ?_, honly⟩
    intro operand hmem
    exact ⟨hkinds operand hmem, hall operand hmem⟩

/-- A filter passes its checks exactly when everything within it is well set and has its
relation. -/
theorem check_ok_iff_within (f : Filter) :
    f.check = .ok () ↔ ∀ g, f.Within g → g.WellSet ∧ g.HasRelation := by
  rw [check_ok_iff_wellSet, forall_within_iff]
  refine and_congr_right fun _ => forall_congr' fun operand => forall_congr' fun hmem => ?_
  exact check_ok_iff_within operand.filter
termination_by sizeOf f
decreasing_by exact sizeOf_operand_lt hmem

/-! ## What the steps let through -/

/-- Operands are refused for a filter that counts rows. -/
theorem withOperands_ok_iff {f g : Filter} {operands : List Operand} :
    f.withOperands operands = .ok g ↔
      f.countable = none ∧ g = { f with operands := operands } := by
  unfold withOperands
  cases f.countable with
  | none => simp [eq_comm]
  | some relation => simp

/-- Counting is refused for a filter with operands or with a range operator to choose from. -/
theorem counting_ok_iff {f g : Filter} {relation : String} :
    f.counting relation = .ok g ↔
      f.operands = [] ∧ (∀ only, f.only = some only → .between ∉ only ∧ .notBetween ∉ only) ∧
        g = { f with countable := some relation } := by
  have honly := checkCountable_ok_iff { f with countable := some relation }
  simp only [ne_eq, reduceCtorEq, not_false_eq_true, forall_const] at honly
  unfold counting
  rw [← honly]
  split
  next hsome =>
    refine iff_of_false nofun ?_
    rintro ⟨hnil, -, -⟩
    simp [hnil] at hsome
  next hnone =>
    constructor
    · intro h
      obtain ⟨⟨⟩, hcheck, h⟩ := bind_eq_ok h
      cases h
      exact ⟨by simpa using hnone, hcheck, rfl⟩
    · rintro ⟨-, hcheck, rfl⟩
      dsimp only
      rw [hcheck]
      rfl

end Filter

theorem Operand.make_ok_iff {value label : String} {f : Filter} {operand : Operand} :
    Operand.make value label f = .ok operand ↔
      f.kind ≠ .hasMany ∧ operand = ⟨value, label, f⟩ := by
  unfold Operand.make
  split
  next h => simp [beq_iff_eq.mp h]
  next h =>
    rw [beq_iff_eq] at h
    simp [h, eq_comm]

/-! ## Relations -/

namespace FilterStart

theorem hasRelation (start : FilterStart) (id label : String) :
    (start.filter id label).HasRelation := by
  unfold Filter.HasRelation
  cases start <;> simp [filter, Filter.plain, Filter.choice, Filter.ofRelation, Filter.user]

theorem operands_nil (start : FilterStart) (id label : String) :
    (start.filter id label).operands = [] := by
  cases start <;> rfl

end FilterStart

namespace FilterSetting

theorem hasRelation_iff (f : Filter) (setting : FilterSetting) :
    (setting.set f).HasRelation ↔ f.HasRelation := by
  cases setting <;> exact Iff.rfl

theorem operands_set (f : Filter) (setting : FilterSetting) :
    (setting.set f).operands = f.operands := by
  cases setting <;> rfl

end FilterSetting

namespace FilterRecipe

mutual

/-- Filters of the kinds that need a relation have theirs from the start, at every depth. -/
theorem build_hasRelation {f : Filter} : (recipe : FilterRecipe) → recipe.build = .ok f →
    ∀ g, f.Within g → g.HasRelation
  | .start kind id label, h => by
    unfold build at h
    cases h
    rw [Filter.forall_within_iff, kind.operands_nil]
    exact ⟨kind.hasRelation id label, List.forall_mem_nil _⟩
  | .set recipe setting, h => by
    unfold build at h
    obtain ⟨before, hbefore, h⟩ := bind_eq_ok h
    cases h
    have hall := build_hasRelation recipe hbefore
    rw [Filter.forall_within_iff] at hall
    rw [Filter.forall_within_iff, setting.hasRelation_iff, setting.operands_set]
    exact hall
  | .operands recipe choices, h => by
    unfold build at h
    obtain ⟨before, hbefore, h⟩ := bind_eq_ok h
    obtain ⟨made, hmade, h⟩ := bind_eq_ok h
    obtain ⟨-, rfl⟩ := Filter.withOperands_ok_iff.mp h
    have hself := build_hasRelation recipe hbefore before (.self before)
    exact Filter.forall_within_iff.mpr ⟨hself, buildOperands_hasRelation choices hmade⟩
  | .counting recipe relation, h => by
    unfold build at h
    obtain ⟨before, hbefore, h⟩ := bind_eq_ok h
    obtain ⟨-, -, rfl⟩ := Filter.counting_ok_iff.mp h
    have hall := build_hasRelation recipe hbefore
    rw [Filter.forall_within_iff] at hall ⊢
    exact hall

/-- The filters of operands have theirs as well. -/
theorem buildOperands_hasRelation {made : List Operand} : (operands : List OperandRecipe) →
    buildOperands operands = .ok made →
    ∀ operand ∈ made, ∀ g, operand.filter.Within g → g.HasRelation
  | [], h => by
    unfold buildOperands at h
    cases h
    exact List.forall_mem_nil _
  | ⟨value, label, recipe⟩ :: rest, h => by
    unfold buildOperands at h
    obtain ⟨f, hf, h⟩ := bind_eq_ok h
    obtain ⟨operand, hoperand, h⟩ := bind_eq_ok h
    obtain ⟨others, hothers, h⟩ := bind_eq_ok h
    cases h
    obtain ⟨-, rfl⟩ := Operand.make_ok_iff.mp hoperand
    exact List.forall_mem_cons.mpr
      ⟨build_hasRelation recipe hf, buildOperands_hasRelation rest hothers⟩

end

end FilterRecipe

namespace FilterSet

/-! ## Sets -/

theorem add_ok_iff {set next : FilterSet} {f : Filter} :
    set.add f = .ok next ↔
      f.check = .ok () ∧ f.id ∉ set.filters.map Filter.id ∧ next = ⟨set.filters ++ [f]⟩ := by
  have hnew : (set.get? f.id).isSome = true ↔ f.id ∈ set.filters.map Filter.id := by
    unfold get?
    rw [List.find?_isSome, List.mem_map]
    simp
  unfold add
  cases hcheck : f.check with
  | error error => simp [bind, Except.bind]
  | ok =>
    simp only [bind, Except.bind, true_and]
    split
    next h => simp [hnew.mp h]
    next h => simp [mt hnew.mpr h, eq_comm]

/-- A set results when every filter passes its checks and no identifier comes twice. -/
theorem ofList_ok_iff {filters : List Filter} {set : FilterSet} :
    ofList filters = .ok set ↔
      set.filters = filters ∧ (filters.map Filter.id).Nodup ∧ ∀ f ∈ filters, f.check = .ok () := by
  have hrun : ∀ (filters : List Filter) (start : FilterSet),
      (start.filters.map Filter.id).Nodup →
      (filters.foldlM add start = .ok set ↔ set.filters = start.filters ++ filters ∧
        ((start.filters ++ filters).map Filter.id).Nodup ∧ ∀ f ∈ filters, f.check = .ok ()) := by
    intro filters
    induction filters with
    | nil =>
      intro start hstart
      rw [List.append_nil]
      constructor
      · intro h
        cases h
        exact ⟨rfl, hstart, List.forall_mem_nil _⟩
      · rintro ⟨h, -, -⟩
        exact congrArg Except.ok (congrArg FilterSet.mk h.symm)
    | cons f rest ih =>
      intro start hstart
      have hnext : f.id ∉ start.filters.map Filter.id →
          ((start.filters ++ [f]).map Filter.id).Nodup := by
        intro hnew
        rw [List.map_append, List.nodup_append]
        refine ⟨hstart, List.pairwise_singleton _ _, ?_⟩
        rintro _ hmem _ hself rfl
        exact hnew (List.mem_singleton.mp hself ▸ hmem)
      rw [List.foldlM_cons]
      constructor
      · intro h
        obtain ⟨next, hadd, hrest⟩ := bind_eq_ok h
        obtain ⟨hcheck, hnew, rfl⟩ := add_ok_iff.mp hadd
        obtain ⟨hfilters, hnodup, hall⟩ := (ih _ (hnext hnew)).mp hrest
        rw [List.append_assoc] at hfilters hnodup
        exact ⟨hfilters, hnodup, List.forall_mem_cons.mpr ⟨hcheck, hall⟩⟩
      · rintro ⟨hfilters, hnodup, hall⟩
        obtain ⟨hcheck, hall⟩ := List.forall_mem_cons.mp hall
        have hnew : f.id ∉ start.filters.map Filter.id := by
          intro hmem
          rw [List.map_append, List.nodup_append] at hnodup
          exact hnodup.2.2 _ hmem _ List.mem_cons_self rfl
        rw [add_ok_iff.mpr ⟨hcheck, hnew, rfl⟩]
        refine (ih _ (hnext hnew)).mpr ⟨?_, ?_, hall⟩
        · rw [hfilters, List.append_assoc]
          rfl
        · rw [List.append_assoc]
          exact hnodup
  exact hrun filters empty List.nodup_nil

/-- Recipes construct a set exactly when all their steps succeed, the identifiers of what they
make are distinct, and everything made is well set at every depth. -/
theorem construct_iff (recipes : List FilterRecipe) (set : FilterSet) :
    construct recipes = .ok set ↔
      recipes.mapM FilterRecipe.build = .ok set.filters ∧
      (set.filters.map Filter.id).Nodup ∧
      ∀ f ∈ set.filters, ∀ g, f.Within g → g.WellSet := by
  unfold construct
  constructor
  · intro h
    obtain ⟨filters, hbuild, h⟩ := bind_eq_ok h
    obtain ⟨rfl, hnodup, hcheck⟩ := ofList_ok_iff.mp h
    refine ⟨hbuild, hnodup, ?_⟩
    intro f hf g hg
    exact ((f.check_ok_iff_within.mp (hcheck f hf)) g hg).1
  · rintro ⟨hbuild, hnodup, hset⟩
    rw [hbuild]
    refine ofList_ok_iff.mpr ⟨rfl, hnodup, ?_⟩
    intro f hf
    obtain ⟨recipe, -, hrecipe⟩ := of_mem_mapM hbuild hf
    rw [f.check_ok_iff_within]
    intro g hg
    exact ⟨hset f hf g hg, FilterRecipe.build_hasRelation recipe hrecipe g hg⟩

-- Counting refuses the operator that was listed before, and the set the one listed after.
example :
    (FilterRecipe.build (.counting (.set (.start .number "n" "N") (.only [.between])) "deals")).isOk
        = false ∧
      (construct [.set (.counting (.start .number "n" "N") "deals") (.only [.between])]).isOk
        = false := by
  constructor <;> rfl

end FilterSet
end Winnow
