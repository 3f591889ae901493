import Winnow.Proofs.Compile.Additions
import Winnow.Proofs.Compile.Resolved
import Winnow.Proofs.Engine.Related

/-!
# A rule is compiled to what it says

The predicate of a rule without custom predicate holds of a frame exactly when
the rule says so of the row that the frame binds (`leafPredicate_means`), and a
rule that cannot be used says nothing for the same reason.  A path of relations
is read from the joined table where it was joined, and then missing rows are
null; it is read by questions about related rows otherwise, and then no
condition on missing rows holds (`Served`).
-/

namespace Winnow.Compile

open Engine

/-! ## Definitions -/

/-- The predicate of a rule without custom predicate. -/
def leafPredicate (filters : FilterSet) (env : Environment) (leaf : Rule.Leaf) (q : Query) :
    Except CompileError (Option Predicate) := do
  let r ← resolve filters leaf
  resolvedPredicate env r leaf.value q

/-- A predicate holds of the frames that serve a row exactly when a condition does of the row. -/
def Means (db : Dataset) (serves : Frame → Row → Prop) (missing : Missing) (p : Predicate)
    (c : Condition) : Prop :=
  ∀ frame row, serves frame row → predicateHolds db frame p = c missing row

/-- Whether the frames that serve rows fit the way that a path of relations is read: a joined path
is to-one and its alias is bound to the row it reaches, if any. -/
def Served (db : Dataset) (env : Environment) (q : Query) (missing : Missing)
    (serves : Frame → Row → Prop) (path : FieldPath) : Prop :=
  match joinOf? env q path with
  | some target =>
    missing = .null ∧ env.registry.isToOnePath q.entity path.relations = true ∧
      ∀ frame row, serves frame row → frame.row? target.tableAlias =
        (Condition.reached db env.registry q.entity path.relations row).head?
  | none => missing = .unmet ∨ env.registry.isToOnePath q.entity path.relations = false

/-! ## Columns -/

theorem columnPredicate_asks (env : Environment) (column : Column) (declared : Option ColumnType)
    (filter : Filter) (operator : Operator) (value : Json) (field : String) :
    Parallel (Asks column) (columnPredicate env column declared filter operator value field)
      (Condition.asked env.context declared filter operator value field) :=
  Operation.predicate_asks {
    column := column
    type := declared.getD filter.kind.columnType
    operator := operator
    value := value
    field := field
    context := env.context }

section
variable {db : Dataset} {env : Environment} {filter : Filter} {operator : Operator} {value : Json}
  {field : String}

/-- The predicate on a column, when the frames that serve a row bind the column to a value. -/
theorem column_means {serves : Frame → Row → Prop} {missing : Missing} (column : Column)
    (declared : Option ColumnType) (condition : Question → Condition)
    (hread : ∀ frame row, serves frame row → ∀ asks : Question,
      asks (read frame column) = condition asks missing row) :
    Parallel (Means db serves missing)
      (columnPredicate env column declared filter operator value field)
      ((Condition.asked env.context declared filter operator value field).map
        (·.map condition)) :=
  (columnPredicate_asks env column declared filter operator value field).mapRight condition
    fun _ asks h frame row hrow => (h db frame).trans (hread frame row hrow asks)

/-! ## Paths of relations -/

variable (db env filter operator value field) in
/-- Questions one inside the other are one question about the rows at the end of the path: induction
on the path, each step a question about the rows that one relation leads to. -/
theorem relatedPredicate_means (column : String) (relations : List String) (q : Query) :
    Parallel (fun p (c : Row → Bool) => ∀ frame row, Frame.row? frame q.qualifier = some row →
        predicateHolds db frame p = c row)
      (relatedPredicate env filter operator value field column relations q)
      ((env.registry.walk q.entity relations).bind fun owner =>
        (Condition.asked env.context (owner.columnType? column) filter operator value field).map
          (·.map fun asks row => (Condition.reached db env.registry q.entity relations row).any
            fun r => asks (r.value column))) := by
  induction relations generalizing q with
  | nil =>
    refine (columnPredicate_asks env (q.column column) (q.entity.columnType? column) filter
      operator value field).mapRight _ fun p asks h frame row hrow => ?_
    rw [h db frame, Query.column, read_field hrow]
    simp [Condition.reached, Condition.fieldOf]
  | cons relation rest ih =>
    unfold relatedPredicate
    simp only [Query.relationQuery_eq, bind, Except.bind, Registry.walk, Condition.reached]
    cases env.registry.related q.entity relation with
    | error e => exact .error e
    | ok pair =>
      obtain ⟨found, related⟩ := pair
      have hstep := (ih (q.inner related)).map
        (fun p => .related
          (found.link relation q.qualifier related.table (q.inner related).qualifier)
          ((q.inner related).addClause .and p) false)
        (fun c row => (Condition.reachedBy db found related row).any c)
        (s := fun p c => ∀ frame row, Frame.row? frame q.qualifier = some row →
          predicateHolds db frame p = c row)
        fun p c hp frame row hrow => by
          rw [related_holds db hrow found related relation p c hp false, Bool.bne_false]
      simp only [Except.map, Query.inner_entity] at hstep ⊢
      revert hstep
      generalize relatedPredicate env filter operator value field column rest _ = inner
      cases env.registry.walk related rest with
      | error e => cases inner <;> exact id
      | ok owner =>
        simp only [Except.bind]
        rcases Condition.asked env.context (owner.columnType? column) filter operator value field
          with e | _ | asks
        · cases inner <;> exact id
        · cases inner <;> exact id
        · simp only [Option.map_some, List.any_flatMap]
          cases inner <;> exact id

/-! ## Kinds of rules -/

variable (db) (env) (q : Query) (missing : Missing) (serves : Frame → Row → Prop)
  (hbinds : ∀ frame row, serves frame row → frame.row? q.qualifier = some row)

include hbinds

/-- A rule on a field, given that the frames fit the way its path is read. -/
theorem fieldPredicate_means (filter : Filter) (operator : Operator) (value : Json)
    (field : String)
    (hserved : (env.registry.splitPath q.entity field).isRelated = true →
      Served db env q missing serves (env.registry.splitPath q.entity field)) :
    Parallel (Means db serves missing) (fieldPredicate env q field filter operator value)
      (Condition.ofField db env.registry env.context q.entity field filter operator value) := by
  unfold fieldPredicate Condition.ofField
  cases filter.dateTimeParts with
  | some parts =>
    refine column_means (q.dateTimeColumn parts.1 parts.2) _ _ fun frame row hrow asks => ?_
    rw [Query.dateTimeColumn, read_parts (hbinds frame row hrow)]
  | none =>
    simp only [bind, Except.bind]
    revert hserved
    generalize env.registry.splitPath q.entity field = path
    intro hserved
    cases hrelated : path.isRelated with
    | false =>
      have hnil : path.relations = [] := by simpa [FieldPath.isRelated] using hrelated
      obtain ⟨relations, column⟩ := path
      subst hnil
      refine column_means (q.column column) _ _ fun frame row hrow asks => ?_
      rw [Condition.ofPath_nil, Query.column, read_field (hbinds frame row hrow)]
      rfl
    | true =>
      have hserved := hserved hrelated
      unfold Served at hserved
      cases hjoin : joinOf? env q path with
      | some target =>
        rw [hjoin] at hserved
        obtain ⟨rfl, htoOne, hbound⟩ := hserved
        simp only [Bool.not_true, Bool.false_eq_true, if_false]
        cases env.registry.walk q.entity path.relations with
        | error e => exact .error e
        | ok owner =>
          refine column_means (.field target.tableAlias path.column) _ _ fun frame row hrow asks => ?_
          rw [Condition.ofPath_of_toOne htoOne, read_field (hbound frame row hrow)]
      | none =>
        rw [hjoin] at hserved
        simp only [Bool.not_true, Bool.false_eq_true, if_false]
        have h := relatedPredicate_means db env filter operator value field path.column
          path.relations q
        revert h
        generalize relatedPredicate env filter operator value field path.column path.relations q = x
        cases env.registry.walk q.entity path.relations with
        | error e =>
          intro h
          cases h
          exact .error e
        | ok owner =>
          simp only [Except.bind]
          rcases Condition.asked env.context (owner.columnType? path.column) filter operator value
            field with e | _ | asks
          · intro h
            cases h
            exact .error e
          · intro h
            cases h
            exact .free
          · intro h
            cases h with
            | bound h =>
              refine .bound fun frame row hrow => ?_
              rw [h frame row (hbinds frame row hrow), Condition.ofPath_of_any hserved]

/-- A question about related rows is never read from joined tables. -/
theorem hasManyPredicate_means (r : Resolved) (value : Json) :
    Parallel (Means db serves missing) (hasManyPredicate env r value q)
      (Condition.ofHasMany db env.registry env.context q.entity r value) := by
  unfold hasManyPredicate Condition.ofHasMany
  cases r.filter.relation with
  | none => exact .error _
  | some relation =>
    simp only [Query.relationQuery_eq, bind, Except.bind]
    cases env.registry.related q.entity relation with
    | error e => exact .error e
    | ok pair =>
      obtain ⟨found, related⟩ := pair
      have hinner := fieldPredicate_means db env (q.inner related) .unmet
        (fun frame row => frame.row? (q.inner related).qualifier = some row) (fun _ _ h => h)
        r.target r.operator value r.field fun _ => by simp [Served, joinOf?]
      exact hinner.map _ _ fun p c hp frame row hrow =>
        (related_holds db (hbinds frame row hrow) found related relation p (c .unmet) hp false).trans
          (Bool.bne_false ..)

theorem countPredicate_means (filter : Filter) (relation : String) (operator : Operator)
    (value : Json) :
    Parallel (Means db serves missing) (countPredicate env filter relation operator value q)
      (Condition.ofCount db env.registry q.entity filter relation operator value) := by
  unfold countPredicate Condition.ofCount
  simp only [Query.relationQuery_eq, bind, Except.bind]
  cases operator.comparison? with
  | none => exact .error _
  | some comparison =>
    simp only
    rcases Value.ofJson? value .integer with _ | v
    · exact .error _
    · cases v with
      | integer count =>
        cases env.registry.related q.entity relation with
        | error e => exact .error e
        | ok pair =>
          exact .bound fun frame row hrow =>
            counted_holds db (hbinds frame row hrow) pair.1 pair.2 relation comparison count
      | _ => exact .error _

theorem listedPredicate_means (filter : Filter) (value : Json) (found : Relation)
    (related : Entity) (relation : String) (negated : Bool) :
    Parallel (Means db serves missing)
      (listedPredicate env filter value
        (found.link relation q.qualifier related.table (q.inner related).qualifier)
        (q.inner related) negated)
      (Condition.ofListed db env.context found related filter value negated) := by
  refine (columnPredicate_asks env ((q.inner related).column related.primaryKey)
    (related.columnType? related.primaryKey) filter .in_ value filter.id).map _ _
    fun p asks hp frame row hrow => ?_
  refine related_holds db (hbinds frame row hrow) found related relation p
    (fun r => asks (r.value related.primaryKey)) (fun inner r hr => ?_) negated
  rw [hp db inner, Query.column, read_field hr]
  rfl

theorem tagsPredicate_means (filter : Filter) (operator : Operator) (value : Json) :
    Parallel (Means db serves missing) (tagsPredicate env filter operator value q)
      (Condition.ofTags db env.registry env.context q.entity filter operator value) := by
  unfold tagsPredicate Condition.ofTags
  cases filter.relation with
  | none => exact .error _
  | some relation =>
    simp only [Query.relationQuery_eq, bind, Except.bind]
    cases env.registry.related q.entity relation with
    | error e => exact .error e
    | ok pair =>
      obtain ⟨found, related⟩ := pair
      have hlisted := listedPredicate_means db env q missing serves hbinds filter value found related
        relation
      have hbare := fun frame row hrow => bare_holds db (hbinds frame row hrow) found related relation
      cases operator with
      | isNull => exact .bound fun frame row hrow => (hbare frame row hrow true).trans (by simp)
      | isNotNull => exact .bound fun frame row hrow => (hbare frame row hrow false).trans (by simp)
      | in_ => exact hlisted false
      | notIn => exact hlisted true
      | _ => exact .error _

/-- Whatever its kind, the predicate of a usable rule holds exactly when the rule says so. -/
theorem resolvedPredicate_means (r : Resolved) (value : Json)
    (hserved : r.filter.kind ≠ .hasMany → r.filter.countable = none → r.filter.kind ≠ .tags →
      (env.registry.splitPath q.entity r.field).isRelated = true →
        Served db env q missing serves (env.registry.splitPath q.entity r.field)) :
    Parallel (Means db serves missing) (resolvedPredicate env r value q)
      (Condition.ofResolved db env.registry env.context q.entity r value) := by
  unfold resolvedPredicate Condition.ofResolved
  by_cases hmany : r.filter.kind = .hasMany
  · simp only [hmany, beq_self_eq_true, if_true]
    exact hasManyPredicate_means db env q missing serves hbinds r value
  · simp only [beq_iff_eq, hmany, if_false]
    cases hcountable : r.filter.countable with
    | some relation =>
      exact countPredicate_means db env q missing serves hbinds r.filter relation r.operator value
    | none =>
      simp only
      by_cases htags : r.filter.kind = .tags
      · simp only [htags, if_true]
        exact tagsPredicate_means db env q missing serves hbinds r.filter r.operator value
      · simp only [htags, if_false]
        exact fieldPredicate_means db env q missing serves hbinds r.target r.operator value r.field
          (hserved hmany hcountable htags)

end

/-! ## Rules -/

/-- A usable rule on a field through relations is one of those that joins are looked for. -/
theorem leafPath?_eq_some {filters : FilterSet} {leaf : Rule.Leaf} {r : Resolved}
    (hr : resolve filters leaf = .ok r) (hcustom : r.custom? = none)
    (hmany : r.filter.kind ≠ .hasMany) (hcountable : r.filter.countable = none)
    (htags : r.filter.kind ≠ .tags) {registry : Registry} {e : Entity}
    (hrelated : (registry.splitPath e r.field).isRelated = true) :
    leafPath? filters registry e leaf = some (registry.splitPath e r.field) := by
  obtain ⟨hfilter, -, -, hoperand, -⟩ := (resolve_ok_iff filters leaf r).mp hr
  have hnone : r.filter.custom = none := by
    unfold Resolved.custom? at hcustom
    cases h : r.filter.custom with
    | none => rfl
    | some custom =>
      rw [h] at hcustom
      cases hcustom
  unfold resolveOperand at hoperand
  unfold leafPath?
  by_cases huses : r.filter.kind.usesOperands = true
  · rw [if_pos huses] at hoperand
    cases hselected : leaf.operand.bind r.filter.operand? with
    | none => simp [hselected] at hoperand
    | some operand =>
      simp only [hselected, Except.ok.injEq] at hoperand
      obtain ⟨value, hvalue, hfind⟩ := Option.bind_eq_some_iff.mp hselected
      have hfield : r.field = operand.value := by
        unfold Resolved.field
        rw [← hoperand]
      rw [hfield] at hrelated ⊢
      simp [hfilter, hnone, hmany, hcountable, htags, huses, hvalue, hfind, hrelated]
  · rw [if_neg huses] at hoperand
    have hfield : r.field = r.filter.field := by
      unfold Resolved.field
      rw [← Except.ok.inj hoperand]
    rw [hfield] at hrelated ⊢
    simp [hfilter, hnone, hmany, hcountable, htags, huses, hrelated]

section
variable (db : Dataset) {filters : FilterSet} (env : Environment) (q : Query)
  (missing : Missing) (serves : Frame → Row → Prop)
  (hbinds : ∀ frame row, serves frame row → frame.row? q.qualifier = some row)

/-- Compiling a rule appends its predicate. -/
theorem compileLeaf_eq_predicate (hplain : filters.Plain) (leaf : Rule.Leaf)
    (connective : Connective) :
    compileLeaf filters env leaf connective q =
      (leafPredicate filters env leaf q).map (q.addPredicate connective) := by
  unfold compileLeaf leafPredicate
  simp only [bind, Except.bind]
  cases hr : resolve filters leaf with
  | error e => rfl
  | ok r => exact compileResolved_eq env r leaf connective q (custom_none_of_plain hplain hr)

include hbinds in
/-- The predicate of a rule holds exactly when the rule says so, given that the frames fit the way
its path is read. -/
theorem leafPredicate_means (hplain : filters.Plain) (leaf : Rule.Leaf)
    (hserved : ∀ path, leafPath? filters env.registry q.entity leaf = some path →
      Served db env q missing serves path) :
    Parallel (Means db serves missing) (leafPredicate filters env leaf q)
      (Condition.ofLeaf db env.registry env.context filters q.entity leaf) := by
  unfold leafPredicate Condition.ofLeaf
  simp only [bind, Except.bind]
  cases hr : resolve filters leaf with
  | error e => exact .error e
  | ok r =>
    refine resolvedPredicate_means db env q missing serves hbinds r leaf.value ?_
    intro hmany hcountable htags hrelated
    exact hserved _ (leafPath?_eq_some hr (custom_none_of_plain hplain hr) hmany hcountable htags
      hrelated)

end

end Winnow.Compile
