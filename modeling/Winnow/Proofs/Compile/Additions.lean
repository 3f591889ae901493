import Winnow.Compile.Tree
import Winnow.Proofs.Query.Building

/-!
# A rule is a group that is absorbed

Whatever its kind, a usable rule collects a group on a blank query of the same
table, and the query absorbs it (`compileLeaf_eq`).  Without a custom predicate
the group is one predicate or nothing (`compileResolved_eq`).  So what a rule
adds, and whether it can be used at all, depends on the query only through its
table (`compileLeaf_isOk_congr`), never on what was put into it before.
-/

namespace Winnow.Compile

/-! ## The predicate of a rule without custom predicate -/

/-- The question whether a related row satisfies the operand. -/
def hasManyPredicate (env : Environment) (r : Resolved) (value : Json) (q : Query) :
    Except CompileError (Option Predicate) := do
  let relation ← match r.filter.relation with
    | some relation => .ok relation
    | none => .error (.descriptor r.filter.id "a has-many filter requires a relation")
  let (link, related) ← q.relationQuery env.registry relation
  (fieldPredicate env related r.field r.target r.operator value).map
    (·.map fun p => .related link (related.addClause .and p) false)

/-- The comparison of the number of related rows. -/
def countPredicate (env : Environment) (filter : Filter) (relation : String) (operator : Operator)
    (value : Json) (q : Query) : Except CompileError (Option Predicate) := do
  let comparison ← match operator.comparison? with
    | some comparison => .ok comparison
    | none => .error (.operatorNotAllowed filter.id operator.token)
  let count ← match Value.ofJson? value .integer with
    | some (.integer count) => .ok count
    | _ => .error (.invalidValue filter.id operator.token (value.compact ++ " is not a count"))
  let (link, related) ← q.relationQuery env.registry relation
  .ok (some (.counted link related comparison count))

/-- The question about listed tags. -/
def listedPredicate (env : Environment) (filter : Filter) (value : Json) (link : Link)
    (related : Query) (negated : Bool) : Except CompileError (Option Predicate) :=
  let key := related.entity.primaryKey
  (columnPredicate env (related.column key) (related.entity.columnType? key) filter .in_ value
    filter.id).map (·.map fun p => .related link (related.addClause .and p) negated)

/-- The question about related tags. -/
def tagsPredicate (env : Environment) (filter : Filter) (operator : Operator) (value : Json)
    (q : Query) : Except CompileError (Option Predicate) := do
  let relation ← match filter.relation with
    | some relation => .ok relation
    | none => .error (.descriptor filter.id "a tags filter requires a relation")
  let (link, related) ← q.relationQuery env.registry relation
  match operator with
  | .isNull => .ok (some (.related link related true))
  | .isNotNull => .ok (some (.related link related false))
  | .in_ => listedPredicate env filter value link related false
  | .notIn => listedPredicate env filter value link related true
  | other => .error (.operatorNotAllowed filter.id other.token)

/-- The predicate of a usable rule without custom predicate. -/
def resolvedPredicate (env : Environment) (r : Resolved) (value : Json) (q : Query) :
    Except CompileError (Option Predicate) :=
  if r.filter.kind == .hasMany then hasManyPredicate env r value q
  else match r.filter.countable with
    | some relation => countPredicate env r.filter relation r.operator value q
    | none =>
      if r.filter.kind == .tags then tagsPredicate env r.filter r.operator value q
      else fieldPredicate env q r.field r.target r.operator value

/-- The group that a rule collects on a blank query. -/
def leafGroup (filters : FilterSet) (env : Environment) (leaf : Rule.Leaf) (connective : Connective)
    (blank : Query) : Except CompileError Query := do
  let r ← resolve filters leaf
  match r.custom? with
  | some custom => custom.apply env ⟨leaf.value, connective, r.operator, leaf⟩ blank
  | none => (resolvedPredicate env r leaf.value blank).map fun p => blank.addClauses .and p.toList

/-! ## The table decides -/

theorem relatedPredicate_group (env : Environment) (filter : Filter) (operator : Operator)
    (value : Json) (field column : String) (relations : List String) (q : Query) :
    relatedPredicate env filter operator value field column relations q.group =
      relatedPredicate env filter operator value field column relations q := by
  cases relations <;> rfl

theorem fieldPredicate_group (env : Environment) (q : Query) (field : String) (filter : Filter)
    (operator : Operator) (value : Json) :
    fieldPredicate env q.group field filter operator value =
      fieldPredicate env q field filter operator value := by
  unfold fieldPredicate
  simp only [relatedPredicate_group]
  rfl

theorem resolvedPredicate_group (env : Environment) (r : Resolved) (value : Json) (q : Query) :
    resolvedPredicate env r value q.group = resolvedPredicate env r value q := by
  unfold resolvedPredicate
  simp only [fieldPredicate_group]
  rfl

/-! ## Rules as groups -/

theorem absorb_addPredicate (q : Query) (connective : Connective) (p : Option Predicate) :
    q.absorb connective (q.group.addClauses .and p.toList) = q.addPredicate connective p := by
  rw [Query.absorb_addClauses]
  cases p <;> rfl

theorem compileHasMany_eq (env : Environment) (r : Resolved) (value : Json)
    (connective : Connective) (q : Query) :
    compileHasMany env r value connective q =
      (hasManyPredicate env r value q).map (q.addPredicate connective) := by
  unfold compileHasMany hasManyPredicate
  cases r.filter.relation with
  | none => rfl
  | some relation =>
    simp only [bind, Except.bind]
    rcases q.relationQuery env.registry relation with e | ⟨link, related⟩
    · rfl
    · simp only
      rcases fieldPredicate env related r.field r.target r.operator value with e | (_ | p) <;> rfl

theorem compileCount_eq (env : Environment) (filter : Filter) (relation : String)
    (operator : Operator) (value : Json) (connective : Connective) (q : Query) :
    compileCount env filter relation operator value connective q =
      (countPredicate env filter relation operator value q).map (q.addPredicate connective) := by
  unfold compileCount countPredicate
  simp only [bind, Except.bind]
  rcases operator.comparison? with _ | comparison
  · rfl
  · rcases Value.ofJson? value .integer with _ | v
    · rfl
    · cases v with
      | integer count => rcases q.relationQuery env.registry relation with e | ⟨link, related⟩ <;> rfl
      | _ => rfl

theorem compileTags_eq (env : Environment) (filter : Filter) (operator : Operator) (value : Json)
    (connective : Connective) (q : Query) :
    compileTags env filter operator value connective q =
      (tagsPredicate env filter operator value q).map (q.addPredicate connective) := by
  unfold compileTags tagsPredicate listedPredicate
  cases filter.relation with
  | none => rfl
  | some relation =>
    simp only [bind, Except.bind]
    rcases q.relationQuery env.registry relation with e | ⟨link, related⟩
    · rfl
    · simp only
      generalize columnPredicate env (related.column related.entity.primaryKey)
        (related.entity.columnType? related.entity.primaryKey) filter .in_ value filter.id = listed
      cases operator with
      | in_ => rcases listed with e | (_ | p) <;> rfl
      | notIn => rcases listed with e | (_ | p) <;> rfl
      | _ => rfl

theorem compileField_eq (env : Environment) (r : Resolved) (value : Json)
    (connective : Connective) (q : Query) :
    compileField env r value connective q =
      (fieldPredicate env q r.field r.target r.operator value).map
        (q.addPredicate connective) := by
  unfold compileField
  simp only [bind, Except.bind]
  rcases fieldPredicate env q r.field r.target r.operator value with e | (_ | p) <;> rfl

/-- Without a custom predicate a usable rule appends its predicate. -/
theorem compileResolved_eq (env : Environment) (r : Resolved) (leaf : Rule.Leaf)
    (connective : Connective) (q : Query) (h : r.custom? = none) :
    compileResolved env r leaf connective q =
      (resolvedPredicate env r leaf.value q).map (q.addPredicate connective) := by
  unfold compileResolved resolvedPredicate
  rw [h]
  simp only
  split
  · exact compileHasMany_eq env r leaf.value connective q
  · cases r.filter.countable with
    | some relation => exact compileCount_eq env r.filter relation r.operator leaf.value connective q
    | none =>
      simp only
      split
      · exact compileTags_eq env r.filter r.operator leaf.value connective q
      · exact compileField_eq env r leaf.value connective q

/-- A rule is compiled by absorbing the group it collects on a blank query. -/
theorem compileLeaf_eq (filters : FilterSet) (env : Environment) (leaf : Rule.Leaf)
    (connective : Connective) (q : Query) :
    compileLeaf filters env leaf connective q =
      (leafGroup filters env leaf connective q.group).map (q.absorb connective) := by
  unfold compileLeaf leafGroup
  simp only [bind, Except.bind]
  cases resolve filters leaf with
  | error e => rfl
  | ok r =>
    simp only
    cases hcustom : r.custom? with
    | none =>
      rw [compileResolved_eq env r leaf connective q hcustom, resolvedPredicate_group]
      simp only
      cases resolvedPredicate env r leaf.value q with
      | error e => rfl
      | ok p => exact congrArg Except.ok (absorb_addPredicate q connective p).symm
    | some custom =>
      simp only [compileResolved, hcustom, compileCustom, bind, Except.bind]
      cases custom.apply env ⟨leaf.value, connective, r.operator, leaf⟩ q.group <;> rfl

/-- Whether a rule can be used depends on the query only through its table. -/
theorem compileLeaf_isOk_congr (filters : FilterSet) (env : Environment) (leaf : Rule.Leaf)
    (connective : Connective) {q r : Query} (h : q.group = r.group) :
    (compileLeaf filters env leaf connective q).isOk =
      (compileLeaf filters env leaf connective r).isOk := by
  rw [compileLeaf_eq, compileLeaf_eq, h]
  cases leafGroup filters env leaf connective r.group <;> rfl

end Winnow.Compile
