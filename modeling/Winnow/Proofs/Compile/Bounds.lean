import Winnow.Proofs.Compile.Collected
import Winnow.Proofs.Compile.Overflow
import Winnow.Proofs.Compile.Resolved
import Winnow.Proofs.Query.Closed

/-!
# The values that rules bind

A predicate binds values in its tests and, through questions about related rows,
in theirs (`Predicate.Binds`).  The predicate of a rule binds what the operator
of the rule yields, besides the values of global scopes
(`resolvedPredicate_binds`).  Lenient compiling applies the operators of all
rules of a tree (`nodesOperations_lenient`).
-/

namespace Winnow

/-! ## Binding -/

/-- Whether a predicate binds a value: in a test of its own, or in its questions about related rows,
of their global scopes or at any depth. -/
inductive Predicate.Binds : Predicate → Value → Prop where
  | test {p : Predicate} {t : Test} {v : Value} :
      t ∈ predicateTests p → v ∈ t.values → p.Binds v
  | scope {p : Predicate} {link : Link} {q : Query} {t : Test} {v : Value} :
      (link, q) ∈ predicateQuestions p → t ∈ q.scopeTests → v ∈ t.values → p.Binds v
  | related {p : Predicate} {link : Link} {q : Query} {clause : Clause} {v : Value} :
      (link, q) ∈ predicateQuestions p → clause ∈ q.clauses → clause.predicate.Binds v → p.Binds v

/-- Whether a clause of a query binds a value. -/
def Query.Binds (q : Query) (v : Value) : Prop := ∃ clause ∈ q.clauses, clause.predicate.Binds v

section
variable {v : Value}

/-- The clause that a group becomes binds what the clauses of the group bind. -/
theorem Query.binds_of_groupPredicate {g : Query} {p : Predicate} (hp : g.groupPredicate = some p)
    (h : p.Binds v) : g.Binds v := by
  obtain ⟨htests, hquestions⟩ := Query.of_groupPredicate hp
  cases h with
  | test ht hv =>
    obtain ⟨clause, hclause, ht⟩ := htests _ ht
    exact ⟨clause, hclause, .test ht hv⟩
  | scope hq ht hv =>
    obtain ⟨clause, hclause, hq⟩ := hquestions _ hq
    exact ⟨clause, hclause, .scope hq ht hv⟩
  | related hq hinner hv =>
    obtain ⟨clause, hclause, hq⟩ := hquestions _ hq
    exact ⟨clause, hclause, .related hq hinner hv⟩

theorem Query.binds_addClause {q : Query} {connective : Connective} {p : Predicate}
    (h : (q.addClause connective p).Binds v) : q.Binds v ∨ p.Binds v := by
  obtain ⟨clause, hclause, hbinds⟩ := h
  rcases List.mem_append.mp hclause with hold | hnew
  · exact .inl ⟨clause, hold, hbinds⟩
  · rw [List.mem_singleton.mp hnew] at hbinds
    exact .inr hbinds

theorem Query.binds_addPredicate {q : Query} {connective : Connective} {p : Option Predicate}
    (h : (q.addPredicate connective p).Binds v) : q.Binds v ∨ ∃ p', p = some p' ∧ p'.Binds v := by
  cases p with
  | none => exact .inl h
  | some p => exact (binds_addClause h).imp_right fun hp => ⟨p, rfl, hp⟩

theorem binds_collected : Compile.Collected Query.Binds where
  blank q v h := by
    obtain ⟨clause, hclause, -⟩ := h
    cases hclause
  absorb q connective g v h := by
    obtain ⟨clause, hclause, hbinds⟩ := h
    rw [Query.absorb_clauses] at hclause
    rcases List.mem_append.mp hclause with hold | hnew
    · exact .inl ⟨clause, hold, hbinds⟩
    · obtain ⟨p, hp, rfl⟩ := List.mem_map.mp hnew
      exact .inr (Query.binds_of_groupPredicate (Option.mem_toList.mp hp) hbinds)

/-- What a question binds its query binds, or it is the representable value of a scope. -/
theorem binds_question {p : Predicate} {link : Link} {q : Query} (htests : predicateTests p = [])
    (hquestions : predicateQuestions p = [(link, q)]) (h : p.Binds v) :
    v.inRange = true ∨ q.Binds v := by
  cases h with
  | test ht =>
    rw [htests] at ht
    cases ht
  | scope hq ht hv =>
    rw [hquestions, List.mem_singleton] at hq
    cases hq
    obtain ⟨scope, -, rfl⟩ := List.mem_map.mp ht
    exact .inl (scope.test_inRange _ _ hv)
  | related hq hclause hbinds =>
    rw [hquestions, List.mem_singleton] at hq
    cases hq
    exact .inr ⟨_, hclause, hbinds⟩

end

namespace Compile

section
variable {env : Environment} {filter : Filter} {operator : Operator} {value : Json}
  {p : Predicate} {v : Value}

/-! ## Fields -/

theorem relationQuery_binds {registry : Registry} {q related : Query} {link : Link}
    {relation : String} (h : q.relationQuery registry relation = .ok (link, related)) :
    ¬related.Binds v := by
  rw [Query.relationQuery_eq] at h
  obtain ⟨⟨found, entity⟩, -, heq⟩ := map_eq_ok h
  cases heq
  rintro ⟨clause, hclause, -⟩
  cases hclause

/-- A question about related rows binds what the predicate binds that they are asked about. -/
theorem related_binds {registry : Registry} {q related : Query} {link : Link} {relation : String}
    (hlink : q.relationQuery registry relation = .ok (link, related)) {negated : Bool}
    (h : (Predicate.related link (related.addClause .and p) negated).Binds v) :
    v.inRange = true ∨ p.Binds v := by
  refine (binds_question rfl rfl h).imp_right fun hbinds => ?_
  exact (Query.binds_addClause hbinds).resolve_left (relationQuery_binds hlink)

theorem columnPredicate_binds {column : Column} {declared : Option ColumnType} {field : String}
    (h : columnPredicate env column declared filter operator value field = .ok (some p))
    (hv : p.Binds v) :
    (columnOperation env column declared filter operator value field).Yields v := by
  have hquestions := Operation.predicate_questions h
  cases hv with
  | test ht hv => exact Operation.predicate_yields h ht hv
  | scope hq | related hq =>
    rw [hquestions] at hq
    cases hq

/-- Induction on the path: each relation is a question around what is asked at the end. -/
theorem relatedPredicate_binds {field column : String} {relations : List String} {q : Query}
    (h : relatedPredicate env filter operator value field column relations q = .ok (some p))
    (hv : p.Binds v) : v.inRange = true ∨
      ∃ op, relatedOperation env filter operator value field column relations q = .ok op ∧
        op.Yields v := by
  induction relations generalizing q p with
  | nil => exact .inr ⟨_, rfl, columnPredicate_binds h hv⟩
  | cons relation rest ih =>
    unfold relatedPredicate at h
    obtain ⟨⟨link, related⟩, hlink, h⟩ := bind_eq_ok h
    obtain ⟨inner, hinner, h⟩ := bind_eq_ok h
    obtain ⟨p', rfl, rfl⟩ := Option.map_eq_some_iff.mp (Except.ok.inj h)
    unfold relatedOperation
    rw [hlink]
    exact (related_binds hlink hv).elim .inl fun hv => ih hinner hv

theorem fieldPredicate_binds {q : Query} {field : String}
    (h : fieldPredicate env q field filter operator value = .ok (some p)) (hv : p.Binds v) :
    v.inRange = true ∨
      ∃ op, fieldOperation env q field filter operator value = .ok op ∧ op.Yields v := by
  unfold fieldPredicate at h
  unfold fieldOperation
  cases hparts : filter.dateTimeParts with
  | some parts =>
    rw [hparts] at h
    exact .inr ⟨_, rfl, columnPredicate_binds h hv⟩
  | none =>
    rw [hparts] at h
    simp only at h ⊢
    generalize env.registry.splitPath q.entity field = path at h ⊢
    by_cases hown : (!path.isRelated) = true
    · rw [if_pos hown] at h ⊢
      exact .inr ⟨_, rfl, columnPredicate_binds h hv⟩
    · rw [if_neg hown] at h ⊢
      cases htarget : joinOf? env q path with
      | some target =>
        rw [htarget] at h
        obtain ⟨related, hwalk, h⟩ := bind_eq_ok h
        rw [hwalk]
        exact .inr ⟨_, rfl, columnPredicate_binds h hv⟩
      | none =>
        rw [htarget] at h
        exact relatedPredicate_binds h hv

/-! ## Rules -/

theorem hasManyPredicate_binds {r : Resolved} {q : Query} (hkind : r.filter.kind = .hasMany)
    (h : hasManyPredicate env r value q = .ok (some p)) (hv : p.Binds v) :
    v.inRange = true ∨ ∃ op, resolvedOperation? env r value q = some op ∧ op.Yields v := by
  unfold hasManyPredicate at h
  unfold resolvedOperation?
  cases hrelation : r.filter.relation with
  | none =>
    rw [hrelation] at h
    cases h
  | some relation =>
    rw [hrelation] at h
    obtain ⟨_, hsame, h⟩ := bind_eq_ok h
    cases hsame
    obtain ⟨⟨link, related⟩, hlink, h⟩ := bind_eq_ok h
    obtain ⟨inner, hinner, h⟩ := map_eq_ok h
    obtain ⟨p', rfl, rfl⟩ := Option.map_eq_some_iff.mp h
    rcases related_binds hlink hv with hrange | hv
    · exact .inl hrange
    · rcases fieldPredicate_binds hinner hv with hrange | ⟨op, hop, hyields⟩
      · exact .inl hrange
      · refine .inr ⟨op, ?_, hyields⟩
        simp only [hkind, beq_self_eq_true, if_true, hlink, Except.toOption, bind, Option.bind, hop]

/-- The query of a count collects nothing. -/
theorem countPredicate_binds {relation : String} {q : Query}
    (h : countPredicate env filter relation operator value q = .ok (some p)) (hv : p.Binds v) :
    v.inRange = true := by
  unfold countPredicate at h
  simp only [bind, Except.bind] at h
  split at h
  next =>
    split at h
    next =>
      rcases hlink : q.relationQuery env.registry relation with error | ⟨link, related⟩
      · rw [hlink] at h
        cases h
      · rw [hlink] at h
        cases h
        exact (binds_question rfl rfl hv).resolve_right (relationQuery_binds hlink)
    next => cases h
  next => cases h

theorem tagsPredicate_binds {r : Resolved} {q : Query} (hkind : r.filter.kind = .tags)
    (hcountable : r.filter.countable = none)
    (h : tagsPredicate env r.filter r.operator value q = .ok (some p)) (hv : p.Binds v) :
    v.inRange = true ∨ ∃ op, resolvedOperation? env r value q = some op ∧ op.Yields v := by
  unfold tagsPredicate at h
  unfold resolvedOperation?
  cases hrelation : r.filter.relation with
  | none =>
    rw [hrelation] at h
    cases h
  | some relation =>
    rw [hrelation] at h
    obtain ⟨_, hsame, h⟩ := bind_eq_ok h
    cases hsame
    obtain ⟨⟨link, related⟩, hlink, h⟩ := bind_eq_ok h
    have hlisted : ∀ {negated}, listedPredicate env r.filter value link related negated =
        .ok (some p) → v.inRange = true ∨
          (columnOperation env (related.column related.entity.primaryKey)
            (related.entity.columnType? related.entity.primaryKey) r.filter .in_ value
            r.filter.id).Yields v := by
      intro negated h
      obtain ⟨inner, hinner, h⟩ := map_eq_ok h
      obtain ⟨p', rfl, rfl⟩ := Option.map_eq_some_iff.mp h
      exact (related_binds hlink hv).imp_right (columnPredicate_binds hinner)
    have hblank : ∀ {negated}, Predicate.related link related negated = p → v.inRange = true := by
      rintro negated rfl
      exact (binds_question rfl rfl hv).resolve_right (relationQuery_binds hlink)
    have hmany : (FilterKind.tags == FilterKind.hasMany) = false := rfl
    simp only at h
    split at h
    next =>
      cases h
      exact .inl (hblank rfl)
    next =>
      cases h
      exact .inl (hblank rfl)
    next hoperator =>
      refine (hlisted h).imp_right fun hyields => ⟨_, ?_, hyields⟩
      simp [hkind, hmany, hcountable, hoperator, hlink, Except.toOption]
    next hoperator =>
      refine (hlisted h).imp_right fun hyields => ⟨_, ?_, hyields⟩
      simp [hkind, hmany, hcountable, hoperator, hlink, Except.toOption]
    next => cases h

/-- The predicate of a rule without custom predicate binds what the operator yields that the rule
applies, and values of global scopes. -/
theorem resolvedPredicate_binds {r : Resolved} {q : Query}
    (h : resolvedPredicate env r value q = .ok (some p)) (hv : p.Binds v) :
    v.inRange = true ∨ ∃ op, resolvedOperation? env r value q = some op ∧ op.Yields v := by
  unfold resolvedPredicate at h
  split at h
  next hkind => exact hasManyPredicate_binds (eq_of_beq hkind) h hv
  next hmany =>
    split at h
    next => exact .inl (countPredicate_binds h hv)
    next hcountable =>
      split at h
      next hkind => exact tagsPredicate_binds (eq_of_beq hkind) hcountable h hv
      next htags =>
        refine (fieldPredicate_binds h hv).imp_right fun ⟨op, hop, hyields⟩ => ⟨op, ?_, hyields⟩
        unfold resolvedOperation?
        rw [if_neg hmany, hcountable, if_neg htags, hop]
        rfl

end

/-! ## The context of operators -/

section
variable {env : Environment} {filter : Filter} {operator : Operator} {value : Json}
  {op : Operation}

theorem relatedOperation_context {field column : String} {relations : List String} {q : Query}
    (h : relatedOperation env filter operator value field column relations q = .ok op) :
    op.context = env.context := by
  induction relations generalizing q with
  | nil =>
    cases h
    rfl
  | cons relation rest ih =>
    obtain ⟨_, -, h⟩ := bind_eq_ok h
    exact ih h

theorem fieldOperation_context {q : Query} {field : String}
    (h : fieldOperation env q field filter operator value = .ok op) :
    op.context = env.context := by
  unfold fieldOperation at h
  split at h
  next =>
    cases h
    rfl
  next =>
    simp only at h
    split at h
    next =>
      cases h
      rfl
    next =>
      split at h
      next =>
        obtain ⟨related, -, h⟩ := bind_eq_ok h
        cases h
        rfl
      next => exact relatedOperation_context h

theorem leafOperation?_context {filters : FilterSet} {q : Query} {leaf : Rule.Leaf}
    (h : leafOperation? filters env q leaf = some op) : op.context = env.context := by
  obtain ⟨r, -, h⟩ := Option.bind_eq_some_iff.mp h
  split at h
  next => cases h
  next =>
    unfold resolvedOperation? at h
    simp only at h
    split at h
    next =>
      obtain ⟨related, -, h⟩ := Option.bind_eq_some_iff.mp h
      exact fieldOperation_context (ok_of_toOption h)
    next =>
      split at h
      next => cases h
      next =>
        split at h
        next =>
          split at h
          next =>
            obtain ⟨related, -, rfl⟩ := Option.map_eq_some_iff.mp h
            rfl
          next => cases h
        next => exact fieldOperation_context (ok_of_toOption h)

end

/-! ## Trees -/

section
variable {filters : FilterSet} {env : Environment} {v : Value}

/-- The group of a rule binds what its operator yields. -/
theorem leafGroup_binds (hplain : filters.Plain) {leaf : Rule.Leaf} {connective : Connective}
    {q g : Query} (h : leafGroup filters env leaf connective q.group = .ok g) (hv : g.Binds v) :
    v.inRange = true ∨ ∃ op, leafOperation? filters env q leaf = some op ∧ op.Yields v := by
  unfold leafGroup at h
  obtain ⟨r, hr, h⟩ := bind_eq_ok h
  have hcustom := custom_none_of_plain hplain hr
  simp only [hcustom] at h
  obtain ⟨p, hp, rfl⟩ := map_eq_ok h
  obtain ⟨clause, hclause, hbinds⟩ := hv
  obtain ⟨p', hp', rfl⟩ := List.mem_map.mp hclause
  rw [Option.mem_toList.mp hp', resolvedPredicate_group] at hp
  refine (resolvedPredicate_binds hp hbinds).imp_right fun ⟨op, hop, hyields⟩ => ⟨op, ?_, hyields⟩
  unfold leafOperation?
  rw [hr]
  simp [Except.toOption, hcustom, hop]

mutual

theorem compileNode_lenient (hlenient : env.context.validation = .lenient)
    (connective : Connective) (q : Query) : (node : Rule.Node) →
      (compileNode filters env connective q node).isOk = true
  | .leaf leaf => by
    unfold compileNode
    cases hleaf : compileLeaf filters env leaf connective q with
    | ok r => rfl
    | error error =>
      have hstrict : env.context.isStrict = false := by
        unfold CompileContext.isStrict
        rw [hlenient]
        rfl
      simp only [admit?, hstrict, Bool.false_eq_true, if_false]
      rfl
  | .group condition children => by
    have h := compileNodes_lenient hlenient condition q.group children
    unfold compileNode
    cases hgroup : compileNodes filters env condition q.group children with
    | ok group => rfl
    | error error =>
      rw [hgroup] at h
      cases h

theorem compileNodes_lenient (hlenient : env.context.validation = .lenient)
    (connective : Connective) (q : Query) : (nodes : List Rule.Node) →
      (compileNodes filters env connective q nodes).isOk = true
  | [] => rfl
  | node :: rest => by
    have h := compileNode_lenient hlenient connective q node
    unfold compileNodes
    cases hnode : compileNode filters env connective q node with
    | ok next => exact compileNodes_lenient hlenient connective next rest
    | error error =>
      rw [hnode] at h
      cases h

end

mutual

/-- One step: a node applies the operators of all of its rules. -/
theorem nodeOperations_lenient (hlenient : env.context.validation = .lenient) (q : Query) :
    (node : Rule.Node) → nodeOperations filters env q node =
      node.leaves.filterMap (leafOperation? filters env q)
  | .leaf leaf => by
    unfold nodeOperations Rule.Node.leaves
    rw [List.filterMap_cons, List.filterMap_nil]
    cases leafOperation? filters env q leaf <;> rfl
  | .group condition children => nodesOperations_lenient hlenient condition q children

/-- A run: lenient compiling stops at no rule, so it applies the operators of all of them. -/
theorem nodesOperations_lenient (hlenient : env.context.validation = .lenient)
    (connective : Connective) (q : Query) : (nodes : List Rule.Node) →
      nodesOperations filters env connective q nodes =
        (Rule.nodeLeaves nodes).filterMap (leafOperation? filters env q)
  | [] => rfl
  | node :: rest => by
    unfold nodesOperations Rule.nodeLeaves
    rw [if_pos (compileNode_lenient hlenient connective q node),
      nodeOperations_lenient hlenient q node, nodesOperations_lenient hlenient connective q rest,
      List.filterMap_append]

end

end
end Compile
end Winnow
