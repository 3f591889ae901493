import Winnow.Proofs.Condition.Leaf

/-!
# A rule tree is compiled to what it says

Compiling nodes appends one predicate for each node that something is left of,
in the order of the conditions that the nodes say (`compileNodes_means`), and a
node that fails to compile says nothing for the same reason.  A group becomes
the conjunction or disjunction of its predicates, with or without parentheses
(`groupPredicate_holds`).
-/

namespace Winnow

open Engine

/-! ## Groups of predicates -/

namespace Query

theorem addClauses_nil (q : Query) (connective : Connective) : q.addClauses connective [] = q := by
  cases q
  simp [addClauses]

theorem addClauses_append (q : Query) (connective : Connective) (ps rs : List Predicate) :
    (q.addClauses connective ps).addClauses connective rs = q.addClauses connective (ps ++ rs) := by
  cases q
  simp [addClauses]

theorem addPredicate_eq_addClauses (q : Query) (connective : Connective) (p : Option Predicate) :
    q.addPredicate connective p = q.addClauses connective p.toList := by
  cases p with
  | none => exact (addClauses_nil q connective).symm
  | some p => rfl

/-- A group of predicates under one connective is their conjunction or disjunction. -/
theorem groupPredicate_holds (q : Query) (condition : Connective) {ps : List Predicate}
    (hps : ps ≠ []) :
    ∃ p, (q.group.addClauses condition ps).groupPredicate = some p ∧
      ∀ db frame, predicateHolds db frame p =
        match condition with
        | .and => ps.all (predicateHolds db frame)
        | .or => ps.any (predicateHolds db frame) := by
  rcases ps with _ | ⟨p, _ | ⟨p', ps⟩⟩
  · exact absurd rfl hps
  · refine ⟨p, rfl, fun db frame => ?_⟩
    cases condition <;> simp
  · refine ⟨.nested ((p :: p' :: ps).map fun p => ⟨condition, p⟩), rfl, fun db frame => ?_⟩
    rw [predicateHolds]
    exact clausesHold_uniform db frame condition hps

end Query

namespace Compile

/-! ## Definitions -/

/-- Predicates that hold of the frames that serve a row exactly when conditions do of the row, one by
one. -/
structure AllMean (db : Dataset) (serves : Frame → Row → Prop) (missing : Missing)
    (ps : List Predicate) (conditions : List Condition) : Prop where
  length_eq : ps.length = conditions.length
  holds : ∀ frame row, serves frame row →
    ps.map (predicateHolds db frame) = conditions.map fun c => c missing row

/-- What compiling nodes into a query leads to: the error that leaves them without conditions, or
the query with the predicates of the conditions. -/
inductive Outcome (db : Dataset) (serves : Frame → Row → Prop) (missing : Missing)
    (connective : Connective) (q : Query) :
    Except CompileError Query → Except CompileError (List Condition) → Prop
  | error (e : CompileError) : Outcome db serves missing connective q (.error e) (.error e)
  | ok {ps : List Predicate} {conditions : List Condition}
      (h : AllMean db serves missing ps conditions) :
      Outcome db serves missing connective q (.ok (q.addClauses connective ps)) (.ok conditions)

section
variable {db : Dataset} {serves : Frame → Row → Prop} {missing : Missing}

/-! ## Conditions one by one -/

namespace AllMean

theorem nil : AllMean db serves missing [] [] := ⟨rfl, fun _ _ _ => rfl⟩

theorem single {p : Predicate} {c : Condition} (h : Means db serves missing p c) :
    AllMean db serves missing [p] [c] :=
  ⟨rfl, fun frame row hrow => by rw [List.map_singleton, List.map_singleton, h frame row hrow]⟩

theorem append {ps rs : List Predicate} {cs ds : List Condition}
    (h : AllMean db serves missing ps cs) (h' : AllMean db serves missing rs ds) :
    AllMean db serves missing (ps ++ rs) (cs ++ ds) := by
  refine ⟨by rw [List.length_append, List.length_append, h.length_eq, h'.length_eq], ?_⟩
  intro frame row hrow
  rw [List.map_append, List.map_append, h.holds frame row hrow, h'.holds frame row hrow]

theorem eq_nil_iff {ps : List Predicate} {cs : List Condition}
    (h : AllMean db serves missing ps cs) : ps = [] ↔ cs = [] := by
  rw [← List.length_eq_zero_iff, h.length_eq, List.length_eq_zero_iff]

/-- Predicates hold together as the conditions do. -/
theorem joined {ps : List Predicate} {cs : List Condition} (h : AllMean db serves missing ps cs)
    (connective : Connective) (frame : Frame) (row : Row) (hrow : serves frame row) :
    (match connective with
      | .and => ps.all (predicateHolds db frame)
      | .or => ps.any (predicateHolds db frame)) =
      Condition.joined connective cs missing row := by
  have hall : ps.all (predicateHolds db frame) = cs.all fun c => c missing row := by
    have := congrArg (List.all · id) (h.holds frame row hrow)
    simpa [List.all_map] using this
  have hany : ps.any (predicateHolds db frame) = cs.any fun c => c missing row := by
    have := congrArg (List.any · id) (h.holds frame row hrow)
    simpa [List.any_map] using this
  cases connective with
  | and => exact hall
  | or => exact hany

end AllMean

/-- The group of predicates means the group of conditions. -/
theorem AllMean.group {ps : List Predicate} {cs : List Condition} (h : AllMean db serves missing ps cs)
    (q : Query) (condition : Connective) :
    AllMean db serves missing (q.group.addClauses condition ps).groupPredicate.toList
      (Condition.ofGroup condition cs).toList := by
  by_cases hps : ps = []
  · rw [hps, h.eq_nil_iff.mp hps]
    exact nil
  · obtain ⟨p, hp, hholds⟩ := q.groupPredicate_holds condition hps
    have hcs : cs.isEmpty = false := by
      simpa using fun hcs => hps (h.eq_nil_iff.mpr hcs)
    rw [hp]
    simp only [Condition.ofGroup, hcs, Option.toList_some]
    exact single fun frame row hrow => (hholds db frame).trans (h.joined condition frame row hrow)

/-- Clauses of predicates hold as the group of conditions does; without any they hold. -/
theorem AllMean.clauses {ps : List Predicate} {cs : List Condition}
    (h : AllMean db serves missing ps cs) (condition : Connective) (frame : Frame) (row : Row)
    (hrow : serves frame row) :
    clausesHold db frame (ps.map fun p => ⟨condition, p⟩) =
      ((Condition.ofGroup condition cs).getD fun _ _ => true) missing row := by
  by_cases hps : ps = []
  · rw [hps, h.eq_nil_iff.mp hps]
    rfl
  · have hcs : cs.isEmpty = false := by
      simpa using fun hcs => hps (h.eq_nil_iff.mpr hcs)
    refine (clausesHold_uniform db frame condition hps).trans
      ((h.joined condition frame row hrow).trans ?_)
    simp [Condition.ofGroup, hcs]

/-- Nothing is left of a node, and nothing is appended. -/
theorem Outcome.unchanged (connective : Connective) (q : Query) :
    Outcome db serves missing connective q (.ok q) (.ok []) := by
  have h : Outcome db serves missing connective q (.ok (q.addClauses connective [])) (.ok []) :=
    .ok .nil
  rwa [Query.addClauses_nil] at h

/-- What is read off the query can be read off the conditions. -/
theorem Outcome.map_eq {connective : Connective} {q : Query} {x : Except CompileError Query}
    {y : Except CompileError (List Condition)} (h : Outcome db serves missing connective q x y)
    {γ : Type} {f : Query → γ} {group : List Condition → Condition} {g : Condition → γ}
    (hfg : ∀ ps conditions, AllMean db serves missing ps conditions →
      f (q.addClauses connective ps) = g (group conditions)) :
    x.map f = (y.map group).map g := by
  cases h with
  | error e => rfl
  | ok h => exact congrArg Except.ok (hfg _ _ h)

end

/-! ## Nodes -/

theorem leafPredicate_group (filters : FilterSet) (env : Environment) (leaf : Rule.Leaf)
    (q : Query) : leafPredicate filters env leaf q.group = leafPredicate filters env leaf q := by
  unfold leafPredicate
  simp only [resolvedPredicate_group]

/-- Whether the frames fit the way that the paths of some rules are read. -/
def AllServed (db : Dataset) (filters : FilterSet) (env : Environment) (q : Query)
    (missing : Missing) (serves : Frame → Row → Prop) (leaves : List Rule.Leaf) : Prop :=
  ∀ leaf ∈ leaves, ∀ path, leafPath? filters env.registry q.entity leaf = some path →
    Served db env q missing serves path

section
variable (db : Dataset) {filters : FilterSet} (env : Environment) (q : Query) (missing : Missing)
  (serves : Frame → Row → Prop)

theorem compileLeaf_means (hplain : filters.Plain)
    (hbinds : ∀ frame row, serves frame row → frame.row? q.qualifier = some row)
    (connective : Connective) (r : Query) (hgroup : r.group = q.group)
    (leaf : Rule.Leaf) (hserved : AllServed db filters env q missing serves [leaf]) :
    Outcome db serves missing connective r (compileNode filters env connective r (.leaf leaf))
      ((Condition.ofNode db env.registry env.context filters q.entity (.leaf leaf)).map
        Option.toList) := by
  have hmeans := leafPredicate_means db env q missing serves hbinds hplain leaf
    (hserved leaf List.mem_cons_self)
  rw [← leafPredicate_group, ← hgroup, leafPredicate_group] at hmeans
  unfold compileNode Condition.ofNode
  rw [compileLeaf_eq_predicate env r hplain]
  revert hmeans
  generalize leafPredicate filters env leaf r = x
  generalize Condition.ofLeaf db env.registry env.context filters q.entity leaf = y
  intro hmeans
  cases hmeans with
  | error e =>
    simp only [Except.map, admit?, Condition.admitted]
    cases env.context.isStrict with
    | true => exact .error e
    | false => exact .unchanged connective r
  | free => exact .unchanged connective r
  | bound h => exact .ok (.single h)

mutual

/-- One step: a node appends the predicate of what it says to any query of the table. -/
theorem compileNode_means (hplain : filters.Plain)
    (hbinds : ∀ frame row, serves frame row → frame.row? q.qualifier = some row)
    (connective : Connective) (r : Query) (hgroup : r.group = q.group) :
    (node : Rule.Node) → AllServed db filters env q missing serves node.leaves →
      Outcome db serves missing connective r (compileNode filters env connective r node)
        ((Condition.ofNode db env.registry env.context filters q.entity node).map Option.toList)
  | .leaf leaf, hserved =>
    compileLeaf_means db env q missing serves hplain hbinds connective r hgroup leaf hserved
  | .group condition children, hserved => by
    have h := compileNodes_means hplain hbinds condition r.group
      (by rw [Query.group_group, hgroup]) children hserved
    unfold compileNode Condition.ofNode
    revert h
    generalize compileNodes filters env condition r.group children = x
    generalize Condition.ofNodes db env.registry env.context filters q.entity children = y
    intro h
    cases h with
    | error e => exact .error e
    | ok h =>
      simp only [Except.map]
      rw [← Query.absorb, Query.absorb_addClauses, Query.addPredicate_eq_addClauses]
      exact .ok (h.group r condition)

/-- A run: nodes append the predicates of what they say, one after another. -/
theorem compileNodes_means (hplain : filters.Plain)
    (hbinds : ∀ frame row, serves frame row → frame.row? q.qualifier = some row)
    (connective : Connective) (r : Query) (hgroup : r.group = q.group) :
    (nodes : List Rule.Node) → AllServed db filters env q missing serves (Rule.nodeLeaves nodes) →
      Outcome db serves missing connective r (compileNodes filters env connective r nodes)
        (Condition.ofNodes db env.registry env.context filters q.entity nodes)
  | [], _ => .unchanged connective r
  | node :: rest, hserved => by
    have h := compileNode_means hplain hbinds connective r hgroup node fun leaf hleaf =>
      hserved leaf (by simp [Rule.nodeLeaves, hleaf])
    unfold compileNodes Condition.ofNodes
    simp only [bind, Except.bind]
    revert h
    generalize compileNode filters env connective r node = x
    generalize Condition.ofNode db env.registry env.context filters q.entity node = y
    intro h
    rcases y with e | c
    · cases h
      exact .error e
    · cases h with
      | @ok ps _ h =>
        have hrest := compileNodes_means hplain hbinds connective (r.addClauses connective ps)
          hgroup rest fun leaf hleaf => hserved leaf (by simp [Rule.nodeLeaves, hleaf])
        revert hrest
        simp only
        generalize compileNodes filters env connective (r.addClauses connective ps) rest = x
        generalize Condition.ofNodes db env.registry env.context filters q.entity rest = y
        intro hrest
        cases hrest with
        | error e => exact .error e
        | ok hrest =>
          rw [Query.addClauses_append]
          exact .ok (h.append hrest)

end

end

end Compile
end Winnow
