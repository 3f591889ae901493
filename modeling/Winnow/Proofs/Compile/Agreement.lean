import Winnow.Proofs.Compile.Targets
import Winnow.Proofs.Sample

/-!
# Joins against questions about related rows

A tree compiled into the query of an entity selects the visible rows of which
the tree holds, in the order of the table (`compileTree_execute`), in the
reading of missing rows that the joins of the query serve.

A tree can be compiled with its to-one paths joined, or with questions about
related rows only.  Both fail alike.  With joins the query selects the rows of
which the tree holds with missing rows null (`compileJoined_execute`), without
them those of which it holds with missing rows unmet (`compileNested_execute`).
So the second selects no row that the first does not, and the two agree exactly
when the readings do (`joined_agrees_iff`): always when no rule accepts a
missing row, and not for a rule that a related field is null
(`joined_disagrees_sample`).
-/

namespace Winnow.Compile

open Engine Condition

/-! ## Running compiled trees -/

/-- A blank query on an entity, with joins and clauses, only selects. -/
theorem onlySelects_addClauses (e : Entity) (joins : List Join) (connective : Connective)
    (ps : List Predicate) :
    (((Query.ofEntity e).withJoins joins).addClauses connective ps).OnlySelects :=
  ⟨rfl, rfl, rfl, rfl, rfl, rfl⟩

section
variable {db : Dataset} {e : Entity} {joins : List Join} {frameOf : Row → Frame}
  (hframes : FramesOf db ((Query.ofEntity e).withJoins joins) frameOf)

include hframes

/-- Clauses that mean conditions on the rows of a table select the rows on which they hold. -/
theorem execute_clauses (connective : Connective) (ps : List Predicate) (holds : Row → Bool)
    (h : ∀ row ∈ db.rows e.table,
      clausesHold db (frameOf row) (ps.map fun p => ⟨connective, p⟩) = holds row) :
    execute db (((Query.ofEntity e).withJoins joins).addClauses connective ps) =
      (db.rows e.table).filter fun row => e.shows row && holds row := by
  have hframes : FramesOf db (((Query.ofEntity e).withJoins joins).addClauses connective ps)
      frameOf := ⟨hframes.joinedFrames_eq, hframes.root⟩
  rw [execute_eq_filter hframes (onlySelects_addClauses e joins connective ps)]
  exact List.filter_congr fun row hrow => congrArg (e.shows row && ·) (h row hrow)

end

section
variable (db : Dataset) {filters : FilterSet} (hplain : filters.Plain) (registry : Registry)
  (context : CompileContext) (e : Entity) (tree : Rule.Tree)

include hplain

/-- Compiling a tree into a query whose frames bind the table appends the predicates of what the
tree says. -/
theorem compileTree_means (joins : List Join) (targets : Option (Keyed JoinTarget))
    (missing : Missing) (frameOf : Row → Frame)
    (hframes : FramesOf db ((Query.ofEntity e).withJoins joins) frameOf)
    (hserved : AllServed db filters ⟨registry, context, targets⟩ (Query.ofEntity e) missing
      (ServedBy db (Query.ofEntity e) frameOf) tree.leaves)
    (r : Query) (hgroup : r.group = Query.ofEntity e) :
    Outcome db (ServedBy db (Query.ofEntity e) frameOf) missing tree.condition r
      (compileTree filters ⟨registry, context, targets⟩ tree r)
      (ofNodes db registry context filters e tree.children) := by
  have hbinds : ∀ frame row, ServedBy db (Query.ofEntity e) frameOf frame row →
      frame.row? (Query.ofEntity e).qualifier = some row := by
    rintro frame row ⟨hrow, rfl⟩
    exact hframes.root row hrow
  exact compileNodes_means db ⟨registry, context, targets⟩ (Query.ofEntity e) missing _ hplain
    hbinds tree.condition r hgroup tree.children hserved

/-- A tree compiled into a query with its frames selects the rows it describes, or is the error that
it leads to. -/
theorem compileTree_execute (joins : List Join) (targets : Option (Keyed JoinTarget))
    (missing : Missing) (frameOf : Row → Frame)
    (hframes : FramesOf db ((Query.ofEntity e).withJoins joins) frameOf)
    (hserved : AllServed db filters ⟨registry, context, targets⟩ (Query.ofEntity e) missing
      (ServedBy db (Query.ofEntity e) frameOf) tree.leaves) :
    (compileTree filters ⟨registry, context, targets⟩ tree
        ((Query.ofEntity e).withJoins joins)).map (execute db) =
      (ofTree db registry context filters e tree).map fun c =>
        (db.rows e.table).filter fun row => e.shows row && c missing row := by
  have houtcome := compileTree_means db hplain registry context e tree joins targets missing frameOf
    hframes hserved ((Query.ofEntity e).withJoins joins) rfl
  unfold ofTree
  refine houtcome.map_eq fun ps conditions h => ?_
  refine execute_clauses hframes tree.condition _ _ fun row hrow => ?_
  exact h.clauses tree.condition (frameOf row) row ⟨hrow, rfl⟩

end

/-! ## With joins and without -/

/-- Compiles a tree into a query with all of its to-one paths joined. -/
def compileJoined (filters : FilterSet) (registry : Registry) (context : CompileContext)
    (tree : Rule.Tree) (q : Query) : Except CompileError Query := do
  let targets := joinTargets filters registry q.entity tree
  let joined ← joinAll registry targets q
  compileTree filters ⟨registry, context, some targets⟩ tree joined

/-- Compiles a tree into a query without joins. -/
def compileNested (filters : FilterSet) (registry : Registry) (context : CompileContext)
    (tree : Rule.Tree) (q : Query) : Except CompileError Query :=
  compileTree filters ⟨registry, context, none⟩ tree q

/-- Two outcomes that lead to the same fail alike, or both succeed. -/
theorem cases_of_map_eq {α β γ : Type} {x : Except CompileError α} {y : Except CompileError β}
    {f : α → γ} {g : β → γ} (h : x.map f = y.map g) :
    (∃ error, x = .error error ∧ y = .error error) ∨
      ∃ a b, x = .ok a ∧ y = .ok b ∧ f a = g b := by
  rcases x with error | a <;> rcases y with error' | b
  · cases h
    exact .inl ⟨error, rfl, rfl⟩
  · cases h
  · cases h
  · exact .inr ⟨a, b, rfl, rfl, Except.ok.inj h⟩

theorem filter_eq_filter_iff {α : Type} (p q : α → Bool) (l : List α) :
    l.filter p = l.filter q ↔ ∀ a ∈ l, p a = q a := by
  refine ⟨fun h a ha => ?_, List.filter_congr⟩
  have hmem : a ∈ l.filter p ↔ a ∈ l.filter q := by rw [h]
  rw [List.mem_filter, List.mem_filter, and_congr_right_iff] at hmem
  exact Bool.eq_iff_iff.mpr (hmem ha)

theorem filter_sublist_filter {α : Type} {p q : α → Bool} {l : List α}
    (h : ∀ a ∈ l, p a = true → q a = true) : (l.filter p).Sublist (l.filter q) := by
  have hfilter : (l.filter q).filter p = l.filter p := by
    rw [List.filter_filter]
    refine List.filter_congr fun a ha => ?_
    have := h a ha
    cases hp : p a
    · rfl
    · rw [this hp]
      rfl
  rw [← hfilter]
  exact List.filter_sublist

section
variable (db : Dataset) {filters : FilterSet} (hplain : filters.Plain) (registry : Registry)
  (context : CompileContext) (e : Entity) (tree : Rule.Tree)

include hplain

/-- Without joins a query selects the rows of which its tree holds, missing rows unmet, whatever the
data. -/
theorem compileNested_execute :
    (compileNested filters registry context tree (Query.ofEntity e)).map (execute db) =
      (ofTree db registry context filters e tree).map fun c =>
        (db.rows e.table).filter fun row => e.shows row && c .unmet row :=
  compileTree_execute db hplain registry context e tree [] none .unmet _ (unjoined_frames db rfl)
    (unjoined_served db filters registry context (Query.ofEntity e) _ tree.leaves)

section
variable (hunique : UniqueToOne db registry e)
  (hapart : AliasesApart e.table (IsJoined filters registry e tree))

include hunique hapart

/-- With joins a query selects the rows of which its tree holds, missing rows null. -/
theorem compileJoined_execute :
    (compileJoined filters registry context tree (Query.ofEntity e)).map (execute db) =
      (ofTree db registry context filters e tree).map fun c =>
        (db.rows e.table).filter fun row => e.shows row && c .null row := by
  obtain ⟨joins, frameOf, hjoins, hframes, hserved⟩ :=
    joined_served db filters registry context e tree hunique hapart
  rw [← compileTree_execute db hplain registry context e tree joins _ .null frameOf hframes hserved]
  unfold compileJoined
  simp only [show (Query.ofEntity e).entity = e from rfl, hjoins, bind, Except.bind]

/-- Both ways of compiling fail alike or give queries that select alike exactly when the tree reads
alike on every visible row, missing rows null or unmet.  The query without joins never selects more,
and the two agree when no rule of the tree accepts a missing row. -/
theorem joined_agrees_iff :
    (∃ error, compileJoined filters registry context tree (Query.ofEntity e) = .error error ∧
      compileNested filters registry context tree (Query.ofEntity e) = .error error) ∨
    ∃ joined nested condition,
      compileJoined filters registry context tree (Query.ofEntity e) = .ok joined ∧
      compileNested filters registry context tree (Query.ofEntity e) = .ok nested ∧
      ofTree db registry context filters e tree = .ok condition ∧
      (execute db nested).Sublist (execute db joined) ∧
      (execute db joined = execute db nested ↔ ∀ row ∈ db.rows e.table, e.shows row = true →
        condition .null row = condition .unmet row) ∧
      ((∀ row ∈ db.rows e.table, e.shows row = true → ∀ leaf ∈ tree.leaves,
          ¬ AcceptsMissing db registry context filters e leaf row) →
        execute db joined = execute db nested) := by
  rcases cases_of_map_eq (compileJoined_execute db hplain registry context e tree hunique hapart)
    with ⟨error, hjoined, hcondition⟩ | ⟨joined, condition, hjoined, hcondition, hselects⟩
  · rcases cases_of_map_eq (compileNested_execute db hplain registry context e tree)
      with ⟨error', hnested, hcondition'⟩ | ⟨nested, condition', -, hcondition', -⟩
    · cases hcondition.symm.trans hcondition'
      exact .inl ⟨error, hjoined, hnested⟩
    · cases hcondition.symm.trans hcondition'
  · rcases cases_of_map_eq (compileNested_execute db hplain registry context e tree)
      with ⟨error', -, hcondition'⟩ | ⟨nested, condition', hnested, hcondition', hselects'⟩
    · cases hcondition.symm.trans hcondition'
    · cases hcondition.symm.trans hcondition'
      have hiff : execute db joined = execute db nested ↔ ∀ row ∈ db.rows e.table,
          e.shows row = true → condition .null row = condition .unmet row := by
        rw [hselects, hselects', filter_eq_filter_iff]
        refine forall₂_congr fun row _ => ?_
        cases e.shows row <;> simp
      refine .inr ⟨joined, nested, condition, hjoined, hnested, hcondition, ?_, hiff, ?_⟩
      · rw [hselects, hselects']
        refine filter_sublist_filter fun row hrow h => ?_
        obtain ⟨hshows, hunmet⟩ := Bool.and_eq_true_iff.mp h
        exact Bool.and_eq_true_iff.mpr
          ⟨hshows, ofTree_monotone hplain hunique hcondition hrow hunmet⟩
      · intro haccepts
        exact hiff.mpr fun row hrow hshows =>
          ofTree_readings_eq hplain hunique hcondition hrow (haccepts row hrow hshows)

end

end

theorem joined_agrees_iff_sample :
    ∃ joined nested,
      compileJoined Sample.filters Sample.registry Sample.context Sample.ofCompany
          (Query.ofEntity Sample.contact) = .ok joined ∧
        compileNested Sample.filters Sample.registry Sample.context Sample.ofCompany
          (Query.ofEntity Sample.contact) = .ok nested ∧
        execute Sample.dataset joined = execute Sample.dataset nested := by
  have hok : (compileJoined Sample.filters Sample.registry Sample.context Sample.ofCompany
      (Query.ofEntity Sample.contact)).isOk = true := by decide +kernel
  rcases joined_agrees_iff Sample.dataset Sample.filters_plain Sample.registry Sample.context
      Sample.contact Sample.ofCompany Sample.uniqueToOne (Sample.aliasesApart Sample.ofCompany)
    with ⟨error, hjoined, -⟩ | ⟨joined, nested, -, hjoined, hnested, -, -, -, hagrees⟩
  · rw [hjoined] at hok
    cases hok
  · exact ⟨joined, nested, hjoined, hnested,
      hagrees fun row hrow _ leaf hleaf => Sample.ofCompany_rejects row hrow leaf hleaf⟩

/-- A contact without company has no company name: a join finds it, a question about related rows
does not. -/
theorem joined_disagrees_sample :
    Sample.filters.Plain ∧ UniqueToOne Sample.dataset Sample.registry Sample.contact ∧
      (compileJoined Sample.filters Sample.registry Sample.context Sample.missingCompany
        (Query.ofEntity Sample.contact)).toOption.map (ids Sample.dataset) = some [2] ∧
      (compileNested Sample.filters Sample.registry Sample.context Sample.missingCompany
        (Query.ofEntity Sample.contact)).toOption.map (ids Sample.dataset) = some [] :=
  ⟨Sample.filters_plain, Sample.uniqueToOne, by decide +kernel, by decide +kernel⟩

end Winnow.Compile
