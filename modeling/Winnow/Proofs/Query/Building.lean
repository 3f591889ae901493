import Mathlib.Data.List.Nodup
import Winnow.Proofs.Schema.Paths
import Winnow.Query.Builder

/-!
# What building a query keeps

Rules, searches and inner groups reach a query in one way: a group is collected
in a query of its own and absorbed.  Absorbing appends at most one clause
(`absorb_clauses`), appends joins (`absorb_joins`), and keeps the table that the
query reads (`absorb_group`).  A group of predicates under one connective, with
nothing else in it, is absorbed as that one clause alone (`absorb_addClauses`).
-/

namespace Winnow.Query

/-! ## Definitions -/

/-- Puts a collected group in as one clause, with the scopes it removed. -/
def absorb (q : Query) (connective : Connective) (group : Query) : Query :=
  (q.inheritRemoved group).addGroup connective group

/-- The clause a group becomes; an empty group becomes none. -/
def groupPredicate (group : Query) : Option Predicate :=
  match group.clauses with
  | [] => none
  | [clause] => some clause.predicate
  | clauses => some (.nested clauses)

/-- What a group brings along besides its clause. -/
def addParts (q group : Query) : Query :=
  let q := (group.aggregates.foldl addAggregate (group.joins.foldl addJoin q)).load group.eager
  { q with orders := q.orders ++ group.orders }

/-- Appends a predicate, if there is one. -/
def addPredicate (q : Query) (connective : Connective) (predicate : Option Predicate) : Query :=
  match predicate with
  | some p => q.addClause connective p
  | none => q

/-- The query with other joins. -/
def withJoins (q : Query) (joins : List Join) : Query := { q with joins := joins }

/-- Appends predicates that are all joined by the same connective. -/
def addClauses (q : Query) (connective : Connective) (predicates : List Predicate) : Query :=
  { q with clauses := q.clauses ++ predicates.map fun p => ⟨connective, p⟩ }

/-! ## The table read -/

@[simp] theorem ofEntity_group (e : Entity) : (ofEntity e).group = ofEntity e := rfl

@[simp] theorem group_group (q : Query) : q.group.group = q.group := rfl

theorem entity_eq_of_group {q r : Query} (h : q.group = r.group) : q.entity = r.entity := by
  show q.group.entity = r.group.entity
  rw [h]

theorem tableAlias_eq_of_group {q r : Query} (h : q.group = r.group) :
    q.tableAlias = r.tableAlias := by
  show q.group.tableAlias = r.group.tableAlias
  rw [h]

/-! ## Folds over parts of a group -/

theorem foldl_keeps {α β γ : Type} (f : α → γ) (step : α → β → α)
    (h : ∀ a b, f (step a b) = f a) (a : α) (bs : List β) : f (bs.foldl step a) = f a := by
  induction bs generalizing a with
  | nil => rfl
  | cons b bs ih => rw [List.foldl_cons, ih, h]

/-- What joins do not change: all but the joins themselves. -/
theorem addJoin_keeps {γ : Type} (f : Query → γ) (h : ∀ q joins, f { q with joins := joins } = f q)
    (q : Query) (j : Join) : f (q.addJoin j) = f q := by
  unfold addJoin
  split
  · rfl
  · exact h q _

theorem addAggregate_keeps {γ : Type} (f : Query → γ)
    (h : ∀ q aggregates, f { q with aggregates := aggregates } = f q) (q : Query) (a : Aggregate) :
    f (q.addAggregate a) = f q := by
  unfold addAggregate
  split
  · rfl
  · exact h q _

theorem addEager_keeps {γ : Type} (f : Query → γ) (h : ∀ q eager, f { q with eager := eager } = f q)
    (q : Query) (r : String) : f (q.addEager r) = f q := by
  unfold addEager
  split
  · rfl
  · exact h q _

theorem load_keeps {γ : Type} (f : Query → γ) (h : ∀ q eager, f { q with eager := eager } = f q)
    (q : Query) (relations : List String) : f (q.load relations) = f q :=
  foldl_keeps f addEager (addEager_keeps f h) q relations

theorem select_keeps {γ : Type} (f : Query → γ)
    (h : ∀ q selects, f { q with selects := selects } = f q) (q : Query) (columns : List String) :
    f (q.select columns) = f q := by
  refine foldl_keeps f _ (fun q name => ?_) q columns
  simp only
  split
  · rfl
  · exact h q _

theorem inheritRemoved_keeps {γ : Type} (f : Query → γ)
    (h : ∀ q removed, f { q with removedScopes := removed } = f q) (q other : Query) :
    f (q.inheritRemoved other) = f q :=
  foldl_keeps f removeScope (fun q _ => h q _) q other.removedScopes

/-- A part of a query that depends on neither aggregates, loads nor orders changes at most by the
joins of a group. -/
theorem addParts_keeps {γ : Type} (f : Query → γ)
    (haggregates : ∀ q aggregates, f { q with aggregates := aggregates } = f q)
    (heager : ∀ q eager, f { q with eager := eager } = f q)
    (horders : ∀ q orders, f { q with orders := orders } = f q) (q g : Query) :
    f (q.addParts g) = f (g.joins.foldl addJoin q) := by
  unfold addParts
  rw [horders, load_keeps f heager]
  exact foldl_keeps f addAggregate (addAggregate_keeps f haggregates) _ _

/-- What joins along relations do not change: all but the joins themselves. -/
theorem joinFrom_keeps {γ : Type} (f : Query → γ)
    (hf : ∀ q joins, f { q with joins := joins } = f q) {registry : Registry}
    {walked relations : List String} {entity : Entity} {parent tableAlias : String} {q r : Query}
    (h : joinFrom registry walked entity parent relations q = .ok (tableAlias, r)) : f r = f q := by
  induction relations generalizing walked entity parent q with
  | nil =>
    cases h
    rfl
  | cons relation rest ih =>
    unfold joinFrom at h
    split at h
    · cases h
    · simp only at h
      split at h
      · cases h
      · split at h
        · exact (ih h).trans (addJoin_keeps f hf q _)
        · exact ih h

/-- A path of relations can be joined exactly when it is a to-one path. -/
theorem joinFrom_isOk_iff {registry : Registry} {walked relations : List String} {entity : Entity}
    {parent : String} {q : Query} :
    (joinFrom registry walked entity parent relations q).isOk = true ↔
      registry.isToOnePath entity relations = true := by
  induction relations generalizing walked entity parent q with
  | nil => exact iff_of_true rfl rfl
  | cons relation rest ih =>
    unfold joinFrom Registry.isToOnePath
    rcases hrelated : registry.related entity relation with error | ⟨found, related⟩ <;>
      simp only
    · exact iff_of_false Bool.false_ne_true Bool.false_ne_true
    · cases hfound : found.isToOne with
      | false => exact iff_of_false Bool.false_ne_true Bool.false_ne_true
      | true =>
        simp only [Bool.not_true, Bool.false_eq_true, if_false, Bool.true_and]
        exact ih

theorem joinPath_isOk_iff {registry : Registry} {relations : List String} {q : Query} :
    (q.joinPath registry relations).isOk = true ↔
      registry.isToOnePath q.entity relations = true :=
  joinFrom_isOk_iff

theorem withJoins_self (q : Query) : q.withJoins q.joins = q := by
  cases q
  rfl

theorem addJoin_eq_withJoins (q : Query) (join : Join) :
    ∃ joins, q.addJoin join = q.withJoins joins := by
  unfold addJoin
  split
  · exact ⟨q.joins, q.withJoins_self.symm⟩
  · exact ⟨_, rfl⟩

/-- Joins are appended; of the joins given, those whose alias is taken are left out. -/
theorem addJoins_joins (q : Query) (joins : List Join) :
    ∃ added, (joins.foldl addJoin q).joins = q.joins ++ added ∧ ∀ j ∈ added, j ∈ joins := by
  induction joins generalizing q with
  | nil => exact ⟨[], by simp, by simp⟩
  | cons j joins ih =>
    obtain ⟨added, h, hmem⟩ := ih (q.addJoin j)
    rw [List.foldl_cons, h]
    by_cases hj : q.hasJoin j.tableAlias
    · refine ⟨added, by simp [addJoin, hj], fun j' hj' => ?_⟩
      exact List.mem_cons_of_mem _ (hmem j' hj')
    · refine ⟨j :: added, by simp [addJoin, hj], fun j' hj' => ?_⟩
      rcases List.mem_cons.mp hj' with rfl | hj'
      · exact List.mem_cons_self
      · exact List.mem_cons_of_mem _ (hmem j' hj')

/-- Adding a join takes its alias, if that is not taken already, and no other. -/
theorem hasJoin_addJoin (q : Query) (join : Join) (name : String) :
    (q.addJoin join).hasJoin name = true ↔ q.hasJoin name = true ∨ join.tableAlias = name := by
  unfold addJoin
  split
  next htaken =>
    refine ⟨.inl, fun h => h.elim id ?_⟩
    rintro rfl
    exact htaken
  next => simp [hasJoin]

/-- A join under a free alias leaves the aliases distinct. -/
theorem aliases_nodup_append {q : Query} (h : (q.joins.map Join.tableAlias).Nodup) {join : Join}
    (hfree : ¬q.hasJoin join.tableAlias = true) :
    ((q.joins ++ [join]).map Join.tableAlias).Nodup := by
  rw [List.map_append, List.map_singleton, ← List.concat_eq_append]
  refine h.concat fun htaken => hfree ?_
  obtain ⟨other, hother, hsame⟩ := List.mem_map.mp htaken
  exact List.any_eq_true.mpr ⟨other, hother, beq_iff_eq.mpr hsame⟩

/-! ## Absorbing -/

theorem addGroup_eq (q : Query) (connective : Connective) (g : Query) :
    q.addGroup connective g = (q.addParts g).addPredicate connective g.groupPredicate := by
  unfold addGroup groupPredicate addPredicate addParts
  rcases g.clauses with _ | ⟨c, _ | ⟨c', cs⟩⟩ <;> rfl

/-- A part of a query that depends on neither clauses, scopes, joins, aggregates, loads nor orders
is kept when a group is absorbed. -/
theorem absorb_keeps {γ : Type} (f : Query → γ)
    (hclauses : ∀ q clauses, f { q with clauses := clauses } = f q)
    (hremoved : ∀ q removed, f { q with removedScopes := removed } = f q)
    (hjoins : ∀ q joins, f { q with joins := joins } = f q)
    (haggregates : ∀ q aggregates, f { q with aggregates := aggregates } = f q)
    (heager : ∀ q eager, f { q with eager := eager } = f q)
    (horders : ∀ q orders, f { q with orders := orders } = f q)
    (q : Query) (connective : Connective) (g : Query) : f (q.absorb connective g) = f q := by
  have hparts : f ((q.inheritRemoved g).addParts g) = f q := by
    rw [addParts_keeps f haggregates heager horders,
      foldl_keeps f addJoin (addJoin_keeps f hjoins), inheritRemoved_keeps f hremoved]
  unfold absorb
  rw [addGroup_eq]
  cases g.groupPredicate with
  | none => exact hparts
  | some p => exact (hclauses _ _).trans hparts

@[simp] theorem absorb_group (q : Query) (connective : Connective) (g : Query) :
    (q.absorb connective g).group = q.group :=
  absorb_keeps group (fun _ _ => rfl) (fun _ _ => rfl) (fun _ _ => rfl) (fun _ _ => rfl)
    (fun _ _ => rfl) (fun _ _ => rfl) q connective g

theorem absorb_clauses (q : Query) (connective : Connective) (g : Query) :
    (q.absorb connective g).clauses =
      q.clauses ++ g.groupPredicate.toList.map fun p => ⟨connective, p⟩ := by
  have hparts : ((q.inheritRemoved g).addParts g).clauses = q.clauses := by
    rw [addParts_keeps clauses (fun _ _ => rfl) (fun _ _ => rfl) (fun _ _ => rfl),
      foldl_keeps clauses addJoin (addJoin_keeps clauses fun _ _ => rfl),
      inheritRemoved_keeps clauses fun _ _ => rfl]
  unfold absorb
  rw [addGroup_eq]
  cases g.groupPredicate with
  | none => simp [addPredicate, hparts]
  | some p => simp [addPredicate, addClause, hparts]

/-- Absorbing appends joins of the group. -/
theorem absorb_joins (q : Query) (connective : Connective) (g : Query) :
    ∃ added, (q.absorb connective g).joins = q.joins ++ added ∧ ∀ j ∈ added, j ∈ g.joins := by
  obtain ⟨added, h, hmem⟩ := addJoins_joins (q.inheritRemoved g) g.joins
  rw [inheritRemoved_keeps joins (fun _ _ => rfl)] at h
  refine ⟨added, ?_, hmem⟩
  rw [← h, ← addParts_keeps joins (fun _ _ => rfl) (fun _ _ => rfl) (fun _ _ => rfl)]
  unfold absorb
  rw [addGroup_eq]
  cases g.groupPredicate <;> rfl

/-- A group of predicates under one connective, with nothing else in it, becomes one clause and
changes nothing else. -/
theorem absorb_addClauses (q : Query) (connective condition : Connective) (ps : List Predicate) :
    q.absorb connective (q.group.addClauses condition ps) =
      q.addPredicate connective (q.group.addClauses condition ps).groupPredicate := by
  have hparts : q.addParts (q.group.addClauses condition ps) = q := by
    cases q
    simp [addParts, addClauses, group, ofEntity, load]
  unfold absorb
  rw [addGroup_eq]
  exact congrArg (fun r => addPredicate r _ _) hparts

end Winnow.Query
