import Winnow.Proofs.Query.Built

/-!
# Scopes that a query removes

Absorbing a group removes the scopes that the group removed and no others
(`mem_absorb_removedScopes`).  The questions of the group are asked as they are
(`absorb_questions`), so what they removed by themselves stays with them.
-/

namespace Winnow.Query

/-! ## Names -/

theorem mem_insertName (name other : String) (names : List String) :
    other ∈ insertName name names ↔ other = name ∨ other ∈ names := by
  induction names with
  | nil => exact List.mem_cons
  | cons n rest ih =>
    unfold insertName
    by_cases hsame : n = name
    · subst hsame
      rw [if_pos rfl, List.mem_cons]
      constructor
      · exact .inr
      · rintro (hother | hother)
        · exact .inl hother
        · exact hother
    · rw [if_neg hsame]
      split
      · exact List.mem_cons
      · rw [List.mem_cons, ih, List.mem_cons]
        exact or_left_comm

theorem mem_inheritRemoved (q other : Query) (name : String) :
    name ∈ (q.inheritRemoved other).removedScopes ↔
      name ∈ q.removedScopes ∨ name ∈ other.removedScopes := by
  have hfold : ∀ (names : List String) (q : Query),
      name ∈ (names.foldl removeScope q).removedScopes ↔
        name ∈ q.removedScopes ∨ name ∈ names := by
    intro names
    induction names with
    | nil =>
      intro q
      simp
    | cons first rest ih =>
      intro q
      rw [List.foldl_cons, ih]
      show name ∈ insertName first q.removedScopes ∨ name ∈ rest ↔ _
      rw [mem_insertName, List.mem_cons]
      exact or_assoc.trans or_left_comm
  exact hfold other.removedScopes q

/-! ## Absorbing -/

section
variable (q : Query) (connective : Connective) (g : Query)

theorem mem_absorb_removedScopes (name : String) :
    name ∈ (q.absorb connective g).removedScopes ↔
      name ∈ q.removedScopes ∨ name ∈ g.removedScopes := by
  have hparts : ((q.inheritRemoved g).addParts g).removedScopes =
      (q.inheritRemoved g).removedScopes := by
    rw [addParts_keeps removedScopes (fun _ _ => rfl) (fun _ _ => rfl) (fun _ _ => rfl)]
    exact foldl_keeps removedScopes addJoin (addJoin_keeps removedScopes fun _ _ => rfl) _ g.joins
  have habsorb : (q.absorb connective g).removedScopes =
      ((q.inheritRemoved g).addParts g).removedScopes := by
    unfold absorb
    rw [addGroup_eq]
    cases g.groupPredicate <;> rfl
  rw [habsorb, hparts, mem_inheritRemoved]

/-- The questions of a group are asked as they are, after those that were asked already. -/
theorem absorb_questions :
    clausesQuestions (q.absorb connective g).clauses =
      clausesQuestions q.clauses ++ clausesQuestions g.clauses := by
  have hgroup := g.groupPredicate_questions
  rw [absorb_clauses, clausesQuestions_append]
  cases hp : g.groupPredicate with
  | none =>
    rw [hp] at hgroup
    rw [← hgroup]
    rfl
  | some p =>
    rw [hp, Option.toList_some, List.flatMap_singleton] at hgroup
    rw [← hgroup, Option.toList_some, List.map_singleton, clausesQuestions_single]

theorem mem_absorb_aggregates {a : Aggregate} (h : a ∈ (q.absorb connective g).aggregates) :
    a ∈ q.aggregates ∨ a ∈ g.aggregates := by
  have hfold : ∀ (added : List Aggregate) (q : Query),
      a ∈ (added.foldl addAggregate q).aggregates → a ∈ q.aggregates ∨ a ∈ added := by
    intro added
    induction added with
    | nil => exact fun q ha => .inl ha
    | cons first rest ih =>
      intro q ha
      rcases ih (q.addAggregate first) ha with ha | ha
      · unfold addAggregate at ha
        split at ha
        · exact .inl ha
        · rcases List.mem_append.mp ha with ha | ha
          · exact .inl ha
          · exact .inr (List.mem_singleton.mp ha ▸ List.mem_cons_self)
      · exact .inr (List.mem_cons_of_mem first ha)
  have hload : ((q.inheritRemoved g).addParts g).aggregates =
      (g.aggregates.foldl addAggregate
        (g.joins.foldl addJoin (q.inheritRemoved g))).aggregates :=
    load_keeps aggregates (fun _ _ => rfl) _ g.eager
  have hstart : (g.joins.foldl addJoin (q.inheritRemoved g)).aggregates = q.aggregates :=
    (foldl_keeps aggregates addJoin (addJoin_keeps aggregates fun _ _ => rfl) _ g.joins).trans
      (inheritRemoved_keeps aggregates (fun _ _ => rfl) q g)
  have habsorb : (q.absorb connective g).aggregates =
      ((q.inheritRemoved g).addParts g).aggregates := by
    unfold absorb
    rw [addGroup_eq]
    cases g.groupPredicate <;> rfl
  rw [habsorb, hload] at h
  rw [← hstart]
  exact hfold g.aggregates _ h

/-- A question of a query that absorbed a group is one of either. -/
theorem mem_absorb_questions {asked : Link × Query}
    (h : asked ∈ (q.absorb connective g).questions) :
    asked ∈ q.questions ∨ asked ∈ g.questions := by
  rcases mem_questions.mp h with ⟨a, ha, hasked⟩ | hclauses
  · rcases q.mem_absorb_aggregates connective g ha with hold | hnew
    · exact .inl (mem_questions.mpr (.inl ⟨a, hold, hasked⟩))
    · exact .inr (mem_questions.mpr (.inl ⟨a, hnew, hasked⟩))
  · rw [absorb_questions, List.mem_append] at hclauses
    rcases hclauses with hold | hnew
    · exact .inl (mem_questions.mpr (.inr hold))
    · exact .inr (mem_questions.mpr (.inr hnew))

end

/-! ## Queries that remove nothing -/

/-- Whether no scope is removed by a query, by those of its questions, and so on. -/
inductive KeepsScopes : Query → Prop where
  | intro {q : Query} :
      q.removedScopes = [] → (∀ asked ∈ q.questions, KeepsScopes asked.2) → KeepsScopes q

/-- A query on a related entity keeps all scopes. -/
theorem inner_keepsScopes (q : Query) (related : Entity) : (q.inner related).KeepsScopes := by
  refine .intro rfl fun asked hasked => ?_
  exact absurd hasked List.not_mem_nil

/-- One more clause keeps all scopes when its questions do. -/
theorem KeepsScopes.addClause {q : Query} (h : q.KeepsScopes) (connective : Connective)
    {p : Predicate} (hp : ∀ asked ∈ predicateQuestions p, asked.2.KeepsScopes) :
    (q.addClause connective p).KeepsScopes := by
  obtain ⟨hremoved, hquestions⟩ := h
  refine .intro hremoved fun asked hasked => ?_
  rcases mem_questions.mp hasked with haggregates | hclauses
  · exact hquestions asked (mem_questions.mpr (.inl haggregates))
  · have hmem : asked ∈ clausesQuestions (q.clauses ++ [⟨connective, p⟩]) := hclauses
    rw [clausesQuestions_append, clausesQuestions_single, List.mem_append] at hmem
    rcases hmem with hold | hnew
    · exact hquestions asked (mem_questions.mpr (.inr hold))
    · exact hp asked hnew

end Winnow.Query
