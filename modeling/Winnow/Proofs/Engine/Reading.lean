import Winnow.Engine.Execute
import Winnow.Proofs.Engine.Related

/-!
# What predicates read, and how clauses bind

A predicate depends on a frame only through the rows of the qualifiers it reads
(`predicateHolds_congr`), so joined rows under other aliases do not change it.
AND binds tighter than OR: clauses hold when some alternative between two ORs
does (`clausesHold_eq_any`), and a clause appended with AND restricts the last
alternative only (`clausesHold_append`).
-/

namespace Winnow

open Engine

/-! ## Definitions -/

/-- The column a test reads. -/
def Test.column : Test → Column
  | .compare column _ _ | .like column _ _ | .member column _ _ | .null column _
  | .empty column _ | .between column _ _ _ => column

mutual

/-- The qualifiers that a predicate reads from its frame. -/
def Predicate.reads : Predicate → List String
  | .test t => [t.column.qualifier]
  | .nested clauses => clausesRead clauses
  | .related link query _ => link.parent :: relatedReads query
  | .counted link query _ _ => link.parent :: relatedReads query
  | .const _ => []

/-- The qualifiers that clauses read from their frame. -/
def clausesRead : List Clause → List String
  | [] => []
  | ⟨_, p⟩ :: rest => p.reads ++ clausesRead rest

/-- The qualifiers that the query of a question about related rows reads besides its own. -/
def relatedReads : Query → List String
  | ⟨entity, tableAlias, _, clauses, _, _, _, _, _, _, _, _⟩ =>
    (clausesRead clauses).filter fun qualifier => qualifier != tableAlias.getD entity.table

end

/-- The qualifiers that a query reads from its frames. -/
def Query.reads (q : Query) : List String := q.qualifier :: clausesRead q.clauses

/-- The alternatives of clauses after the beginning of one: the predicates between two ORs. -/
def alternativesAfter (group : List Predicate) : List Clause → List (List Predicate)
  | [] => [group]
  | ⟨.and, p⟩ :: rest => alternativesAfter (group ++ [p]) rest
  | ⟨.or, p⟩ :: rest => group :: alternativesAfter [p] rest

/-- The alternatives of clauses. -/
def alternatives : List Clause → List (List Predicate)
  | [] => []
  | ⟨_, p⟩ :: rest => alternativesAfter [p] rest

namespace Engine

/-- Two frames that bind some qualifiers alike. -/
def AgreeOn (qualifiers : List String) (frame other : Frame) : Prop :=
  ∀ qualifier ∈ qualifiers, frame.row? qualifier = other.row? qualifier

/-! ## Reading -/

theorem AgreeOn.mono {few many : List String} {frame other : Frame} (h : AgreeOn many frame other)
    (hsub : ∀ qualifier ∈ few, qualifier ∈ many) : AgreeOn few frame other :=
  fun qualifier hmem => h qualifier (hsub qualifier hmem)

/-- Inside a question about related rows frames agree on what is read there. -/
theorem AgreeOn.cons {qualifiers : List String} {frame other : Frame} {own : String}
    (h : AgreeOn (qualifiers.filter (· != own)) frame other) (row : Option Row) :
    AgreeOn qualifiers ((own, row) :: frame) ((own, row) :: other) := by
  intro qualifier hmem
  by_cases hown : own = qualifier
  · rw [hown, Frame.row?_cons_self, Frame.row?_cons_self]
  · rw [Frame.row?_cons_of_ne frame row hown, Frame.row?_cons_of_ne other row hown]
    exact h qualifier (List.mem_filter.mpr ⟨hmem, by simpa using Ne.symm hown⟩)

theorem read_congr {frame other : Frame} {column : Column}
    (h : frame.row? column.qualifier = other.row? column.qualifier) :
    read frame column = read other column := by
  cases column <;> simp only [Column.qualifier] at h <;> simp only [read, h]

theorem testHolds_congr {frame other : Frame} {t : Test}
    (h : frame.row? t.column.qualifier = other.row? t.column.qualifier) :
    testHolds frame t = testHolds other t := by
  have hread := read_congr h
  cases t <;> simp only [Test.column] at hread <;> simp only [testHolds, hread]

theorem candidates_congr (db : Dataset) {frame other : Frame} {link : Link}
    (h : frame.row? link.parent = other.row? link.parent) :
    candidates db frame link = candidates db other link := by
  unfold candidates
  rw [h]

theorem scope_test_qualifier (scope : GlobalScope) (e : Entity) (qualifier : String) :
    (scope.test e qualifier).column.qualifier = qualifier := by
  unfold GlobalScope.test
  cases scope.constraint with
  | softDeletes column => rfl
  | equals column value =>
    simp only
    split <;> rfl

theorem scopesHold_congr {frame other : Frame} {q : Query}
    (h : frame.row? q.qualifier = other.row? q.qualifier) :
    scopesHold frame q = scopesHold other q := by
  unfold scopesHold Query.scopeTests
  rw [List.all_map, List.all_map]
  refine congrArg q.activeScopes.all (funext fun scope => testHolds_congr ?_)
  rw [scope_test_qualifier, h]

mutual

/-- A predicate depends on its frame only through what it reads. -/
theorem predicateHolds_congr (db : Dataset) {frame other : Frame} : (p : Predicate) →
    AgreeOn p.reads frame other → predicateHolds db frame p = predicateHolds db other p
  | .test t, h => by
    rw [predicateHolds, predicateHolds]
    exact testHolds_congr (h _ List.mem_cons_self)
  | .nested clauses, h => by
    rw [predicateHolds, predicateHolds]
    exact clausesHold_congr db clauses h
  | .related link query negated, h => by
    have hrows : ∀ row, relatedHolds db frame row query = relatedHolds db other row query :=
      fun row => relatedHolds_congr db row query (h.mono fun _ => List.mem_cons_of_mem _)
    rw [predicateHolds, predicateHolds, candidates_congr db (h _ List.mem_cons_self)]
    simp only [hrows]
  | .counted link query op bound, h => by
    have hrows : ∀ row, relatedHolds db frame row query = relatedHolds db other row query :=
      fun row => relatedHolds_congr db row query (h.mono fun _ => List.mem_cons_of_mem _)
    rw [predicateHolds, predicateHolds, candidates_congr db (h _ List.mem_cons_self)]
    simp only [hrows]
  | .const value, _ => by rw [predicateHolds, predicateHolds]

theorem clausesHold_congr (db : Dataset) {frame other : Frame} : (clauses : List Clause) →
    AgreeOn (clausesRead clauses) frame other →
      clausesHold db frame clauses = clausesHold db other clauses
  | [], _ => by rw [clausesHold, clausesHold]
  | ⟨_, p⟩ :: rest, h => by
    rw [clausesHold, clausesHold,
      predicateHolds_congr db p (h.mono fun _ => List.mem_append_left _)]
    exact clausesHoldAfter_congr db _ rest (h.mono fun _ => List.mem_append_right _)

theorem clausesHoldAfter_congr (db : Dataset) {frame other : Frame} (group : Bool) :
    (clauses : List Clause) → AgreeOn (clausesRead clauses) frame other →
      clausesHoldAfter db frame group clauses = clausesHoldAfter db other group clauses
  | [], _ => by rw [clausesHoldAfter, clausesHoldAfter]
  | ⟨.and, p⟩ :: rest, h => by
    rw [clausesHoldAfter, clausesHoldAfter,
      predicateHolds_congr db p (h.mono fun _ => List.mem_append_left _)]
    exact clausesHoldAfter_congr db _ rest (h.mono fun _ => List.mem_append_right _)
  | ⟨.or, p⟩ :: rest, h => by
    rw [clausesHoldAfter, clausesHoldAfter,
      predicateHolds_congr db p (h.mono fun _ => List.mem_append_left _),
      clausesHoldAfter_congr db _ rest (h.mono fun _ => List.mem_append_right _)]

theorem relatedHolds_congr (db : Dataset) {frame other : Frame} (row : Row) : (q : Query) →
    AgreeOn (relatedReads q) frame other →
      relatedHolds db frame row q = relatedHolds db other row q
  | ⟨entity, tableAlias, depth, clauses, joins, orders, selects, eager, aggregates, limit, offset,
      removed⟩, h => by
    rw [relatedHolds_eq, relatedHolds_eq]
    congr 1
    · exact scopesHold_congr (by rw [Frame.row?_cons_self, Frame.row?_cons_self])
    · exact clausesHold_congr db clauses (AgreeOn.cons h (some row))

end

/-! ## Alternatives -/

section
variable (db : Dataset) (frame : Frame)

/-- Whether all predicates of an alternative hold. -/
def allHold (ps : List Predicate) : Bool := ps.all (predicateHolds db frame)

theorem alternativesAfter_ne_nil (group : List Predicate) (rest : List Clause) :
    alternativesAfter group rest ≠ [] := by
  induction rest generalizing group with
  | nil => simp [alternativesAfter]
  | cons clause rest ih =>
    obtain ⟨connective, p⟩ := clause
    cases connective with
    | and => exact ih (group ++ [p])
    | or => simp [alternativesAfter]

theorem clausesHoldAfter_eq_any (group : List Predicate) (rest : List Clause) :
    clausesHoldAfter db frame (allHold db frame group) rest =
      (alternativesAfter group rest).any (allHold db frame) := by
  induction rest generalizing group with
  | nil => simp [clausesHoldAfter, alternativesAfter]
  | cons clause rest ih =>
    obtain ⟨connective, p⟩ := clause
    cases connective with
    | and =>
      rw [clausesHoldAfter, alternativesAfter, ← ih (group ++ [p])]
      simp [allHold]
    | or =>
      rw [clausesHoldAfter, alternativesAfter, List.any_cons, ← ih [p]]
      simp [allHold]

/-- Clauses hold when there are none or all predicates of some alternative hold. -/
theorem clausesHold_eq_any (clauses : List Clause) :
    clausesHold db frame clauses =
      (clauses.isEmpty || (alternatives clauses).any (allHold db frame)) := by
  cases clauses with
  | nil => rfl
  | cons clause rest =>
    obtain ⟨connective, p⟩ := clause
    rw [clausesHold, alternatives, ← clausesHoldAfter_eq_any]
    simp [allHold]

theorem clausesHoldAfter_append (group : List Predicate) (rest : List Clause) (p : Predicate) :
    clausesHoldAfter db frame (allHold db frame group) (rest ++ [⟨.and, p⟩]) =
      ((alternativesAfter group rest).dropLast.any (allHold db frame) ||
        (clausesHoldAfter db frame (allHold db frame group) rest &&
          predicateHolds db frame p)) := by
  induction rest generalizing group with
  | nil => simp [clausesHoldAfter, alternativesAfter]
  | cons clause rest ih =>
    obtain ⟨connective, p'⟩ := clause
    cases connective with
    | and =>
      have hgroup : (allHold db frame group && predicateHolds db frame p') =
          allHold db frame (group ++ [p']) := by
        simp [allHold]
      rw [List.cons_append, clausesHoldAfter, clausesHoldAfter, alternativesAfter, hgroup, ih]
    | or =>
      have hgroup : predicateHolds db frame p' = allHold db frame [p'] := by
        simp [allHold]
      rw [List.cons_append, clausesHoldAfter, clausesHoldAfter, alternativesAfter, hgroup, ih,
        List.dropLast_cons_of_ne_nil (alternativesAfter_ne_nil [p'] rest), List.any_cons]
      cases allHold db frame group <;> simp

/-- A clause appended with AND is asked of the last alternative only: the clauses hold when another
alternative does, or when they held before and the appended predicate holds. -/
theorem clausesHold_append (clauses : List Clause) (p : Predicate) :
    clausesHold db frame (clauses ++ [⟨.and, p⟩]) =
      ((alternatives clauses).dropLast.any (allHold db frame) ||
        (clausesHold db frame clauses && predicateHolds db frame p)) := by
  cases clauses with
  | nil => simp [alternatives, clausesHold, clausesHoldAfter]
  | cons clause rest =>
    obtain ⟨connective, p'⟩ := clause
    have hfirst : predicateHolds db frame p' = allHold db frame [p'] := by
      simp [allHold]
    rw [List.cons_append, clausesHold, clausesHold, alternatives, hfirst, clausesHoldAfter_append]

/-- What the predicates of alternatives read, the clauses read. -/
theorem reads_of_mem_alternatives {clauses : List Clause} {ps : List Predicate} {p : Predicate}
    (hps : ps ∈ alternatives clauses) (hp : p ∈ ps) : ∀ x ∈ p.reads, x ∈ clausesRead clauses := by
  have hafter : ∀ (rest : List Clause) (group ps : List Predicate),
      ps ∈ alternativesAfter group rest → ∀ p ∈ ps,
        p ∈ group ∨ ∀ x ∈ p.reads, x ∈ clausesRead rest := by
    intro rest
    induction rest with
    | nil =>
      intro group ps hps p hp
      rw [alternativesAfter, List.mem_singleton] at hps
      exact .inl (hps ▸ hp)
    | cons clause rest ih =>
      intro group ps hps p hp
      obtain ⟨connective, p'⟩ := clause
      have hnext : p = p' → ∀ x ∈ p.reads, x ∈ clausesRead (⟨connective, p'⟩ :: rest) := by
        rintro rfl x hx
        exact List.mem_append_left _ hx
      have hlater : (∀ x ∈ p.reads, x ∈ clausesRead rest) →
          ∀ x ∈ p.reads, x ∈ clausesRead (⟨connective, p'⟩ :: rest) :=
        fun h x hx => List.mem_append_right _ (h x hx)
      cases connective with
      | and =>
        rcases ih (group ++ [p']) ps hps p hp with hmem | hread
        · rcases List.mem_append.mp hmem with hmem | hmem
          · exact .inl hmem
          · exact .inr (hnext (List.mem_singleton.mp hmem))
        · exact .inr (hlater hread)
      | or =>
        rcases List.mem_cons.mp hps with rfl | hps
        · exact .inl hp
        · rcases ih [p'] ps hps p hp with hmem | hread
          · exact .inr (hnext (List.mem_singleton.mp hmem))
          · exact .inr (hlater hread)
  cases clauses with
  | nil => simp [alternatives] at hps
  | cons clause rest =>
    obtain ⟨connective, p'⟩ := clause
    intro x hx
    rcases hafter rest [p'] ps hps p hp with hmem | hread
    · rw [List.mem_singleton.mp hmem] at hx
      exact List.mem_append_left _ hx
    · exact List.mem_append_right _ (hread x hx)

/-- Clauses that are all joined by AND are one alternative. -/
theorem alternatives_of_and {clauses : List Clause}
    (h : ∀ clause ∈ clauses.tail, clause.connective = .and) :
    (alternatives clauses).dropLast = [] := by
  have hafter : ∀ (rest : List Clause) (group : List Predicate),
      (∀ clause ∈ rest, clause.connective = .and) →
        (alternativesAfter group rest).dropLast = [] := by
    intro rest
    induction rest with
    | nil => exact fun _ _ => rfl
    | cons clause rest ih =>
      intro group hrest
      obtain ⟨connective, p⟩ := clause
      cases hrest _ List.mem_cons_self
      exact ih (group ++ [p]) fun clause hclause => hrest clause (List.mem_cons_of_mem _ hclause)
  cases clauses with
  | nil => rfl
  | cons clause rest =>
    obtain ⟨connective, p⟩ := clause
    exact hafter rest [p] h

end

end Engine
end Winnow
