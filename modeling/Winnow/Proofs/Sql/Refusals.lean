import Winnow.Proofs.Compile.Collected
import Winnow.Proofs.Compile.Resolved
import Winnow.Proofs.Compile.Shapes
import Winnow.Proofs.Compile.Typed
import Winnow.Proofs.Query.Closed
import Winnow.Proofs.Sql.Writing

/-!
# What a dialect refuses to write

A statement that cannot be written fails at a column, one that a dialect cannot
put together of two: a test fails at its column (`test_refused`), a predicate at
a test of its own or inside a question (`predicate_refused`).  So a dialect
renders every query that projects, joins and sorts by single columns and has no
clause that it refuses (`renderSelect_ok`).

Two columns are put together only by a filter that says so.  Without such a
filter every column that a rule reads is a single one, at any depth, and every
dialect writes its predicate (`leafGroup_written`).
-/

namespace Winnow

/-- Whether a column is one column of a table. -/
def Column.IsSingle : Column → Prop
  | .field .. => True
  | .dateTimeParts .. => False

/-- A query without aggregates that projects, joins and sorts by single columns. -/
structure Query.SingleColumns (q : Query) : Prop where
  selects : ∀ c ∈ q.selects, c.IsSingle
  aggregates : q.aggregates = []
  joins : ∀ j ∈ q.joins, j.first.IsSingle ∧ j.second.IsSingle ∧ j.OnlyScopes
  orders : ∀ o ∈ q.orders, ∀ c, o.target = .column c → c.IsSingle

namespace Sql

section
variable {d : Dialect} {failure : Failure}

/-! ## Columns and tests -/

theorem column_ne_error {c : Column} (hc : c.IsSingle) : column d c ≠ .error failure := by
  intro h
  cases c with
  | field => cases h
  | dateTimeParts => exact hc

/-- A test is refused for its column. -/
theorem test_refused {t : Test} (h : test d t = .error failure) :
    column d t.column = .error failure := by
  have hcolumn : ∀ {c : Column} {rest : Statement → Except Failure Statement},
      (∀ s, rest s ≠ .error failure) → (column d c >>= rest) = .error failure →
        column d c = .error failure := by
    intro c rest hrest h
    rcases bind_eq_error h with h | ⟨s, -, h⟩
    · exact h
    · exact absurd h (hrest s)
  unfold test at h
  split at h
  case h_3 =>
    split at h
    · cases h
    · exact hcolumn (fun s h => by cases h) h
  all_goals exact hcolumn (fun s h => by cases h) h

theorem scopeTest_isSingle (scope : GlobalScope) (e : Entity) (qualifier : String) :
    (scope.test e qualifier).column.IsSingle := by
  unfold GlobalScope.test
  split
  · trivial
  · simp only
    split <;> trivial

theorem scopeTest_written (scope : GlobalScope) (e : Entity) (qualifier : String) :
    test d (scope.test e qualifier) ≠ .error failure := by
  intro h
  exact column_ne_error (scopeTest_isSingle scope e qualifier) (test_refused h)

theorem scopeTests_written (q : Query) : q.scopeTests.mapM (test d) ≠ .error failure := by
  intro h
  obtain ⟨t, ht, h⟩ := mapM_eq_error h
  obtain ⟨scope, -, rfl⟩ := List.mem_map.mp ht
  exact scopeTest_written scope q.entity q.qualifier h

/-! ## Predicates -/

/-- Clauses are refused for one of them. -/
theorem clauseList_refused {isFirst : Bool} {clauses : List Clause}
    (h : clauseList d isFirst clauses = .error failure) :
    ∃ clause ∈ clauses, predicate d clause.predicate = .error failure := by
  induction clauses generalizing isFirst with
  | nil =>
    unfold clauseList at h
    cases h
  | cons clause rest ih =>
    obtain ⟨connective, p⟩ := clause
    unfold clauseList at h
    rcases bind_eq_error h with h | ⟨s, -, h⟩
    · exact ⟨⟨connective, p⟩, List.mem_cons_self, h⟩
    · rcases bind_eq_error h with h | ⟨s', -, h⟩
      · obtain ⟨clause, hclause, h⟩ := ih h
        exact ⟨clause, List.mem_cons_of_mem _ hclause, h⟩
      · cases h

/-- Whether a dialect fails to write a clause of a query. -/
def Refuses (d : Dialect) (q : Query) (failure : Failure) : Prop :=
  ∃ clause ∈ q.clauses, predicate d clause.predicate = .error failure

/-- A question is refused for a clause of its query; its scopes are always written. -/
theorem related_refused {link : Link} {q : Query} (h : related d link q = .error failure) :
    Refuses d q failure := by
  cases q
  unfold related at h
  rcases bind_eq_error h with h | ⟨scopes, -, h⟩
  · exact absurd h (scopeTests_written _)
  · rcases bind_eq_error h with h | ⟨s, -, h⟩
    · exact clauseList_refused h
    · cases h

mutual

/-- A predicate is refused for a test of its own or for one of its questions. -/
theorem predicate_refused : (p : Predicate) → predicate d p = .error failure →
    (∃ t ∈ predicateTests p, column d t.column = .error failure) ∨
      ∃ asked ∈ predicateQuestions p, Refuses d asked.2 failure
  | .test t, h => .inl ⟨t, List.mem_singleton_self t, test_refused h⟩
  | .nested [], h => by
    unfold predicate at h
    cases h
  | .nested (clause :: rest), h => by
    unfold predicate at h
    rcases bind_eq_error h with h | ⟨s, -, h⟩
    · exact clauses_refused (clause :: rest) h
    · cases h
  | .related link q negated, h => by
    unfold predicate at h
    rcases bind_eq_error h with h | ⟨s, -, h⟩
    · exact .inr ⟨(link, q), List.mem_singleton_self _, related_refused h⟩
    · cases h
  | .counted link q op bound, h => by
    unfold predicate at h
    rcases bind_eq_error h with h | ⟨s, -, h⟩
    · exact .inr ⟨(link, q), List.mem_singleton_self _, related_refused h⟩
    · cases h
  | .const value, h => by
    unfold predicate at h
    cases h

theorem clauses_refused {isFirst : Bool} : (clauses : List Clause) →
    clauseList d isFirst clauses = .error failure →
    (∃ t ∈ clausesTests clauses, column d t.column = .error failure) ∨
      ∃ asked ∈ clausesQuestions clauses, Refuses d asked.2 failure
  | [], h => by
    unfold clauseList at h
    cases h
  | ⟨connective, p⟩ :: rest, h => by
    unfold clauseList at h
    rcases bind_eq_error h with h | ⟨s, -, h⟩
    · refine (predicate_refused p h).imp ?_ ?_
      · exact fun ⟨t, ht, h⟩ => ⟨t, List.mem_append_left _ ht, h⟩
      · exact fun ⟨asked, hasked, h⟩ => ⟨asked, List.mem_append_left _ hasked, h⟩
    · rcases bind_eq_error h with h | ⟨s', -, h⟩
      · refine (clauses_refused rest h).imp ?_ ?_
        · exact fun ⟨t, ht, h⟩ => ⟨t, List.mem_append_right _ ht, h⟩
        · exact fun ⟨asked, hasked, h⟩ => ⟨asked, List.mem_append_right _ hasked, h⟩
      · cases h

end

/-- The clause that a group becomes is refused for a clause of the group. -/
theorem refuses_of_groupPredicate {g : Query} {p : Predicate} (hp : g.groupPredicate = some p)
    (h : predicate d p = .error failure) : Refuses d g failure := by
  unfold Query.groupPredicate at hp
  split at hp
  next => cases hp
  next clause hclauses =>
    cases hp
    exact ⟨clause, by rw [hclauses]; exact List.mem_singleton_self clause, h⟩
  next hnil hsingle =>
    cases hp
    unfold predicate at h
    split at h
    · exact absurd ‹g.clauses = []› hnil
    next clause rest hclauses =>
      rcases bind_eq_error h with h | ⟨s, -, h⟩
      · unfold Refuses
        rw [hclauses]
        exact clauseList_refused h
      · cases h

theorem refuses_collected (d : Dialect) : Compile.Collected (Refuses d) where
  blank q failure h := by
    obtain ⟨clause, hclause, -⟩ := h
    cases hclause
  absorb q connective g failure h := by
    obtain ⟨clause, hclause, h⟩ := h
    rw [Query.absorb_clauses] at hclause
    rcases List.mem_append.mp hclause with hold | hnew
    · exact .inl ⟨clause, hold, h⟩
    · obtain ⟨p, hp, rfl⟩ := List.mem_map.mp hnew
      exact .inr (refuses_of_groupPredicate (Option.mem_toList.mp hp) h)

/-! ## Statements -/

theorem projection_written {q : Query} (hq : q.SingleColumns) :
    projection d q ≠ .error failure := by
  intro h
  unfold projection at h
  split at h
  · cases h
  · obtain ⟨c, hc, h⟩ := mapM_eq_error h
    exact column_ne_error (hq.selects c hc) h

theorem join_written {j : Join} (hfirst : j.first.IsSingle) (hsecond : j.second.IsSingle)
    (hscopes : j.OnlyScopes) : join d j ≠ .error failure := by
  intro h
  unfold join at h
  rcases bind_eq_error h with h | ⟨first, -, h⟩
  · exact column_ne_error hfirst h
  rcases bind_eq_error h with h | ⟨second, -, h⟩
  · exact column_ne_error hsecond h
  rcases bind_eq_error h with h | ⟨conditions, -, h⟩
  · obtain ⟨p, hp, h⟩ := mapM_eq_error h
    obtain ⟨scope, e, qualifier, rfl⟩ := hscopes p hp
    unfold predicate at h
    exact scopeTest_written scope e qualifier h
  · cases h

theorem order_written {o : Order} (ho : ∀ c, o.target = .column c → c.IsSingle) :
    order d o ≠ .error failure := by
  intro h
  unfold order at h
  simp only at h
  split at h
  next c hc =>
    rcases bind_eq_error h with h | ⟨target, -, h⟩
    · exact column_ne_error (ho c hc) h
    · cases h
  next => cases h

/-- A dialect writes a query that reads single columns besides its clauses, unless it refuses a
clause. -/
theorem select_refused {q : Query} (hq : q.SingleColumns) (h : select d q = .error failure) :
    Refuses d q failure := by
  unfold select at h
  rcases bind_eq_error h with h | ⟨columns, -, h⟩
  · exact absurd h (projection_written hq)
  rcases bind_eq_error h with h | ⟨aggregates, -, h⟩
  · rw [hq.aggregates] at h
    cases h
  rcases bind_eq_error h with h | ⟨joins, -, h⟩
  · obtain ⟨j, hj, h⟩ := mapM_eq_error h
    obtain ⟨hfirst, hsecond, hscopes⟩ := hq.joins j hj
    exact absurd h (join_written hfirst hsecond hscopes)
  rcases bind_eq_error h with h | ⟨conditions, -, h⟩
  · unfold Sql.conditions at h
    rcases bind_eq_error h with h | ⟨scopes, -, h⟩
    · exact absurd h (scopeTests_written q)
    · rcases bind_eq_error h with h | ⟨s, -, h⟩
      · exact clauseList_refused h
      · cases h
  rcases bind_eq_error h with h | ⟨orders, -, h⟩
  · obtain ⟨o, ho, h⟩ := mapM_eq_error h
    exact absurd h (order_written (hq.orders o ho))
  · cases h

/-- A query that reads single columns besides its clauses, none of which a dialect refuses. -/
structure Renderable (d : Dialect) (q : Query) : Prop where
  columns : q.SingleColumns
  clauses : ∀ failure, ¬Refuses d q failure

theorem renderSelect_ok {q : Query} (hq : Renderable d q) :
    ∃ rendered, renderSelect d q = .ok rendered := by
  rw [renderSelect_eq]
  cases h : select d q with
  | error failure => exact absurd (select_refused hq.columns h) (hq.clauses failure)
  | ok s => exact ⟨_, rfl⟩

end

end Sql

/-! ## Rules of single columns -/

open Sql

/-- Whether no filter puts a date and a time column together, nor the filter of an operand. -/
def FilterSet.SingleColumns (set : FilterSet) : Prop :=
  ∀ f ∈ set.filters,
    f.dateTimeParts = none ∧ ∀ operand ∈ f.operands, operand.filter.dateTimeParts = none

namespace Compile

theorem mayRead_single (env : Environment) {filter : Filter} (hparts : filter.dateTimeParts = none) :
    MayRead env filter fun _ column => column.IsSingle := by
  refine ⟨fun _ _ => trivial, fun _ date time h => ?_, fun _ _ _ _ => trivial⟩
  rw [hparts] at h
  cases h

/-- A question that asks for no more is never refused. -/
theorem relationQuery_written {d : Dialect} {failure : Failure} {registry : Registry}
    {q related : Query} {link : Link} {relation : String}
    (h : q.relationQuery registry relation = .ok (link, related)) :
    ¬Refuses d related failure := by
  rw [Query.relationQuery_eq] at h
  obtain ⟨⟨found, e⟩, -, heq⟩ := map_eq_ok h
  cases heq
  exact (refuses_collected d).blank (q.inner e) failure

theorem question_written {d : Dialect} {failure : Failure} {p : Predicate} {link : Link}
    {sub : Query} (htests : predicateTests p = []) (hquestions : predicateQuestions p = [(link, sub)])
    (hsub : ¬Refuses d sub failure) : predicate d p ≠ .error failure := by
  intro h
  rcases predicate_refused p h with ⟨t, ht, -⟩ | ⟨asked, hasked, hrefuses⟩
  · rw [htests] at ht
    exact absurd ht List.not_mem_nil
  · rw [hquestions, List.mem_singleton] at hasked
    rw [hasked] at hrefuses
    exact hsub hrefuses

/-- Induction over the shape: an operation tests its own column only. -/
theorem Shape.written {registry : Registry} {q : Query} {p : Predicate}
    (h : Shape registry (fun _ column => column.IsSingle) q p) (d : Dialect) (failure : Failure) :
    predicate d p ≠ .error failure := by
  induction h with
  | @operation q op p hsingle hp =>
    intro h
    rcases predicate_refused p h with ⟨t, ht, hcolumn⟩ | ⟨asked, hasked, -⟩
    · rw [(Operation.predicate_typed hp t ht).1] at hcolumn
      exact column_ne_error hsingle hcolumn
    · rw [Operation.predicate_questions hp] at hasked
      exact absurd hasked List.not_mem_nil
  | exist _ hlink => exact question_written rfl rfl (relationQuery_written hlink)
  | @related q related link relation p negated hlink _ ih =>
    refine question_written rfl rfl ?_
    rintro ⟨clause, hclause, hrefused⟩
    rcases List.mem_append.mp hclause with hold | hnew
    · exact relationQuery_written hlink ⟨clause, hold, hrefused⟩
    · rw [List.mem_singleton.mp hnew] at hrefused
      exact ih hrefused
  | counted _ _ hlink => exact question_written rfl rfl (relationQuery_written hlink)

theorem parts_of_resolve {filters : FilterSet} (hsingle : filters.SingleColumns)
    {leaf : Rule.Leaf} {r : Resolved} (hr : resolve filters leaf = .ok r) :
    r.target.dateTimeParts = none := by
  obtain ⟨hfilter, -, -, hoperand, -⟩ := (resolve_ok_iff filters leaf r).mp hr
  obtain ⟨hown, hoperands⟩ := hsingle r.filter (List.mem_of_find?_eq_some hfilter)
  unfold Resolved.target
  cases ho : r.operand with
  | none => exact hown
  | some operand =>
    rw [ho] at hoperand
    exact hoperands operand (resolveOperand_mem r.filter leaf operand hoperand)

/-- Whatever the rule, every dialect writes the group that it becomes. -/
theorem leafGroup_written {filters : FilterSet} (hplain : filters.Plain)
    (hsingle : filters.SingleColumns) {env : Environment} {leaf : Rule.Leaf}
    {connective : Connective} {q g : Query} (h : leafGroup filters env leaf connective q.group = .ok g)
    (d : Dialect) (failure : Failure) : ¬Refuses d g failure := by
  unfold leafGroup at h
  obtain ⟨r, hr, h⟩ := bind_eq_ok h
  simp only [custom_none_of_plain hplain hr] at h
  obtain ⟨p, hp, rfl⟩ := map_eq_ok h
  rintro ⟨clause, hclause, hrefused⟩
  obtain ⟨p', hp', rfl⟩ := List.mem_map.mp hclause
  rw [Option.mem_toList.mp hp'] at hp
  have hshape := resolvedPredicate_shape (mayRead_single env (parts_of_resolve hsingle hr)) hp
  exact hshape.written d failure hrefused

end Compile
end Winnow
