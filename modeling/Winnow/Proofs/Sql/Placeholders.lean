import Winnow.Proofs.Sql.Contents
import Winnow.Proofs.Sql.Sample
import Winnow.Proofs.Sql.Statements

/-!
# Placeholders and bound values

A text holds one placeholder for each bound value, numbered from the left where
its dialect numbers them, and the `k`-th stands for the `k`-th value.  With the
values in their place the text is read as its query, so each value is compared
where the query compares it.  The values are those of the query in the order of
`queryContents`, which does not look at the dialect.
-/

namespace Winnow.Sql

/-- The number of a placeholder, where it has one. -/
def Token.placeholder? : Token → Option (Option Nat)
  | .placeholder number => some number
  | _ => none

/-- The placeholders of a text from left to right, outside names and literals. -/
def placeholders (d : Dialect) (text : String) : List (Option Nat) :=
  (tokenize d text).filterMap Token.placeholder?

/-- What numbers the first placeholders of a text have. -/
def placeholderNumbers (d : Dialect) (count : Nat) : List (Option Nat) :=
  (List.range' 1 count).map (placeholderNumber d)

section
variable {d : Dialect}

theorem placeholders_fixed {ts : List Token} (h : ts.all Token.isFixed = true) :
    ts.filterMap Token.placeholder? = [] := by
  rw [List.filterMap_eq_nil_iff]
  intro t ht
  have hfixed := List.all_eq_true.mp h t ht
  cases t with
  | literal | word | symbol => rfl
  | name | placeholder | value => cases hfixed

/-- Pieces have one placeholder for each value, numbered behind the values bound before. -/
theorem placeholders_tokens {isOpen : Bool} {s : Statement} (h : apart d isOpen s = true) (n : Nat) :
    (s.tokens d n).filterMap Token.placeholder? =
      (List.range' (n + 1) s.bindings.length).map (placeholderNumber d) := by
  induction s generalizing isOpen n with
  | nil => rfl
  | cons piece rest ih =>
    cases piece with
    | words text =>
      simp only [apart, wordsApart, Bool.and_eq_true] at h
      rw [Statement.tokens, List.filterMap_append, placeholders_fixed h.1.2.2, ih h.2]
      rfl
    | name identifier =>
      simp only [apart, Bool.and_eq_true] at h
      rw [Statement.tokens, List.filterMap_cons, ih h.2]
      rfl
    | bound value =>
      simp only [apart, Bool.and_eq_true] at h
      rw [Statement.tokens, List.filterMap_cons, ih h.2, bindings_bound, List.length_cons,
        List.range'_succ]
      rfl

theorem placeholders_sql {s : Statement} (h : apart d false s = true) :
    placeholders d (s.sql d) = placeholderNumbers d s.bindings.length := by
  unfold placeholders
  rw [tokenize_sql h, placeholders_tokens h]
  rfl

/-- The values bound for a query, whatever the dialect. -/
theorem renderSelect_bindings {q : Query} {r : Rendered} (h : renderSelect d q = .ok r) :
    r.bindings = Statement.bindings (queryContents q) := by
  rw [renderSelect_eq] at h
  obtain ⟨s, hs, rfl⟩ := map_eq_ok h
  exact (bindings_eq s).trans (congrArg Statement.bindings (select_contents hs))

theorem renderCondition_bindings {q : Query} {r : Rendered} (h : renderCondition d q = .ok r) :
    r.bindings = Statement.bindings (conditionContents q) := by
  rw [renderCondition_eq] at h
  obtain ⟨s, hs, rfl⟩ := map_eq_ok h
  exact (bindings_eq s).trans (congrArg Statement.bindings (condition_contents hs))

theorem renderSelect_placeholders {q : Query} {r : Rendered} (h : renderSelect d q = .ok r) :
    placeholders d r.sql = placeholderNumbers d r.bindings.length := by
  rw [renderSelect_eq] at h
  obtain ⟨s, hs, rfl⟩ := map_eq_ok h
  exact placeholders_sql (select_apart hs)

theorem renderCondition_placeholders {q : Query} {r : Rendered} (h : renderCondition d q = .ok r) :
    placeholders d r.sql = placeholderNumbers d r.bindings.length := by
  rw [renderCondition_eq] at h
  obtain ⟨s, hs, rfl⟩ := map_eq_ok h
  exact placeholders_sql (condition_apart hs)

end

/-- Placeholders and bound values line up: there are as many of the ones as of the others, numbered
from the left where the dialect numbers them.  With the `k`-th value in the place of the `k`-th
placeholder, every value is read where the query has it, and every dialect that renders the query
binds the same values. -/
theorem placeholders_line_up (d : Dialect) (q : Query) (r : Rendered) :
    (renderSelect d q = .ok r →
      placeholders d r.sql = placeholderNumbers d r.bindings.length ∧
      readSelect d r = some (selectOf d q) ∧
      ∀ d' r', renderSelect d' q = .ok r' → r'.bindings = r.bindings) ∧
    (renderCondition d q = .ok r →
      placeholders d r.sql = placeholderNumbers d r.bindings.length ∧
      readCondition d r = some (formulaOf q) ∧
      ∀ d' r', renderCondition d' q = .ok r' → r'.bindings = r.bindings) := by
  constructor
  · intro h
    refine ⟨renderSelect_placeholders h, readSelect_rendered h, fun d' r' h' => ?_⟩
    rw [renderSelect_bindings h, renderSelect_bindings h']
  · intro h
    refine ⟨renderCondition_placeholders h, readCondition_rendered h, fun d' r' h' => ?_⟩
    rw [renderCondition_bindings h, renderCondition_bindings h']

theorem placeholders_line_up_sample :
    (∃ r r', renderSelect .postgres Sample.query = .ok r ∧
      renderSelect .mysql Sample.query = .ok r' ∧
      placeholders .postgres r.sql = [some 1, some 2] ∧
      readSelect .postgres r = some (selectOf .postgres Sample.query) ∧
      r.bindings = [.text "deal", .text "hot"] ∧ r'.bindings = r.bindings) ∧
    ∃ r, renderCondition .sqlite Sample.query = .ok r ∧
      placeholders .sqlite r.sql = [none, none] ∧
      readCondition .sqlite r = some (formulaOf Sample.query) := by
  constructor
  · obtain ⟨r, hr⟩ : ∃ r, renderSelect .postgres Sample.query = .ok r := ⟨_, rfl⟩
    obtain ⟨r', hr'⟩ : ∃ r, renderSelect .mysql Sample.query = .ok r := ⟨_, rfl⟩
    obtain ⟨hplaceholders, hread, hbindings⟩ := (placeholders_line_up .postgres Sample.query r).1 hr
    have hvalues : r.bindings = [.text "deal", .text "hot"] := renderSelect_bindings hr
    rw [hvalues] at hplaceholders
    exact ⟨r, r', hr, hr', hplaceholders, hread, hvalues, hbindings _ _ hr'⟩
  · obtain ⟨r, hr⟩ : ∃ r, renderCondition .sqlite Sample.query = .ok r := ⟨_, rfl⟩
    obtain ⟨hplaceholders, hread, _⟩ := (placeholders_line_up .sqlite Sample.query r).2 hr
    have hvalues : r.bindings = [.text "deal", .text "hot"] := renderCondition_bindings hr
    rw [hvalues] at hplaceholders
    exact ⟨r, hr, hplaceholders, hread⟩

end Winnow.Sql
