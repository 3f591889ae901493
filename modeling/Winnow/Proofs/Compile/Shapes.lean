import Winnow.Proofs.Compile.Additions
import Winnow.Proofs.Success

/-!
# The shapes of rule predicates

A rule without custom predicate becomes an operation on a column, of the rows
that it is about or of a joined row, or a question about related rows, which
asks for no more or for such a predicate of theirs (`resolvedPredicate_shape`).
What holds of every rule predicate is proved by induction over its shape.
-/

namespace Winnow.Compile

/-- What a rule becomes on a query, where operations are on columns that may be read there. -/
inductive Shape (registry : Registry) (reads : Query → Column → Prop) : Query → Predicate → Prop where
  | operation {q : Query} {op : Operation} {p : Predicate} :
      reads q op.column → op.predicate = .ok (some p) → Shape registry reads q p
  /-- Whether related rows exist. -/
  | exist {q related : Query} {link : Link} {relation : String} (negated : Bool) :
      q.relationQuery registry relation = .ok (link, related) →
      Shape registry reads q (.related link related negated)
  /-- Whether related rows exist that a predicate holds of. -/
  | related {q related : Query} {link : Link} {relation : String} {p : Predicate}
      (negated : Bool) :
      q.relationQuery registry relation = .ok (link, related) →
      Shape registry reads related p →
      Shape registry reads q (.related link (related.addClause .and p) negated)
  | counted {q related : Query} {link : Link} {relation : String} (op : Comparison) (bound : Int) :
      q.relationQuery registry relation = .ok (link, related) →
      Shape registry reads q (.counted link related op bound)

/-- Columns that may be read when a filter is compared: those of the rows themselves, the parts that
the filter puts together, and those of joined rows. -/
structure MayRead (env : Environment) (filter : Filter) (reads : Query → Column → Prop) : Prop where
  own : ∀ (q : Query) (name : String), reads q (q.column name)
  parts : ∀ (q : Query) (date time : String), filter.dateTimeParts = some (date, time) →
    reads q (q.dateTimeColumn date time)
  joined : ∀ (q : Query) (path : FieldPath) (target : JoinTarget),
    joinOf? env q path = some target → reads q (.field target.tableAlias path.column)

section
variable {env : Environment} {reads : Query → Column → Prop} {filter : Filter}
  {operator : Operator} {value : Json} {q : Query} {p : Predicate}

theorem columnPredicate_shape {column : Column} {declared : Option ColumnType} {field : String}
    (hcolumn : reads q column)
    (h : columnPredicate env column declared filter operator value field = .ok (some p)) :
    Shape env.registry reads q p := by
  unfold columnPredicate at h
  exact .operation hcolumn h

/-- Induction on the path: each relation is one question around what is asked at the end. -/
theorem relatedPredicate_shape (hown : ∀ (q : Query) (name : String), reads q (q.column name))
    {field column : String} {relations : List String}
    (h : relatedPredicate env filter operator value field column relations q = .ok (some p)) :
    Shape env.registry reads q p := by
  induction relations generalizing q p with
  | nil => exact columnPredicate_shape (hown q column) h
  | cons relation rest ih =>
    unfold relatedPredicate at h
    obtain ⟨⟨link, related⟩, hlink, h⟩ := bind_eq_ok h
    obtain ⟨inner, hinner, h⟩ := bind_eq_ok h
    obtain ⟨p', rfl, rfl⟩ := Option.map_eq_some_iff.mp (Except.ok.inj h)
    exact .related false hlink (ih hinner)

theorem fieldPredicate_shape (hreads : MayRead env filter reads) {field : String}
    (h : fieldPredicate env q field filter operator value = .ok (some p)) :
    Shape env.registry reads q p := by
  unfold fieldPredicate at h
  split at h
  next date time hparts => exact columnPredicate_shape (hreads.parts q date time hparts) h
  next =>
    simp only at h
    split at h
    · exact columnPredicate_shape (hreads.own q _) h
    · split at h
      next target htarget =>
        obtain ⟨related, -, h⟩ := bind_eq_ok h
        exact columnPredicate_shape (hreads.joined q _ target htarget) h
      next => exact relatedPredicate_shape hreads.own h

theorem hasManyPredicate_shape {r : Resolved} (hreads : MayRead env r.target reads)
    (h : hasManyPredicate env r value q = .ok (some p)) : Shape env.registry reads q p := by
  unfold hasManyPredicate at h
  cases hrelation : r.filter.relation with
  | none =>
    rw [hrelation] at h
    cases h
  | some relation =>
    rw [hrelation] at h
    obtain ⟨_, hsame, h⟩ := bind_eq_ok h
    cases hsame
    obtain ⟨⟨link, related⟩, hlink, h⟩ := bind_eq_ok h
    obtain ⟨inner, hinner, h⟩ := map_eq_ok h
    obtain ⟨p', rfl, rfl⟩ := Option.map_eq_some_iff.mp h
    exact .related false hlink (fieldPredicate_shape hreads hinner)

theorem countPredicate_shape {relation : String}
    (h : countPredicate env filter relation operator value q = .ok (some p)) :
    Shape env.registry reads q p := by
  unfold countPredicate at h
  simp only [bind, Except.bind] at h
  split at h
  · split at h
    · rcases hlink : q.relationQuery env.registry relation with error | ⟨link, related⟩
      · rw [hlink] at h
        cases h
      · rw [hlink] at h
        cases h
        exact .counted _ _ hlink
    · cases h
  · cases h

theorem tagsPredicate_shape (hown : ∀ (q : Query) (name : String), reads q (q.column name))
    (h : tagsPredicate env filter operator value q = .ok (some p)) :
    Shape env.registry reads q p := by
  unfold tagsPredicate at h
  cases hrelation : filter.relation with
  | none =>
    rw [hrelation] at h
    cases h
  | some relation =>
    rw [hrelation] at h
    obtain ⟨_, hsame, h⟩ := bind_eq_ok h
    cases hsame
    obtain ⟨⟨link, related⟩, hlink, h⟩ := bind_eq_ok h
    have hlisted : ∀ {negated}, listedPredicate env filter value link related negated =
        .ok (some p) → Shape env.registry reads q p := by
      intro negated h
      obtain ⟨inner, hinner, h⟩ := map_eq_ok h
      obtain ⟨p', rfl, rfl⟩ := Option.map_eq_some_iff.mp h
      exact .related negated hlink (columnPredicate_shape (hown related _) hinner)
    simp only at h
    split at h
    · cases h
      exact .exist true hlink
    · cases h
      exact .exist false hlink
    · exact hlisted h
    · exact hlisted h
    · cases h

/-- The shape of the predicate of a usable rule without custom predicate. -/
theorem resolvedPredicate_shape {r : Resolved} (hreads : MayRead env r.target reads)
    (h : resolvedPredicate env r value q = .ok (some p)) : Shape env.registry reads q p := by
  unfold resolvedPredicate at h
  split at h
  · exact hasManyPredicate_shape hreads h
  · split at h
    · exact countPredicate_shape h
    · split at h
      · exact tagsPredicate_shape hreads.own h
      · exact fieldPredicate_shape hreads h

end

end Winnow.Compile
