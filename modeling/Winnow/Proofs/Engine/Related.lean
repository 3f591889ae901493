import Winnow.Proofs.Condition.Rule
import Winnow.Proofs.Schema.Paths

/-!
# Related rows, visible rows and groups in frames

What a query looks like to a frame that binds its table to a row: its scopes
show the row or not (`scopesHold_eq_shows`), clauses under one connective are a
conjunction or a disjunction (`clausesHold_uniform`), and a question about
related rows is one about the visible rows that the relation leads to
(`related_holds`, `counted_holds`).

A path reaches what its last relation leads to from the rows that the path
before it reaches (`reached_append`).  When every to-one relation leads to at
most one visible row, so does every to-one path (`reached_length_le`).
-/

namespace Winnow

/-! ## Related queries -/

namespace Query

/-- The query on a related entity that a question about its rows is asked by. -/
def inner (q : Query) (related : Entity) : Query :=
  { ofEntity related with
    tableAlias :=
      if related.table = q.qualifier then some (related.table ++ "_" ++ Text.natText (q.depth + 1))
      else none
    depth := q.depth + 1 }

theorem relationQuery_eq (q : Query) (registry : Registry) (relation : String) :
    q.relationQuery registry relation =
      (registry.related q.entity relation).map fun (found, related) =>
        (found.link relation q.qualifier related.table (q.inner related).qualifier,
          q.inner related) := by
  unfold relationQuery
  rcases registry.related q.entity relation with e | ⟨found, related⟩ <;> rfl

@[simp] theorem inner_entity (q : Query) (related : Entity) : (q.inner related).entity = related :=
  rfl

@[simp] theorem inner_depth (q : Query) (related : Entity) :
    (q.inner related).depth = q.depth + 1 := rfl

end Query

namespace Engine

/-! ## Frames -/

@[simp] theorem Frame.row?_cons_self (frame : Frame) (qualifier : String) (row : Option Row) :
    Frame.row? ((qualifier, row) :: frame) qualifier = row := by
  simp [Frame.row?]

theorem Frame.row?_cons_of_ne (frame : Frame) {qualifier other : String} (row : Option Row)
    (h : other ≠ qualifier) :
    Frame.row? ((other, row) :: frame) qualifier = Frame.row? frame qualifier := by
  simp [Frame.row?, h]

theorem read_field {frame : Frame} {qualifier : String} {row : Option Row}
    (h : frame.row? qualifier = row) (column : String) :
    read frame (.field qualifier column) = Condition.fieldOf column row := by
  subst h
  rfl

theorem read_parts {frame : Frame} {qualifier : String} {row : Row}
    (h : frame.row? qualifier = some row) (date time : String) :
    read frame (.dateTimeParts qualifier date time) =
      timestamp (row.value date) (row.value time) := by
  simp only [read, h]

theorem testHolds_equal (frame : Frame) (column : Column) (value : Value) :
    testHolds frame (.compare column .eq value) = (read frame column).equals value := by
  simp only [testHolds, Value.equals]
  rcases (read frame column).compare? value with _ | _ | _ | _ <;> rfl

/-! ## Scopes -/

theorem testHolds_scope {frame : Frame} {qualifier : String} {row : Row}
    (h : frame.row? qualifier = some row) (scope : GlobalScope) (e : Entity) :
    testHolds frame (scope.test e qualifier) = scope.admits e row := by
  have hread : ∀ column, read frame (.field qualifier column) = row.value column :=
    fun column => read_field h column
  have hequals : ∀ column v, testHolds frame (.compare (.field qualifier column) .eq v) =
      (row.value column).equals v := by
    intro column v
    rw [testHolds_equal, hread]
  have hnull : ∀ column, testHolds frame (.null (.field qualifier column) false) =
      (row.value column).isNull := by
    intro column
    simp [testHolds, hread]
  unfold GlobalScope.test GlobalScope.admits
  cases scope.constraint with
  | softDeletes column => exact hnull column
  | equals column value =>
    simp only
    cases (Value.ofJson? value ((e.columnType? column).getD .text)).getD .null with
    | null => exact hnull column
    | _ => exact hequals column _

/-- The scopes of a query that removes none show the row its table is bound to, or not. -/
theorem scopesHold_eq_shows {frame : Frame} {q : Query} {row : Row} (hremoved : q.removedScopes = [])
    (h : frame.row? q.qualifier = some row) : scopesHold frame q = q.entity.shows row := by
  have hactive : q.activeScopes = q.entity.scopes := by
    unfold Query.activeScopes Query.isScopeRemoved
    rw [hremoved]
    simp
  unfold scopesHold Query.scopeTests Entity.shows
  rw [hactive, List.all_map]
  exact congrArg q.entity.scopes.all (funext fun scope => testHolds_scope h scope q.entity)

/-! ## Clauses under one connective -/

section
variable (db : Dataset) (frame : Frame)

theorem clausesHoldAfter_and (group : Bool) (ps : List Predicate) :
    clausesHoldAfter db frame group (ps.map fun p => ⟨.and, p⟩) =
      (group && ps.all (predicateHolds db frame)) := by
  induction ps generalizing group with
  | nil => simp [clausesHoldAfter]
  | cons p ps ih =>
    rw [List.map_cons, clausesHoldAfter, ih, List.all_cons, Bool.and_assoc]

theorem clausesHoldAfter_or (group : Bool) (ps : List Predicate) :
    clausesHoldAfter db frame group (ps.map fun p => ⟨.or, p⟩) =
      (group || ps.any (predicateHolds db frame)) := by
  induction ps generalizing group with
  | nil => simp [clausesHoldAfter]
  | cons p ps ih => rw [List.map_cons, clausesHoldAfter, ih, List.any_cons]

/-- Clauses under one connective are the conjunction or the disjunction of their predicates. -/
theorem clausesHold_uniform (connective : Connective) {ps : List Predicate} (hps : ps ≠ []) :
    clausesHold db frame (ps.map fun p => ⟨connective, p⟩) =
      match connective with
      | .and => ps.all (predicateHolds db frame)
      | .or => ps.any (predicateHolds db frame) := by
  cases ps with
  | nil => exact absurd rfl hps
  | cons p ps =>
    rw [List.map_cons, clausesHold]
    cases connective with
    | and => exact clausesHoldAfter_and db frame _ ps
    | or => exact clausesHoldAfter_or db frame _ ps

/-! ## Related rows -/

theorem relatedHolds_eq (row : Row) (q : Query) :
    relatedHolds db frame row q =
      (scopesHold ((q.qualifier, some row) :: frame) q &&
        clausesHold db ((q.qualifier, some row) :: frame) q.clauses) := by
  cases q
  rw [relatedHolds]

variable {frame} {q : Query} {row : Row} (h : frame.row? q.qualifier = some row)

include h

theorem candidates_link (found : Relation) (related : Entity) (relation qualifier : String) :
    candidates db frame (found.link relation q.qualifier related.table qualifier) =
      linkedRows db (found.link "" "" related.table "") row := by
  have hparent : frame.row? (found.link relation q.qualifier related.table qualifier).parent =
      some row := h
  unfold candidates
  rw [hparent]
  rfl

omit h in
/-- The query on a related entity, with some clauses, holds of the visible rows that satisfy them. -/
theorem relatedHolds_inner (related : Entity) (clauses : List Clause) (r : Row) :
    relatedHolds db frame r { q.inner related with clauses := clauses } =
      (related.shows r && clausesHold db (((q.inner related).qualifier, some r) :: frame) clauses) := by
  rw [relatedHolds_eq, scopesHold_eq_shows rfl (Frame.row?_cons_self ..)]
  rfl

omit h in
theorem relatedHolds_bare (related : Entity) (r : Row) :
    relatedHolds db frame r (q.inner related) = related.shows r := by
  refine (relatedHolds_inner db related [] r).trans ?_
  rw [clausesHold, Bool.and_true]

/-- A question whether some related row satisfies a predicate is one about the visible rows that the
relation leads to. -/
theorem related_holds (found : Relation) (related : Entity) (relation : String) (p : Predicate)
    (c : Row → Bool)
    (hp : ∀ frame r, Frame.row? frame (q.inner related).qualifier = some r →
      predicateHolds db frame p = c r) (negated : Bool) :
    predicateHolds db frame
        (.related (found.link relation q.qualifier related.table (q.inner related).qualifier)
          ((q.inner related).addClause .and p) negated) =
      ((Condition.reachedBy db found related row).any c != negated) := by
  have hrow : ∀ r, relatedHolds db frame r ((q.inner related).addClause .and p) =
      (related.shows r && c r) := by
    intro r
    refine (relatedHolds_inner db related [⟨.and, p⟩] r).trans ?_
    rw [clausesHold, clausesHoldAfter, hp _ r (Frame.row?_cons_self ..)]
  unfold Condition.reachedBy
  rw [predicateHolds, candidates_link db h, List.any_filter]
  simp only [hrow]

/-- The same without a predicate: whether there are visible rows that the relation leads to. -/
theorem bare_holds (found : Relation) (related : Entity) (relation : String) (negated : Bool) :
    predicateHolds db frame
        (.related (found.link relation q.qualifier related.table (q.inner related).qualifier)
          (q.inner related) negated) =
      ((!(Condition.reachedBy db found related row).isEmpty) != negated) := by
  have hempty : ∀ rows : List Row, (rows.any fun _ => true) = !rows.isEmpty := by
    intro rows
    cases rows <;> simp
  unfold Condition.reachedBy
  rw [predicateHolds, candidates_link db h, ← hempty, List.any_filter]
  simp only [relatedHolds_bare, Bool.and_true]

theorem counted_holds (found : Relation) (related : Entity) (relation : String)
    (comparison : Comparison) (bound : Int) :
    predicateHolds db frame
        (.counted (found.link relation q.qualifier related.table (q.inner related).qualifier)
          (q.inner related) comparison bound) =
      comparison.holds
        (compare ((Condition.reachedBy db found related row).length : Int) bound) := by
  unfold Condition.reachedBy
  rw [predicateHolds, candidates_link db h, ← List.countP_eq_length_filter]
  simp only [relatedHolds_bare]

end

end Engine

/-! ## Rows that a path reaches -/

namespace Condition

open Engine

/-- Whether every to-one relation, of an entity or of the registered ones, leads to at most one
visible row from every row of its table. -/
def UniqueToOne (db : Dataset) (registry : Registry) (root : Entity) : Prop :=
  ∀ e, (e = root ∨ ∃ name, registry.get name = .ok e) → ∀ relation found related,
    registry.related e relation = .ok (found, related) → found.isToOne = true →
      ∀ row ∈ db.rows e.table, (reachedBy db found related row).length ≤ 1

section
variable {db : Dataset} {registry : Registry}

theorem linkedRows_mem {link : Link} {row r : Row} (h : r ∈ linkedRows db link row) :
    r ∈ db.rows link.relatedTable := by
  unfold linkedRows at h
  cases hkind : link.kind with
  | direct parentColumn relatedColumn =>
    rw [hkind] at h
    exact (List.mem_filter.mp h).1
  | pivot table parentPivot relatedPivot parentColumn relatedColumn morph =>
    rw [hkind] at h
    obtain ⟨pivot, -, hr⟩ := List.mem_flatMap.mp h
    exact (List.mem_filter.mp hr).1

theorem mem_rows_of_candidates {frame : Frame} {link : Link} {r : Row}
    (h : r ∈ candidates db frame link) : r ∈ db.rows link.relatedTable := by
  unfold candidates at h
  split at h
  · exact linkedRows_mem h
  · cases h

theorem reachedBy_mem {found : Relation} {related : Entity} {row r : Row}
    (h : r ∈ reachedBy db found related row) : r ∈ db.rows related.table :=
  linkedRows_mem (List.mem_filter.mp h).1

/-- One relation more leads on from the rows that the path reaches. -/
theorem reached_append {e target related : Entity} {path : List String} {relation : String}
    {found : Relation} (hwalk : registry.walk e path = .ok target)
    (hrelated : registry.related target relation = .ok (found, related)) (row : Row) :
    reached db registry e (path ++ [relation]) row =
      (reached db registry e path row).flatMap (reachedBy db found related) := by
  induction path generalizing e row with
  | nil =>
    cases hwalk
    simp [reached, hrelated]
  | cons first rest ih =>
    unfold Registry.walk at hwalk
    rw [List.cons_append]
    unfold reached
    cases hr : registry.related e first with
    | error error => simp [hr] at hwalk
    | ok pair =>
      rw [hr] at hwalk
      simp only [List.flatMap_assoc]
      exact congrArg (List.flatMap · _) (funext fun next => ih hwalk next)

/-! ## Questions about paths -/

theorem ofPath_of_any {e : Entity} {path : FieldPath} {missing : Missing}
    (h : missing = .unmet ∨ registry.isToOnePath e path.relations = false) (asks : Question)
    (row : Row) :
    ofPath db registry e path asks missing row =
      (reached db registry e path.relations row).any fun r =>
        asks (r.value path.column) := by
  unfold ofPath
  rcases h with rfl | h
  · rfl
  · simp [h]

theorem ofPath_of_toOne {e : Entity} {path : FieldPath}
    (h : registry.isToOnePath e path.relations = true) (asks : Question) (row : Row) :
    ofPath db registry e path asks .null row =
      asks (fieldOf path.column
        (reached db registry e path.relations row).head?) := by
  unfold ofPath
  simp [h]

/-- A field of the entity itself is read from the row, whatever the reading of missing rows. -/
theorem ofPath_nil (e : Entity) (column : String) (asks : Question)
    (missing : Missing) (row : Row) :
    ofPath db registry e ⟨[], column⟩ asks missing row = asks (row.value column) := by
  unfold ofPath
  cases missing <;> simp [reached, Registry.isToOnePath, fieldOf]

/-! ## To-one relations -/

/-- A to-one path reaches at most one row. -/
theorem reached_length_le {root e : Entity} (hunique : UniqueToOne db registry root)
    (he : e = root ∨ ∃ name, registry.get name = .ok e) {path : List String}
    (htoOne : registry.isToOnePath e path = true) {row : Row} (hrow : row ∈ db.rows e.table) :
    (reached db registry e path row).length ≤ 1 := by
  induction path generalizing e row with
  | nil => exact Nat.le_refl 1
  | cons relation rest ih =>
    obtain ⟨found, related, hr, hfound, htoOne⟩ := Registry.related_of_isToOnePath htoOne
    have hlength := hunique e he relation found related hr hfound row hrow
    unfold reached
    rw [hr]
    simp only
    cases hby : reachedBy db found related row with
    | nil => simp
    | cons next others =>
      rw [hby, List.length_cons] at hlength
      have hothers : others = [] := List.length_eq_zero_iff.mp (by omega)
      have hnext : next ∈ reachedBy db found related row := by
        rw [hby]
        exact List.mem_cons_self
      simpa [hothers] using ih (.inr ⟨_, Registry.get_of_related hr⟩) htoOne (reachedBy_mem hnext)

end

end Condition
end Winnow
