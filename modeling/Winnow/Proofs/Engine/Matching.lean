import Winnow.Proofs.Engine.Reading

/-!
# The rows that a query matches

The frames of a query are those of its rows, one row after another
(`joinedFrames_eq`), and a row is matched when one of its frames satisfies the
query (`matchingFrames_eq`).  More joins extend frames without changing what
other aliases are bound to (`agreeOn_of_mem_framesOf`), and one more AND clause
narrows the last alternative of a query only, so the rows matched are those that
satisfy the clause too and those that another alternative lets through
(`matchesRow_refines`).
-/

namespace Winnow.Engine

/-! ## Definitions -/

/-- The frames that joins extend a frame to. -/
def framesOf (db : Dataset) (joins : List Join) (frame : Frame) : List Frame :=
  joins.foldl (fun frames join => frames.flatMap (joinFrame db join)) [frame]

/-- The frames of a row of the table of a query. -/
def rowFrames (db : Dataset) (q : Query) (row : Row) : List Frame :=
  framesOf db q.joins [(q.qualifier, some row)]

/-- Whether a row is matched: whether one of its frames satisfies the query. -/
def matchesRow (db : Dataset) (q : Query) (row : Row) : Bool :=
  (rowFrames db q row).any fun frame => queryHolds db frame q

/-- Whether a row is matched and satisfies added predicates as well, which may read added joins. -/
def matchesBoth (db : Dataset) (q : Query) (added : List Predicate) (joins : List Join)
    (row : Row) : Bool :=
  (rowFrames db q row).any fun frame =>
    queryHolds db frame q && (framesOf db joins frame).any fun extended => allHold db extended added

/-- Whether a row satisfies an alternative of a query that predicates appended with AND are not
asked of: any but the last. -/
def escapes (db : Dataset) (q : Query) (added : List Predicate) (joins : List Join) (row : Row) :
    Bool :=
  !added.isEmpty && (rowFrames db q row).any fun frame =>
    scopesHold frame q && (alternatives q.clauses).dropLast.any (allHold db frame) &&
      !(framesOf db joins frame).isEmpty

/-! ## Frames -/

section
variable (db : Dataset)

theorem foldl_joinFrame (joins : List Join) (frames : List Frame) :
    joins.foldl (fun frames join => frames.flatMap (joinFrame db join)) frames =
      frames.flatMap (framesOf db joins) := by
  induction joins generalizing frames with
  | nil => exact (List.flatMap_singleton' frames).symm
  | cons join joins ih =>
    rw [List.foldl_cons, ih, List.flatMap_assoc]
    refine congrArg frames.flatMap (funext fun frame => ?_)
    unfold framesOf
    rw [List.foldl_cons, ih, List.flatMap_singleton]
    rfl

theorem framesOf_append (joins more : List Join) (frame : Frame) :
    framesOf db (joins ++ more) frame = (framesOf db joins frame).flatMap (framesOf db more) := by
  unfold framesOf
  rw [List.foldl_append, foldl_joinFrame]
  rfl

/-- The frames of a query are the frames of its rows, in the order of the table. -/
theorem joinedFrames_eq (q : Query) :
    joinedFrames db q = (db.rows q.entity.table).flatMap (rowFrames db q) := by
  unfold joinedFrames
  rw [foldl_joinFrame, List.flatMap_map]
  rfl

/-- The matching frames are those of the rows that are matched. -/
theorem matchingFrames_eq (q : Query) :
    matchingFrames db q = (db.rows q.entity.table).flatMap fun row =>
      (rowFrames db q row).filter fun frame => queryHolds db frame q := by
  unfold matchingFrames
  rw [joinedFrames_eq, List.filter_flatMap]

/-- A join binds its alias to a row of its table, or to none. -/
theorem mem_joinFrame {join : Join} {frame joined : Frame} (h : joined ∈ joinFrame db join frame) :
    ∃ found, joined = (join.tableAlias, found) :: frame ∧
      ∀ row, found = some row → row ∈ db.rows join.table := by
  unfold joinFrame at h
  simp only at h
  split at h
  · exact ⟨none, List.mem_singleton.mp h, by simp⟩
  · obtain ⟨row, hrow, rfl⟩ := List.mem_map.mp (List.mem_filter.mp h).1
    exact ⟨some row, rfl, by simpa using hrow⟩

/-- Joins bind nothing but their aliases. -/
theorem agreeOn_of_mem_framesOf {qualifiers : List String} {joins : List Join}
    (h : ∀ j ∈ joins, j.tableAlias ∉ qualifiers) {frame extended : Frame}
    (hmem : extended ∈ framesOf db joins frame) : AgreeOn qualifiers extended frame := by
  induction joins generalizing frame with
  | nil =>
    rw [List.mem_singleton.mp hmem]
    exact fun _ _ => rfl
  | cons join joins ih =>
    unfold framesOf at hmem
    rw [List.foldl_cons, List.flatMap_singleton, foldl_joinFrame] at hmem
    obtain ⟨joined, hjoined, hmem⟩ := List.mem_flatMap.mp hmem
    have hrest := ih (fun j hj => h j (List.mem_cons_of_mem join hj)) hmem
    obtain ⟨row, rfl, -⟩ := mem_joinFrame db hjoined
    intro qualifier hqualifier
    rw [hrest qualifier hqualifier]
    refine Frame.row?_cons_of_ne frame row fun heq => ?_
    exact h join List.mem_cons_self (heq ▸ hqualifier)

end

/-! ## Narrowing -/

section
variable (db : Dataset) (q : Query) (added : List Predicate) (joins : List Join) (row : Row)

theorem matchesRow_of_matchesBoth (h : matchesBoth db q added joins row = true) :
    matchesRow db q row = true := by
  obtain ⟨frame, hframe, hholds⟩ := List.any_eq_true.mp h
  exact List.any_eq_true.mpr ⟨frame, hframe, (Bool.and_eq_true_iff.mp hholds).1⟩

/-- A row that escapes was matched before. -/
theorem matchesRow_of_escapes (h : escapes db q added joins row = true) :
    matchesRow db q row = true := by
  obtain ⟨-, hany⟩ := Bool.and_eq_true_iff.mp h
  obtain ⟨frame, hframe, hholds⟩ := List.any_eq_true.mp hany
  obtain ⟨hholds, -⟩ := Bool.and_eq_true_iff.mp hholds
  obtain ⟨hscopes, hothers⟩ := Bool.and_eq_true_iff.mp hholds
  obtain ⟨ps, hps, hall⟩ := List.any_eq_true.mp hothers
  have hclauses : clausesHold db frame q.clauses = true := by
    rw [clausesHold_eq_any, Bool.or_eq_true]
    exact .inr (List.any_eq_true.mpr ⟨ps, (List.dropLast_sublist _).subset hps, hall⟩)
  exact List.any_eq_true.mpr ⟨frame, hframe, Bool.and_eq_true_iff.mpr ⟨hscopes, hclauses⟩⟩

variable {q} in
/-- Without OR there is no other alternative to escape through. -/
theorem escapes_of_and (h : ∀ clause ∈ q.clauses.tail, clause.connective = .and) :
    escapes db q added joins row = false := by
  unfold escapes
  rw [alternatives_of_and h]
  simp

end

/-! ## One more clause -/

/-- A query with clauses and joins appended, that is otherwise the same for the rows it matches. -/
structure Refines (q r : Query) (added : List Predicate) (joins : List Join) : Prop where
  entity_eq : r.entity = q.entity
  tableAlias_eq : r.tableAlias = q.tableAlias
  clauses_eq : r.clauses = q.clauses ++ added.map fun p => ⟨.and, p⟩
  joins_eq : r.joins = q.joins ++ joins

theorem refines_of_eq {q r : Query} (hentity : r.entity = q.entity)
    (halias : r.tableAlias = q.tableAlias) (hclauses : r.clauses = q.clauses)
    (hjoins : r.joins = q.joins) : Refines q r [] [] :=
  ⟨hentity, halias, by simpa using hclauses, by simpa using hjoins⟩

theorem Refines.trans {q r s : Query} {added added' : List Predicate} {joins joins' : List Join}
    (h : Refines q r added joins) (h' : Refines r s added' joins') :
    Refines q s (added ++ added') (joins ++ joins') := by
  refine ⟨h'.entity_eq.trans h.entity_eq, h'.tableAlias_eq.trans h.tableAlias_eq, ?_, ?_⟩
  · rw [h'.clauses_eq, h.clauses_eq, List.map_append, List.append_assoc]
  · rw [h'.joins_eq, h.joins_eq, List.append_assoc]

theorem any_gated {α : Type} (l : List α) (scopes other clauses : Bool) (holds : α → Bool) :
    (l.any fun a => scopes && (other || (clauses && holds a))) =
      ((scopes && clauses && l.any holds) || (scopes && other && !l.isEmpty)) := by
  cases l with
  | nil => simp
  | cons a l => cases scopes <;> cases other <;> cases clauses <;> simp

theorem any_or_gated {α : Type} (l : List α) (f g : α → Bool) (gate : Bool) :
    (l.any fun a => f a || (gate && g a)) = (l.any f || (gate && l.any g)) := by
  induction l with
  | nil => simp
  | cons a l ih =>
    rw [List.any_cons, List.any_cons, List.any_cons, ih]
    cases gate <;> cases f a <;> cases g a <;> simp

section
variable (db : Dataset) {q r : Query} {added : List Predicate} {joins : List Join}
  (h : Refines q r added joins) (hadded : added.length ≤ 1)
  (hscopes : r.removedScopes = q.removedScopes)
  (hunread : ∀ j ∈ joins, j.tableAlias ∉ q.reads)

include h hadded hscopes hunread

/-- On one frame: what holds of its extensions. -/
theorem any_queryHolds (frame : Frame) :
    ((framesOf db joins frame).any fun extended => queryHolds db extended r) =
      ((queryHolds db frame q &&
          (framesOf db joins frame).any fun extended => allHold db extended added) ||
        (!added.isEmpty && (scopesHold frame q &&
          (alternatives q.clauses).dropLast.any (allHold db frame) &&
            !(framesOf db joins frame).isEmpty))) := by
  have hqualifier : r.qualifier = q.qualifier := by
    unfold Query.qualifier
    rw [h.entity_eq, h.tableAlias_eq]
  -- an extension reads as the frame does wherever the query itself reads
  have hsame : ∀ extended ∈ framesOf db joins frame,
      scopesHold extended r = scopesHold frame q ∧
        clausesHold db extended q.clauses = clausesHold db frame q.clauses ∧
        (alternatives q.clauses).dropLast.any (allHold db extended) =
          (alternatives q.clauses).dropLast.any (allHold db frame) := by
    intro extended hextended
    have hagree := agreeOn_of_mem_framesOf db hunread hextended
    have hclauses : AgreeOn (clausesRead q.clauses) extended frame :=
      hagree.mono fun _ => List.mem_cons_of_mem _
    refine ⟨?_, clausesHold_congr db q.clauses hclauses, ?_⟩
    · have hr : scopesHold extended r = scopesHold extended q := by
        unfold scopesHold Query.scopeTests Query.activeScopes Query.isScopeRemoved
        rw [hqualifier, h.entity_eq, hscopes]
      rw [hr]
      exact scopesHold_congr (hagree q.qualifier List.mem_cons_self)
    · rw [Bool.eq_iff_iff, List.any_eq_true, List.any_eq_true]
      refine exists_congr fun ps => and_congr_right fun hps => ?_
      have hps := (List.dropLast_sublist _).subset hps
      unfold allHold
      rw [List.all_eq_true, List.all_eq_true]
      refine forall₂_congr fun p hp => ?_
      rw [predicateHolds_congr db p (hclauses.mono (reads_of_mem_alternatives hps hp))]
  have hextended : ∀ extended ∈ framesOf db joins frame, queryHolds db extended r =
      (scopesHold frame q && ((!added.isEmpty &&
          (alternatives q.clauses).dropLast.any (allHold db frame)) ||
        (clausesHold db frame q.clauses && allHold db extended added))) := by
    intro extended hmem
    obtain ⟨hscope, hclauses, hothers⟩ := hsame extended hmem
    unfold queryHolds
    rw [hscope, h.clauses_eq]
    rcases added with _ | ⟨p, _ | ⟨p', rest⟩⟩
    · simp [hclauses, allHold]
    · simp only [List.map_cons, List.map_nil, clausesHold_append, hothers, hclauses]
      simp [allHold]
    · simp at hadded
  have hany : ((framesOf db joins frame).any fun extended => queryHolds db extended r) =
      (framesOf db joins frame).any fun extended => scopesHold frame q && ((!added.isEmpty &&
          (alternatives q.clauses).dropLast.any (allHold db frame)) ||
        (clausesHold db frame q.clauses && allHold db extended added)) := by
    rw [Bool.eq_iff_iff, List.any_eq_true, List.any_eq_true]
    exact exists_congr fun extended => and_congr_right fun hmem => by rw [hextended extended hmem]
  rw [hany, any_gated]
  unfold queryHolds
  cases scopesHold frame q <;> cases added.isEmpty <;> simp

/-- A row is matched after a refinement when it was matched and satisfies what was added, or when it
escapes. -/
theorem matchesRow_refines (row : Row) :
    matchesRow db r row = (matchesBoth db q added joins row || escapes db q added joins row) := by
  have hframes : rowFrames db r row = (rowFrames db q row).flatMap (framesOf db joins) := by
    unfold rowFrames
    have hqualifier : r.qualifier = q.qualifier := by
      unfold Query.qualifier
      rw [h.entity_eq, h.tableAlias_eq]
    rw [hqualifier, h.joins_eq, framesOf_append]
  unfold matchesRow matchesBoth escapes
  rw [hframes, List.any_flatMap]
  simp only [any_queryHolds db h hadded hscopes hunread]
  exact any_or_gated ..

end

end Winnow.Engine
