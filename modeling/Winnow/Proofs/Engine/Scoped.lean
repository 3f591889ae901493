import Winnow.Proofs.Engine.Listing
import Winnow.Proofs.Engine.Matching

/-!
# What the scopes of a query keep out

A query admits a row when every global scope that it did not remove does
(`scopesHold_iff`).  Rows that it does not admit are not the root of a matching
frame (`root_admitted`), not among the rows of the page (`execute_projects`),
and not among the rows that a question about related rows or an aggregate is
about (`matchingRows_admitted`, `related_iff_matchingRows`,
`counted_eq_matchingRows`).
-/

namespace Winnow

/-- Whether every global scope of its entity that a query did not remove admits a row. -/
def Query.Admits (q : Query) (row : Row) : Prop :=
  ∀ scope ∈ q.entity.scopes, scope.name ∉ q.removedScopes → scope.admits q.entity row = true

namespace Engine

variable (db : Dataset)

theorem scopesHold_iff {frame : Frame} {q : Query} {row : Row}
    (h : frame.row? q.qualifier = some row) : scopesHold frame q = true ↔ q.Admits row := by
  have hactive : ∀ scope, scope ∈ q.activeScopes ↔
      scope ∈ q.entity.scopes ∧ scope.name ∉ q.removedScopes := by
    intro scope
    unfold Query.activeScopes Query.isScopeRemoved
    rw [List.mem_filter, Bool.not_eq_true', List.contains_eq_mem, decide_eq_false_iff_not]
  unfold scopesHold Query.scopeTests
  rw [List.all_map, List.all_eq_true]
  constructor
  · intro hall scope hscope hkept
    rw [← testHolds_scope h scope q.entity]
    exact hall scope ((hactive scope).mpr ⟨hscope, hkept⟩)
  · intro hadmits scope hscope
    obtain ⟨hmem, hkept⟩ := (hactive scope).mp hscope
    show testHolds frame (scope.test q.entity q.qualifier) = true
    rw [testHolds_scope h scope q.entity]
    exact hadmits scope hmem hkept

/-! ## Root rows -/

/-- A matching frame binds the table of its query to a row that the query admits, unless a join
hides the table. -/
theorem root_admitted {q : Query} (hapart : ∀ j ∈ q.joins, j.tableAlias ≠ q.qualifier)
    {frame : Frame} (h : frame ∈ matchingFrames db q) :
    ∃ root ∈ db.rows q.entity.table, frame.row? q.qualifier = some root ∧ q.Admits root := by
  rw [matchingFrames_eq] at h
  obtain ⟨root, hroot, hframe⟩ := List.mem_flatMap.mp h
  obtain ⟨hmem, hholds⟩ := List.mem_filter.mp hframe
  have hunhidden : ∀ j ∈ q.joins, j.tableAlias ∉ [q.qualifier] := fun j hj hhidden =>
    hapart j hj (List.mem_singleton.mp hhidden)
  have hagree := agreeOn_of_mem_framesOf db hunhidden hmem
  have hbound : frame.row? q.qualifier = some root :=
    (hagree q.qualifier (List.mem_singleton_self _)).trans (Frame.row?_cons_self ..)
  have hscopes : scopesHold frame q = true := (Bool.and_eq_true_iff.mp hholds).1
  exact ⟨root, hroot, hbound, (scopesHold_iff hbound).mp hscopes⟩

theorem mem_place {α : Type} (before : α → α → Bool) (x y : α) (placed : List α) :
    y ∈ place before x placed ↔ y = x ∨ y ∈ placed := by
  induction placed with
  | nil => exact List.mem_cons
  | cons first rest ih =>
    unfold place
    split
    · exact List.mem_cons
    · rw [List.mem_cons, ih, List.mem_cons]
      exact or_left_comm

theorem mem_arrange {α : Type} (before : α → α → Bool) (y : α) (values : List α) :
    y ∈ arrange before values ↔ y ∈ values := by
  have hfold : ∀ placed : List α,
      y ∈ values.foldl (fun placed x => place before x placed) placed ↔
        y ∈ placed ∨ y ∈ values := by
    induction values with
    | nil =>
      intro placed
      simp
    | cons x values ih =>
      intro placed
      rw [List.foldl_cons, ih, mem_place, List.mem_cons]
      exact or_assoc.trans or_left_comm
  rw [arrange, hfold]
  simp

/-- The rows of the page are projections of matching frames. -/
theorem execute_projects {q : Query} {row : Row} (h : row ∈ execute db q) :
    ∃ frame ∈ matchingFrames db q, row = project db q frame := by
  have hlisting : row ∈ listing db q := by
    unfold execute at h
    simp only at h
    split at h
    · exact List.mem_of_mem_drop (List.mem_of_mem_take h)
    · exact List.mem_of_mem_drop h
  unfold listing at hlisting
  obtain ⟨keyed, hkeyed, rfl⟩ := List.mem_map.mp hlisting
  rw [mem_arrange] at hkeyed
  obtain ⟨frame, hframe, rfl⟩ := List.mem_map.mp hkeyed
  exact ⟨frame, hframe, rfl⟩

/-! ## Related rows -/

section
variable (frame : Frame) (link : Link) (q : Query)

/-- Related rows that a query is about are ones that it admits. -/
theorem matchingRows_admitted {row : Row} (h : row ∈ matchingRows db frame link q) :
    q.Admits row := by
  have hholds : relatedHolds db frame row q = true := (List.mem_filter.mp h).2
  rw [relatedHolds_eq] at hholds
  obtain ⟨hscopes, -⟩ := Bool.and_eq_true_iff.mp hholds
  exact (scopesHold_iff (Frame.row?_cons_self ..)).mp hscopes

theorem related_iff_matchingRows (negated : Bool) :
    predicateHolds db frame (.related link q negated) =
      ((!(matchingRows db frame link q).isEmpty) != negated) := by
  have hany : ∀ rows : List Row, (rows.any fun row => relatedHolds db frame row q) =
      !(rows.filter fun row => relatedHolds db frame row q).isEmpty := by
    intro rows
    rw [Bool.eq_iff_iff, List.any_eq_true, Bool.not_eq_true', List.isEmpty_eq_false_iff]
    constructor
    · rintro ⟨row, hrow, hholds⟩
      exact List.ne_nil_of_mem (List.mem_filter.mpr ⟨hrow, hholds⟩)
    · intro hne
      obtain ⟨row, hrow⟩ := List.exists_mem_of_ne_nil _ hne
      exact ⟨row, List.mem_filter.mp hrow⟩
  rw [predicateHolds, hany]
  rfl

theorem counted_eq_matchingRows (op : Comparison) (bound : Int) :
    predicateHolds db frame (.counted link q op bound) =
      op.holds (compare ((matchingRows db frame link q).length : Int) bound) := by
  rw [predicateHolds, List.countP_eq_length_filter]
  rfl

end

end Engine
end Winnow
