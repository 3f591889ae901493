import Winnow.Proofs.Engine.Related
import Winnow.Engine.Execute

/-!
# Queries that only select

Without orders, projection, aggregates and page a query gives the rows of its
table that satisfy it, in the order of the table, as long as every row has one
frame (`execute_eq_filter`).
-/

namespace Winnow

/-- Whether a query does no more than select rows. -/
structure Query.OnlySelects (q : Query) : Prop where
  orders_eq : q.orders = []
  selects_eq : q.selects = []
  aggregates_eq : q.aggregates = []
  limit_eq : q.limit = none
  offset_eq : q.offset = none
  removedScopes_eq : q.removedScopes = []

namespace Engine

/-! ## Frames -/

/-- Frames of a query: one for every row of its table, in order, in which the table is bound to the
row. -/
structure FramesOf (db : Dataset) (q : Query) (frameOf : Row → Frame) : Prop where
  joinedFrames_eq : joinedFrames db q = (db.rows q.entity.table).map frameOf
  root : ∀ row ∈ db.rows q.entity.table, (frameOf row).row? q.qualifier = some row

/-- The frames that serve the rows of a table. -/
def ServedBy (db : Dataset) (q : Query) (frameOf : Row → Frame) (frame : Frame) (row : Row) :
    Prop :=
  row ∈ db.rows q.entity.table ∧ frame = frameOf row

theorem unjoined_frames (db : Dataset) {q : Query} (h : q.joins = []) :
    FramesOf db q fun row => [(q.qualifier, some row)] := by
  refine ⟨?_, fun row _ => Frame.row?_cons_self ..⟩
  unfold joinedFrames
  rw [h]
  rfl

/-! ## Order -/

theorem place_of_not_before {α : Type} (before : α → α → Bool) (x : α) (placed : List α)
    (h : ∀ y, before x y = false) : place before x placed = placed ++ [x] := by
  induction placed with
  | nil => rfl
  | cons y rest ih =>
    unfold place
    simp [h, ih]

theorem arrange_of_not_before {α : Type} (before : α → α → Bool) (values : List α)
    (h : ∀ x y, before x y = false) : arrange before values = values := by
  have hfold : ∀ placed : List α,
      values.foldl (fun placed x => place before x placed) placed = placed ++ values := by
    induction values with
    | nil => simp
    | cons x values ih =>
      intro placed
      rw [List.foldl_cons, place_of_not_before before x placed (h x), ih]
      simp
  exact hfold []

/-! ## Output -/

/-- A query that only selects lists the rows of its table, frame by frame. -/
theorem execute_of_onlySelects (db : Dataset) {q : Query} (h : q.OnlySelects) :
    execute db q = (matchingFrames db q).map fun frame => (frame.row? q.qualifier).getD [] := by
  have hproject : ∀ frame, project db q frame = (frame.row? q.qualifier).getD [] := by
    intro frame
    unfold project projectColumns
    rw [h.aggregates_eq, h.selects_eq]
    rfl
  have hbefore : ∀ a b : List Value × Row, (keyOrder q.orders a.1 b.1 == .lt) = false := by
    intro a b
    rw [h.orders_eq]
    rfl
  have hlisting : listing db q = (matchingFrames db q).map (project db q) := by
    unfold listing
    simp only
    rw [arrange_of_not_before _ _ hbefore, List.map_map]
    rfl
  unfold execute
  rw [hlisting, h.limit_eq, h.offset_eq]
  exact List.map_congr_left fun frame _ => hproject frame

/-- The rows of the table that the scopes show and whose frame satisfies the clauses, in order. -/
theorem execute_eq_filter {db : Dataset} {q : Query} {frameOf : Row → Frame}
    (hframes : FramesOf db q frameOf) (h : q.OnlySelects) :
    execute db q = (db.rows q.entity.table).filter fun row =>
      q.entity.shows row && clausesHold db (frameOf row) q.clauses := by
  rw [execute_of_onlySelects db h]
  unfold matchingFrames
  rw [hframes.joinedFrames_eq, List.filter_map, List.map_map]
  have hfilter : (db.rows q.entity.table).filter ((fun frame => queryHolds db frame q) ∘ frameOf) =
      (db.rows q.entity.table).filter fun row =>
        q.entity.shows row && clausesHold db (frameOf row) q.clauses := by
    refine List.filter_congr fun row hrow => ?_
    show queryHolds db (frameOf row) q = _
    unfold queryHolds
    rw [scopesHold_eq_shows h.removedScopes_eq (hframes.root row hrow)]
  rw [hfilter]
  refine (List.map_congr_left fun row hrow => ?_).trans (List.map_id _)
  show ((frameOf row).row? q.qualifier).getD [] = row
  rw [hframes.root row (List.mem_filter.mp hrow).1]
  rfl

end Engine
end Winnow
