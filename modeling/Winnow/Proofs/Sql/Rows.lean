import Mathlib.Data.List.Perm.Basic
import Winnow.Proofs.Engine.Joins
import Winnow.Proofs.Query.Built
import Winnow.Proofs.Sql.Truth

/-!
# Rows of rendered statements

What is read from a text stands for rows as in SQL: the product of its tables,
where a name means the innermost table of that name, null equals nothing, and a
left join keeps rows without a match (`Subquery.rows`).  A frame binds the names
of all tables around a condition, those of the innermost statement first.

For queries that the builder makes these are the rows of the engine
(`rendered_rows`).  The tables of a statement give the frames of its query, in
order (`joinRows_joins`).  The table of a sub-query, its pivot table and the
conditions of its link give the rows that the link relates, once for every
matching row of the pivot (`linkRows_direct`, `linkRows_pivot`); this holds at
every depth, because a sub-query hides the name of its parent neither by its own
table nor by its pivot (`Encloses.asked`).
-/

namespace Winnow.Sql

open Engine

/-! ## Rows of what is read -/

/-- Whether two columns have equal values; null equals nothing. -/
def columnsEqual (env : Frame) (left right : Column) : Bool :=
  let a := read env left
  let b := read env right
  !a.isNull && !b.isNull && a.equals b

mutual

/-- Whether a condition is true for the rows that some names are bound to. -/
def Formula.holds (db : Dataset) (env : Frame) : Formula → Bool
  | .constant value => value
  | .test t => testHolds env t
  | .equal left right => columnsEqual env left right
  | .both left right => left.holds db env && right.holds db env
  | .either left right => left.holds db env || right.holds db env
  | .exists_ body negated => (!(body.rows db env).isEmpty) != negated
  | .counted body op bound => op.holds (compare ((body.rows db env).length : Int) bound)

/-- The rows of a sub-query inside others: those of its tables that satisfy its condition. -/
def Subquery.rows (db : Dataset) (env : Frame) : Subquery → List Frame
  | ⟨table, joins, condition⟩ =>
    (joinRows db ((db.rows table.table).map fun row => (table.name, some row) :: env) joins).filter
      fun env => condition.holds db env

/-- Rows extended by joined tables in turn. -/
def joinRows (db : Dataset) (envs : List Frame) : List JoinedTable → List Frame
  | [] => envs
  | ⟨kind, table, on⟩ :: rest =>
    let extend (env : Frame) :=
      let matched := ((db.rows table.table).map fun row => (table.name, some row) :: env).filter
        fun env => on.holds db env
      if matched.isEmpty && kind == .left then [(table.name, none) :: env] else matched
    joinRows db (envs.flatMap extend) rest

end

/-- The rows of the tables of a sub-query inside others, whatever its condition. -/
def Subquery.joined (db : Dataset) (env : Frame) (body : Subquery) : List Frame :=
  joinRows db ((db.rows body.table.table).map fun row => (body.table.name, some row) :: env)
    body.joins

/-- The rows of the tables of a statement, whatever its condition. -/
def Select.joined (db : Dataset) (s : Select) : List Frame :=
  joinRows db ((db.rows s.table.table).map fun row => [(s.table.name, some row)]) s.joins

/-- The names of a table and those joined with it. -/
def tableNames (table : Table) (joins : List JoinedTable) : List String :=
  table.name :: joins.map fun joined => joined.table.name

/-- A frame extended by a joined table: by its rows that satisfy the condition, or by no row where a
left join finds none. -/
def JoinedTable.extend (db : Dataset) (joined : JoinedTable) (env : Frame) : List Frame :=
  let matched := ((db.rows joined.table.table).map fun row =>
    (joined.table.name, some row) :: env).filter fun env => joined.on.holds db env
  if matched.isEmpty && joined.kind == .left then [(joined.table.name, none) :: env] else matched

theorem extend_inner (db : Dataset) (table : Table) (on : Formula) (env : Frame) :
    JoinedTable.extend db ⟨.inner, table, on⟩ env =
      ((db.rows table.table).map fun row => (table.name, some row) :: env).filter
        fun env => on.holds db env := by
  have hkind : (JoinKind.inner == JoinKind.left) = false := rfl
  simp only [JoinedTable.extend, hkind, Bool.and_false, Bool.false_eq_true, if_false]

theorem joinRows_cons (db : Dataset) (envs : List Frame) (joined : JoinedTable)
    (rest : List JoinedTable) :
    joinRows db envs (joined :: rest) = joinRows db (envs.flatMap (joined.extend db)) rest := by
  cases joined
  rw [joinRows]
  rfl

theorem Subquery.rows_eq (db : Dataset) (env : Frame) (body : Subquery) :
    body.rows db env = (body.joined db env).filter fun env => body.condition.holds db env := by
  cases body
  rw [Subquery.rows]
  rfl

/-- The truth values that some rows give to atomic conditions. -/
def truths (db : Dataset) (env : Frame) : Assignment where
  test := testHolds env
  equal := columnsEqual env
  hasRows body := !(body.rows db env).isEmpty
  counted body op bound := op.holds (compare ((body.rows db env).length : Int) bound)

theorem Formula.holds_eq_value (db : Dataset) (env : Frame) :
    (f : Formula) → f.holds db env = f.value (truths db env)
  | .constant _ => by rw [Formula.holds, Formula.value]
  | .test _ | .equal _ _ | .exists_ _ _ | .counted _ _ _ => by
    rw [Formula.holds, Formula.value]
    rfl
  | .both left right => by
    rw [Formula.holds, Formula.value, left.holds_eq_value, right.holds_eq_value]
  | .either left right => by
    rw [Formula.holds, Formula.value, left.holds_eq_value, right.holds_eq_value]

theorem columnsEqual_eq (env : Frame) (left right : Column) :
    columnsEqual env left right = (read env left).equals (read env right) := by
  unfold columnsEqual
  by_cases hleft : read env left = .null
  · simp [hleft, Value.null_equals, Value.isNull]
  by_cases hright : read env right = .null
  · simp [hright, Value.equals_comm _ Value.null, Value.null_equals, Value.isNull]
  have hnull : ∀ v : Value, v ≠ .null → v.isNull = false := by
    intro v hv
    cases v <;> first | rfl | exact absurd rfl hv
  simp [hnull _ hleft, hnull _ hright]

/-- Equal columns of two rows: one row has the key that the other holds. -/
theorem columnsEqual_rows {env : Frame} {left right : String} {row other : Row}
    (hleft : env.row? left = some row) (hright : env.row? right = some other)
    (column otherColumn : String) :
    columnsEqual env (.field left column) (.field right otherColumn) =
      hasKey column (other.value otherColumn) row := by
  rw [columnsEqual_eq, hasKey_eq, Value.equals_comm, read_field hleft, read_field hright]
  rfl

/-! ## Joins of a statement -/

theorem testFormula_scope (scope : GlobalScope) (entity : Entity) (qualifier : String) :
    testFormula (scope.test entity qualifier) = .test (scope.test entity qualifier) := by
  unfold GlobalScope.test
  cases scope.constraint with
  | softDeletes column => rfl
  | equals column value =>
    simp only
    cases (Value.ofJson? value ((entity.columnType? column).getD .text)).getD .null <;> rfl

/-- The condition of a joined table is true just when the engine joins the row. -/
theorem joinOf_holds (db : Dataset) (env : Frame) {j : Join} (hscopes : j.OnlyScopes) :
    (joinOf j).on.holds db env = joinHolds db env j := by
  have hconditions : ∀ p ∈ j.conditions,
      (predicateFormula p).value (truths db env) = predicateHolds db env p := by
    intro p hp
    obtain ⟨scope, entity, qualifier, rfl⟩ := hscopes p hp
    rw [predicateFormula, testFormula_scope, predicateHolds]
    rfl
  rw [Formula.holds_eq_value]
  show (allOf _).value _ = _
  rw [allOf_value, List.all_cons, List.all_map, joinHolds]
  congr 1
  · exact columnsEqual_eq env j.first j.second
  · rw [Bool.eq_iff_iff, List.all_eq_true, List.all_eq_true]
    exact forall₂_congr fun p hp => by rw [Function.comp_apply, hconditions p hp]

theorem joinOf_extend (db : Dataset) {j : Join} (hscopes : j.OnlyScopes) :
    (joinOf j).extend db = joinFrame db j := by
  funext env
  unfold JoinedTable.extend joinFrame
  simp only [joinOf_holds db _ hscopes]
  rfl

/-- The tables joined in a statement give the frames that the engine joins, one join at a time. -/
theorem joinRows_joins (db : Dataset) (joins : List Join) (hscopes : ∀ j ∈ joins, j.OnlyScopes)
    (envs : List Frame) :
    joinRows db envs (joins.map joinOf) =
      joins.foldl (fun frames join => frames.flatMap (joinFrame db join)) envs := by
  induction joins generalizing envs with
  | nil => rw [List.map_nil, joinRows, List.foldl_nil]
  | cons j joins ih =>
    rw [List.map_cons, joinRows_cons, joinOf_extend db (hscopes j List.mem_cons_self),
      List.foldl_cons]
    exact ih (fun j' hj' => hscopes j' (List.mem_cons_of_mem j hj')) _

/-- The tables of a statement give the frames of its query. -/
theorem selectOf_joined (db : Dataset) (d : Dialect) {q : Query} (hq : q.Sound) :
    (selectOf d q).joined db = joinedFrames db q :=
  joinRows_joins db q.joins hq.onlyScopes _

/-- The names of the tables of a statement are told apart. -/
theorem selectOf_names (d : Dialect) {q : Query} (hq : q.Sound)
    (haliases : ∀ j ∈ q.joins, j.tableAlias ≠ q.qualifier) :
    (tableNames (selectOf d q).table (selectOf d q).joins).Nodup := by
  show (q.qualifier :: (q.joins.map joinOf).map fun joined => joined.table.name).Nodup
  rw [List.map_map, List.nodup_cons]
  refine ⟨fun hmem => ?_, hq.aliases⟩
  obtain ⟨j, hj, hname⟩ := List.mem_map.mp hmem
  exact haliases j hj hname

/-- The table of a query keeps its row in every frame, whatever is joined. -/
theorem joinedFrames_row? (db : Dataset) {q : Query}
    (haliases : ∀ j ∈ q.joins, j.tableAlias ≠ q.qualifier) :
    ∀ frame ∈ joinedFrames db q, ∃ row, frame.row? q.qualifier = some row := by
  have hrun : ∀ (joins : List Join) (frames : List Frame),
      (∀ j ∈ joins, j.tableAlias ≠ q.qualifier) →
      (∀ frame ∈ frames, ∃ row, frame.row? q.qualifier = some row) →
      ∀ frame ∈ joins.foldl (fun frames join => frames.flatMap (joinFrame db join)) frames,
        ∃ row, frame.row? q.qualifier = some row := by
    intro joins
    induction joins with
    | nil => exact fun _ _ hframes => hframes
    | cons j joins ih =>
      intro frames hne hframes
      refine ih _ (fun j' hj' => hne j' (List.mem_cons_of_mem j hj')) fun frame hframe => ?_
      obtain ⟨outer, houter, hmem⟩ := List.mem_flatMap.mp hframe
      obtain ⟨row, hrow⟩ := hframes outer houter
      obtain ⟨joined, rfl⟩ : ∃ joined, frame = (j.tableAlias, joined) :: outer := by
        unfold joinFrame at hmem
        simp only at hmem
        split at hmem
        · exact ⟨none, List.mem_singleton.mp hmem⟩
        · obtain ⟨r, -, rfl⟩ := List.mem_map.mp (List.mem_filter.mp hmem).1
          exact ⟨some r, rfl⟩
      exact ⟨row, (Frame.row?_cons_of_ne _ _ (hne j List.mem_cons_self)).trans hrow⟩
  refine hrun q.joins _ haliases fun frame hframe => ?_
  obtain ⟨row, -, rfl⟩ := List.mem_map.mp hframe
  exact ⟨row, Frame.row?_cons_self ..⟩

/-! ## Links -/

/-- The pivot table of a link, if there is one. -/
def pivotTable? (link : Link) : Option String :=
  match link.kind with
  | .direct _ _ => none
  | .pivot table _ _ _ _ _ => some table

/-- Whether the pivot table of a link, if there is one, has another name than the tables that it
links. -/
def PivotApart (link : Link) : Prop :=
  ∀ table ∈ pivotTable? link, table ≠ link.parent ∧ table ≠ link.related

instance (link : Link) : Decidable (PivotApart link) :=
  inferInstanceAs (Decidable (∀ table ∈ pivotTable? link, _))

/-- The rows of the tables of a sub-query inside others for which the conditions of its link are
true. -/
def linkRows (db : Dataset) (env : Frame) (asked : Link × Query) : List Frame :=
  ((subqueryOf asked.1 asked.2).joined db env).filter fun env =>
    (linkFormulas asked.1).all (Formula.holds db env)

/-- Whether a row of the pivot table of a link belongs to a parent row. -/
def ownedBy (parentPivotColumn parentColumn : String) (morph : Option MorphConstraint) (parent : Row)
    (pivot : Row) : Bool :=
  hasKey parentPivotColumn (parent.value parentColumn) pivot &&
    (match morph with
      | some m => hasKey m.column (.text m.value) pivot
      | none => true)

theorem map_filter_const {α β : Type} (p : β → Bool) (a : α) (m : List β) :
    ((m.filter p).map fun _ => a) = m.flatMap fun b => if p b then [a] else [] := by
  induction m with
  | nil => rfl
  | cons b m ih =>
    rw [List.filter_cons, List.flatMap_cons, ← ih]
    split <;> rfl

/-- Values once for every partner, in the order of the values or in that of their partners. -/
theorem flatMap_partners_perm {α β : Type} (c : α → β → Bool) (l : List α) (m : List β) :
    (l.flatMap fun a => (m.filter fun b => c a b).map fun _ => a).Perm
      (m.flatMap fun b => l.filter fun a => c a b) := by
  induction l with
  | nil => simp
  | cons a l ih =>
    have hsplit : ∀ b, (a :: l).filter (fun a => c a b) =
        (if c a b then [a] else []) ++ l.filter fun a => c a b := by
      intro b
      rw [List.filter_cons]
      split <;> rfl
    simp only [List.flatMap_cons, hsplit, map_filter_const] at ih ⊢
    exact (ih.append_left _).trans (List.flatMap_append_perm m _ _)

theorem linkedRows_pivot (db : Dataset) {link : Link} (parent : Row)
    {table parentPivotColumn relatedPivotColumn parentColumn relatedColumn : String}
    {morph : Option MorphConstraint}
    (hkind : link.kind =
      .pivot table parentPivotColumn relatedPivotColumn parentColumn relatedColumn morph) :
    linkedRows db link parent =
      ((db.rows table).filter (ownedBy parentPivotColumn parentColumn morph parent)).flatMap
        fun pivot => (db.rows link.relatedTable).filter
          (hasKey relatedColumn (Row.value pivot relatedPivotColumn)) := by
  unfold linkedRows
  rw [hkind]
  rfl

section
variable (db : Dataset) {env : Frame} {link : Link} {sub : Query} {parent : Row}
  (htable : link.relatedTable = sub.entity.table) (hrelated : link.related = sub.qualifier)
  (hne : sub.qualifier ≠ link.parent) (hparent : env.row? link.parent = some parent)

include htable in
theorem subqueryOf_name : (subqueryOf link sub).table.name = sub.qualifier := by
  rw [subqueryOf_eq]
  show sub.tableAlias.getD link.relatedTable = sub.tableAlias.getD sub.entity.table
  rw [htable]

include htable hrelated in
/-- The tables of a sub-query are told apart. -/
theorem subqueryOf_names (hpivot : PivotApart link) :
    (tableNames (subqueryOf link sub).table (subqueryOf link sub).joins).Nodup := by
  have hnames : tableNames (subqueryOf link sub).table (subqueryOf link sub).joins =
      sub.qualifier :: (pivotTable? link).toList := by
    unfold tableNames
    rw [subqueryOf_name htable, subqueryOf_eq, linkJoins, pivotTable?]
    cases link.kind <;> rfl
  rw [hnames]
  cases hkind : pivotTable? link with
  | none => simp
  | some table => simp [← hrelated, (hpivot table hkind).2.symm]

include htable in
theorem subqueryOf_joined :
    (subqueryOf link sub).joined db env =
      joinRows db ((db.rows link.relatedTable).map fun row => (sub.qualifier, some row) :: env)
        (linkJoins link) := by
  unfold Subquery.joined
  rw [subqueryOf_name htable, subqueryOf_eq]
  rfl

include htable hrelated hne hparent

/-- The rows of a direct link: its condition compares with the key of the parent row. -/
theorem linkRows_direct {parentColumn relatedColumn : String}
    (hkind : link.kind = .direct parentColumn relatedColumn) :
    linkRows db env (link, sub) =
      (linkedRows db link parent).map fun row => (sub.qualifier, some row) :: env := by
  have hkeys : ∀ row, columnsEqual ((sub.qualifier, some row) :: env)
      (.field sub.qualifier relatedColumn) (.field link.parent parentColumn) =
        hasKey relatedColumn (parent.value parentColumn) row := fun row =>
    columnsEqual_rows (Frame.row?_cons_self ..) ((Frame.row?_cons_of_ne _ _ hne).trans hparent) ..
  unfold linkRows linkedRows
  rw [subqueryOf_joined db htable, linkJoins, linkFormulas, hkind, hrelated]
  simp only [joinRows, List.filter_map, List.all_cons, List.all_nil, Bool.and_true, Formula.holds,
    Function.comp_def, hkeys]

/-- The rows of a link through a pivot: a related row for every row of the pivot that leads from the
parent row to it. -/
theorem linkRows_pivot {table parentPivotColumn relatedPivotColumn parentColumn relatedColumn : String}
    {morph : Option MorphConstraint}
    (hkind : link.kind =
      .pivot table parentPivotColumn relatedPivotColumn parentColumn relatedColumn morph)
    (hpivot : table ≠ link.parent) (hpivot' : table ≠ link.related) :
    linkRows db env (link, sub) =
      (db.rows link.relatedTable).flatMap fun row =>
        (((db.rows table).filter (ownedBy parentPivotColumn parentColumn morph parent)).filter
          fun pivot => hasKey relatedColumn (pivot.value relatedPivotColumn) row).map
            fun pivot => (table, some pivot) :: (sub.qualifier, some row) :: env := by
  have hsub : ∀ row pivot, Frame.row? ((table, some pivot) :: (sub.qualifier, some row) :: env)
      link.related = some row := fun row pivot =>
    (Frame.row?_cons_of_ne _ _ hpivot').trans (hrelated ▸ Frame.row?_cons_self ..)
  have hon : ∀ row pivot, columnsEqual ((table, some pivot) :: (sub.qualifier, some row) :: env)
      (.field link.related relatedColumn) (.field table relatedPivotColumn) =
        hasKey relatedColumn (pivot.value relatedPivotColumn) row := fun row pivot =>
    columnsEqual_rows (hsub row pivot) (Frame.row?_cons_self ..) ..
  have howned : ∀ row pivot,
      (linkFormulas link).all (Formula.holds db ((table, some pivot) :: (sub.qualifier, some row) :: env)) =
        ownedBy parentPivotColumn parentColumn morph parent pivot := by
    intro row pivot
    have houter : Frame.row? ((table, some pivot) :: (sub.qualifier, some row) :: env) link.parent =
        some parent :=
      (Frame.row?_cons_of_ne _ _ hpivot).trans ((Frame.row?_cons_of_ne _ _ hne).trans hparent)
    have hkey := columnsEqual_rows (Frame.row?_cons_self ..) houter parentPivotColumn parentColumn
    have hmorph : ∀ m : MorphConstraint,
        testHolds ((table, some pivot) :: (sub.qualifier, some row) :: env)
          (.compare (.field table m.column) .eq (.text m.value)) =
            hasKey m.column (.text m.value) pivot := by
      intro m
      rw [testHolds_equal, hasKey_eq, Value.equals_comm, read_field (Frame.row?_cons_self ..)]
      rfl
    rw [linkFormulas, hkind]
    unfold ownedBy
    simp only [List.all_cons, Formula.holds, hkey]
    cases morph with
    | none => rfl
    | some m => simp only [List.all_cons, List.all_nil, Bool.and_true, Formula.holds, hmorph]
  unfold linkRows
  rw [subqueryOf_joined db htable, linkJoins, hkind]
  rw [joinRows_cons, joinRows, List.flatMap_map, List.filter_flatMap]
  refine List.flatMap_congr fun row _ => ?_
  simp only [extend_inner, List.filter_map, Function.comp_def, Formula.holds, hon, howned,
    List.filter_filter]
  exact congrArg _ (List.filter_congr fun pivot _ => Bool.and_comm ..)

variable (hpivot : PivotApart link)

include hpivot

/-- The tables of a sub-query hide the parent of its link nowhere. -/
theorem linkRows_unhidden :
    ∀ inner ∈ linkRows db env (link, sub), inner.row? link.parent = env.row? link.parent := by
  intro inner hinner
  cases hkind : link.kind with
  | direct parentColumn relatedColumn =>
    rw [linkRows_direct db htable hrelated hne hparent hkind] at hinner
    obtain ⟨row, -, rfl⟩ := List.mem_map.mp hinner
    exact Frame.row?_cons_of_ne env _ hne
  | pivot table parentPivotColumn relatedPivotColumn parentColumn relatedColumn morph =>
    obtain ⟨houter, hsub⟩ := hpivot table (by rw [pivotTable?, hkind]; rfl)
    rw [linkRows_pivot db htable hrelated hne hparent hkind houter hsub] at hinner
    obtain ⟨row, -, hmem⟩ := List.mem_flatMap.mp hinner
    obtain ⟨pivot, -, rfl⟩ := List.mem_map.mp hmem
    exact (Frame.row?_cons_of_ne _ _ houter).trans (Frame.row?_cons_of_ne env _ hne)

/-- The rows of a sub-query for which the conditions of its link are true are those that the link
relates, each as often; through a pivot they come in another order. -/
theorem linkRows_related :
    ((linkRows db env (link, sub)).map fun inner => inner.row? sub.qualifier).Perm
      ((linkedRows db link parent).map some) := by
  cases hkind : link.kind with
  | direct parentColumn relatedColumn =>
    rw [linkRows_direct db htable hrelated hne hparent hkind, List.map_map]
    exact .of_eq (List.map_congr_left fun row _ => Frame.row?_cons_self ..)
  | pivot table parentPivotColumn relatedPivotColumn parentColumn relatedColumn morph =>
    obtain ⟨houter, hsub⟩ := hpivot table (by rw [pivotTable?, hkind]; rfl)
    have hbound : ∀ row pivot, Frame.row?
        ((table, some pivot) :: (sub.qualifier, some row) :: env) sub.qualifier = some row :=
      fun row pivot => (Frame.row?_cons_of_ne _ _ (hrelated ▸ hsub)).trans (Frame.row?_cons_self ..)
    have hpairs := flatMap_partners_perm
      (fun row pivot => hasKey relatedColumn (Row.value pivot relatedPivotColumn) row)
      (db.rows link.relatedTable)
      ((db.rows table).filter (ownedBy parentPivotColumn parentColumn morph parent))
    rw [linkRows_pivot db htable hrelated hne hparent hkind houter hsub,
      linkedRows_pivot db parent hkind]
    refine .trans (.of_eq ?_) (hpairs.map some)
    simp only [List.map_flatMap, List.map_map, Function.comp_def, hbound]

end

/-! ## Questions at every depth -/

theorem queryAsks_eq (q : Query) : queryAsks q = clausesAsk q.clauses := by
  cases q
  rfl

mutual

/-- What a predicate asks at every depth: its questions, each with what its query asks. -/
theorem predicateAsks_eq : (p : Predicate) →
    predicateAsks p = (predicateQuestions p).flatMap fun asked => asked :: queryAsks asked.2
  | .test _ | .const _ => by
    rw [predicateAsks, predicateQuestions]
    rfl
  | .nested clauses => by
    rw [predicateAsks, predicateQuestions, clausesAsk_eq clauses]
  | .related _ _ _ | .counted _ _ _ _ => by
    rw [predicateAsks, predicateQuestions]
    exact (List.flatMap_singleton ..).symm

theorem clausesAsk_eq : (clauses : List Clause) →
    clausesAsk clauses = (clausesQuestions clauses).flatMap fun asked => asked :: queryAsks asked.2
  | [] => by
    rw [clausesAsk, clausesQuestions]
    rfl
  | ⟨_, p⟩ :: rest => by
    rw [clausesAsk, clausesQuestions, List.flatMap_append, predicateAsks_eq p, clausesAsk_eq rest]

end

/-! ## Rows around sub-queries -/

/-- Rows that a sub-query lies inside of: the names that the text binds around it, the frame that the
engine asks in, and the questions asked there. -/
inductive Encloses (db : Dataset) (q : Query) : Frame → Frame → List (Link × Query) → Prop where
  | root {frame : Frame} :
      frame ∈ joinedFrames db q → Encloses db q frame frame q.questions
  | inner {env frame env' : Frame} {asks : List (Link × Query)} {asked : Link × Query} {row : Row} :
      Encloses db q env frame asks → asked ∈ asks → env' ∈ linkRows db env asked →
      env'.row? asked.2.qualifier = some row →
      Encloses db q env' ((asked.2.qualifier, some row) :: frame) (clausesQuestions asked.2.clauses)

/-- The sub-queries of questions, each before those inside it. -/
def bodiesOf (asks : List (Link × Query)) : List Subquery :=
  asks.flatMap fun asked => subqueryOf asked.1 asked.2 :: (subqueryOf asked.1 asked.2).bodies

/-- Whether a sub-query stands for the rows that its question is about. -/
structure SameRows (db : Dataset) (env frame : Frame) (link : Link) (sub : Query) : Prop where
  /-- The tables of the sub-query are told apart. -/
  names : (tableNames (subqueryOf link sub).table (subqueryOf link sub).joins).Nodup
  /-- The parent of the link is the same row in the text and in the frame. -/
  parent : ∃ row, env.row? link.parent = some row ∧ frame.row? link.parent = some row
  /-- The tables of the sub-query hide the parent of its link nowhere. -/
  unhidden : ∀ inner ∈ linkRows db env (link, sub), inner.row? link.parent = env.row? link.parent
  /-- The conditions of the link leave the rows that the link relates, each as often. -/
  related : ((linkRows db env (link, sub)).map fun inner => inner.row? sub.qualifier).Perm
    ((candidates db frame link).map some)
  /-- Of these rows the sub-query has those that satisfy the scopes and clauses of its query. -/
  rows : (subqueryOf link sub).rows db env =
    (linkRows db env (link, sub)).filter fun inner => queryValue (truths db inner).answers sub
  /-- Inside it are the sub-queries of the questions that its query asks. -/
  inside : (subqueryOf link sub).bodies = bodiesOf (clausesQuestions sub.clauses)

theorem subqueriesOf_asks (asks : List (Link × Query)) :
    subqueriesOf (asks.flatMap fun asked => asked :: queryAsks asked.2) = bodiesOf asks := by
  unfold bodiesOf subqueriesOf
  rw [List.map_flatMap]
  refine List.flatMap_congr fun asked _ => ?_
  rw [List.map_cons, subqueryOf_bodies]
  rfl

theorem subqueryOf_rows (db : Dataset) (env : Frame) (link : Link) (sub : Query) :
    (subqueryOf link sub).rows db env =
      (linkRows db env (link, sub)).filter fun inner => queryValue (truths db inner).answers sub := by
  have hcondition : ∀ inner, (subqueryOf link sub).condition.holds db inner =
      ((linkFormulas link).all (Formula.holds db inner) &&
        queryValue (truths db inner).answers sub) := by
    intro inner
    rw [Formula.holds_eq_value, subqueryOf_agrees (v := truths db inner) link sub]
    congr 2
    exact funext fun f => (f.holds_eq_value db inner).symm
  unfold linkRows
  rw [Subquery.rows_eq, List.filter_filter]
  exact List.filter_congr fun inner _ => (hcondition inner).trans (Bool.and_comm ..)

/-- A sub-query stands for the rows of its question wherever the parent of its link means the same
row in the text and in the frame. -/
theorem sameRows {db : Dataset} {env frame : Frame} {link : Link} {sub : Query} {parent : Row}
    (hcorrelated : Correlated link.parent (link, sub)) (hpivot : PivotApart link)
    (henv : env.row? link.parent = some parent) (hframe : frame.row? link.parent = some parent) :
    SameRows db env frame link sub := by
  obtain ⟨-, htable, hrelated, hne, -⟩ := hcorrelated
  have hcandidates : candidates db frame link = linkedRows db link parent := by
    unfold candidates
    rw [hframe]
  exact {
    names := subqueryOf_names htable hrelated hpivot
    parent := ⟨parent, henv, hframe⟩
    unhidden := linkRows_unhidden db htable hrelated hne henv hpivot
    related := hcandidates ▸ linkRows_related db htable hrelated hne henv hpivot
    rows := subqueryOf_rows db env link sub
    inside := by rw [subqueryOf_bodies, queryAsks_eq, clausesAsk_eq, subqueriesOf_asks] }

/-! ## Every depth -/

/-- What a query asks at every depth; its joins ask nothing. -/
theorem selectAsks_eq {q : Query} (hq : q.Sound) :
    selectAsks q = q.questions.flatMap fun asked => asked :: queryAsks asked.2 := by
  have hjoins : (q.joins.flatMap fun j => j.conditions.flatMap predicateAsks) = [] := by
    rw [List.flatMap_eq_nil_iff]
    intro j hj
    rw [List.flatMap_eq_nil_iff]
    intro p hp
    obtain ⟨scope, entity, qualifier, rfl⟩ := hq.onlyScopes j hj p hp
    rw [predicateAsks]
  unfold selectAsks Query.questions
  rw [hjoins, List.append_nil, queryAsks_eq, clausesAsk_eq, List.flatMap_append, List.flatMap_map]

section
variable {db : Dataset} {q : Query} (hq : q.Sound)
  (haliases : ∀ j ∈ q.joins, j.tableAlias ≠ q.qualifier)

include hq haliases

/-- Around a sub-query the parent of its link means the same row in the text and in the frame,
whatever lies in between: induction over the sub-queries that enclose it. -/
theorem Encloses.asked {env frame : Frame} {asks : List (Link × Query)}
    (h : Encloses db q env frame asks) :
    ∃ qualifier row, env.row? qualifier = some row ∧ frame.row? qualifier = some row ∧
      ∀ asked ∈ asks, Correlated qualifier asked ∧
        ∀ inside ∈ asked :: queryAsks asked.2, inside ∈ selectAsks q := by
  induction h with
  | @root frame hframe =>
    obtain ⟨row, hrow⟩ := joinedFrames_row? db haliases frame hframe
    refine ⟨q.qualifier, row, hrow, hrow, fun asked hasked => ?_⟩
    refine ⟨hq.correlated asked hasked, fun inside hinside => ?_⟩
    rw [selectAsks_eq hq]
    exact List.mem_flatMap.mpr ⟨asked, hasked, hinside⟩
  | @inner env frame env' asks asked row _ hasked _ hrow ih =>
    obtain ⟨qualifier, -, -, -, hasks⟩ := ih
    obtain ⟨hcorrelated, hinside⟩ := hasks asked hasked
    obtain ⟨-, -, -, -, hquestions⟩ := hcorrelated
    refine ⟨_, row, hrow, Frame.row?_cons_self .., fun question hquestion => ?_⟩
    refine ⟨hquestions question hquestion, fun inside hmem => hinside inside ?_⟩
    rw [queryAsks_eq, clausesAsk_eq]
    exact List.mem_cons_of_mem _ (List.mem_flatMap.mpr ⟨question, hquestion, hmem⟩)

end

/-- Joins and sub-queries of a text stand for the rows of the engine.  The tables of a statement give
the frames of its query in order, under names that are told apart.  Inside any rows that enclose it a
sub-query stands for the rows that the engine relates to the frame of these rows. -/
theorem rendered_rows (registry : Registry) (d : Dialect) (db : Dataset) (q : Query)
    (hbuilt : Built registry q) (hpivots : ∀ asked ∈ selectAsks q, PivotApart asked.1)
    (haliases : ∀ j ∈ q.joins, j.tableAlias ≠ q.qualifier) :
    (∀ r, renderSelect d q = .ok r → ∃ s, readSelect d r = some s ∧
      (tableNames s.table s.joins).Nodup ∧ s.joined db = joinedFrames db q ∧
      matchingFrames db q = (s.joined db).filter (fun frame => queryHolds db frame q) ∧
      s.bodies = bodiesOf q.questions) ∧
    (∀ r, renderCondition d q = .ok r → ∃ f, readCondition d r = some f ∧
      f.bodies = bodiesOf (clausesQuestions q.clauses)) ∧
    ∀ env frame asks, Encloses db q env frame asks →
      ∀ asked ∈ asks, SameRows db env frame asked.1 asked.2 := by
  have hq := hbuilt.sound
  refine ⟨fun r hr => ?_, fun r hr => ?_, fun env frame asks hencloses asked hasked => ?_⟩
  · refine ⟨selectOf d q, readSelect_rendered hr, selectOf_names d hq haliases,
      selectOf_joined db d hq, ?_, ?_⟩
    · rw [selectOf_joined db d hq]
      rfl
    · rw [selectOf_bodies, selectAsks_eq hq, subqueriesOf_asks]
  · refine ⟨formulaOf q, readCondition_rendered hr, ?_⟩
    rw [formulaOf_bodies, queryAsks_eq, clausesAsk_eq, subqueriesOf_asks]
  · obtain ⟨qualifier, row, henv, hframe, hasks⟩ := hencloses.asked hq haliases
    obtain ⟨hcorrelated, hinside⟩ := hasks asked hasked
    have hpivot := hpivots asked (hinside asked List.mem_cons_self)
    obtain ⟨link, sub⟩ := asked
    obtain rfl : link.parent = qualifier := by
      cases hcorrelated
      assumption
    exact sameRows hcorrelated hpivot henv hframe

/-! ## A sample -/

theorem Sample.query_built : Built Sample.registry Sample.query := by
  have hbuilt : Sample.built = .ok Sample.query := rfl
  unfold Sample.built at hbuilt
  obtain ⟨⟨company, joined⟩, hjoin, hbuilt⟩ := bind_eq_ok hbuilt
  obtain ⟨⟨name, counted⟩, hcount, hbuilt⟩ := bind_eq_ok hbuilt
  obtain ⟨⟨link, tags⟩, hlink, hbuilt⟩ := bind_eq_ok hbuilt
  have hquery := Except.ok.inj hbuilt
  rw [← hquery]
  have hcounted : Builds Sample.registry (Query.ofEntity Sample.deal) counted :=
    ((Builds.start _).join hjoin).of_aggregate hcount
  have htags : Builds Sample.registry tags (tags.addComparison "name" .eq (.text "hot") .and) :=
    (Builds.start tags).test .and _
  have hrelated := (hcounted.test .and (.null (counted.column "amount") false)).related hlink htags
  exact ⟨_, (hrelated .or false).dress rfl⟩

/-- A deal of a company with a subdeal and, by two rows of the pivot, twice the same tag; one row of
the pivot tags a company. -/
def Sample.rows : Dataset :=
  let tagging (type : String) : Row :=
    [("tag_id", .integer 7), ("taggable_id", .integer 1), ("taggable_type", .text type)]
  ⟨[("companies", [[("id", .integer 5)]]),
    ("deals", [[("company_id", .integer 5), ("id", .integer 1)],
      [("id", .integer 2), ("parent_id", .integer 1)]]),
    ("taggables", [tagging "deal", tagging "company", tagging "deal"]),
    ("tags", [[("id", .integer 7), ("name", .text "hot")]])]⟩

theorem rendered_rows_sample :
    (∃ r s, renderSelect .mysql Sample.query = .ok r ∧ readSelect .mysql r = some s ∧
      s.joined Sample.rows = joinedFrames Sample.rows Sample.query ∧
      s.bodies = bodiesOf Sample.query.questions) ∧
    (∀ frame ∈ joinedFrames Sample.rows Sample.query, ∀ asked ∈ Sample.query.questions,
      SameRows Sample.rows frame frame asked.1 asked.2) ∧
    ∃ frame ∈ joinedFrames Sample.rows Sample.query,
      (Sample.query.questions.map fun asked => (linkRows Sample.rows frame asked).length) = [1, 2] := by
  have hpivots : ∀ asked ∈ selectAsks Sample.query, PivotApart asked.1 := by decide
  have haliases : ∀ j ∈ Sample.query.joins, j.tableAlias ≠ Sample.query.qualifier := by decide
  obtain ⟨hselect, -, hbodies⟩ := rendered_rows Sample.registry .mysql Sample.rows Sample.query
    Sample.query_built hpivots haliases
  refine ⟨?_, fun frame hframe => hbodies frame frame _ (.root hframe), ?_⟩
  · obtain ⟨r, hr⟩ : ∃ r, renderSelect .mysql Sample.query = .ok r := ⟨_, rfl⟩
    obtain ⟨s, hread, -, hjoined, -, hinside⟩ := hselect r hr
    exact ⟨r, s, hr, hread, hjoined, hinside⟩
  · exact ⟨_, List.mem_cons_self, rfl⟩

end Winnow.Sql
