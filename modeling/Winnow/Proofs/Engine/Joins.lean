import Winnow.Engine.Execute
import Winnow.Proofs.Engine.Related
import Winnow.Proofs.Query.Building

/-!
# Joins along to-one relations

A frame is extended by a joined relation with the visible rows that the
relation leads to (`joinFrame_eq`).  When these are never more than one, joining
paths of relations keeps one frame for every row of the table, in order, in
which the alias of a joined path is bound to the row that the path reaches
(`Tracks`).  One more relation keeps this (`Tracks.addJoin`), so joining all
targets of a rule tree does (`joinAll_tracks`).
-/

namespace Winnow

/-! ## Equal values -/

namespace Value

theorem text_swap (a b : String) : (compareOfLessAndEq a b).swap = compareOfLessAndEq b a :=
  (compareOfLessAndEq_eq_swap String.le_antisymm String.le_total String.not_le).symm

theorem instant_swap (a b : Instant) : (a.order b).swap = b.order a := by
  unfold Instant.order
  rw [← Int.compare_swap a.seconds b.seconds, ← Nat.compare_swap a.nanos b.nanos]
  cases compare a.seconds b.seconds <;> rfl

theorem decimal_swap (a b : Decimal) : (a.compare? b).map Ordering.swap = b.compare? a := by
  unfold Decimal.compare?
  rw [Bool.or_comm b.isNaN a.isNaN]
  split
  · rfl
  · rw [Option.map_some, Int.compare_swap]

/-- Two values compare one way as they compare the other. -/
theorem compare?_swap (a b : Value) : (a.compare? b).map Ordering.swap = b.compare? a := by
  cases a <;> cases b <;>
    first
    | rfl
    | exact congrArg some (Int.compare_swap _ _)
    | exact congrArg some (text_swap _ _)
    | exact congrArg some (instant_swap _ _)
    | exact decimal_swap _ _

theorem equals_comm (a b : Value) : a.equals b = b.equals a := by
  unfold equals
  rw [← compare?_swap a b]
  rcases a.compare? b with _ | _ | _ | _ <;> rfl

theorem null_equals (v : Value) : Value.null.equals v = false := by
  cases v <;> rfl

end Value

namespace Engine

open Condition

theorem hasKey_eq (column : String) (key : Value) (row : Row) :
    hasKey column key row = key.equals (row.value column) := by
  unfold hasKey Row.value
  cases row.get? column with
  | none =>
    rw [Value.equals_comm]
    exact (Value.null_equals key).symm
  | some v => exact Value.equals_comm v key

/-! ## One join -/

theorem linkKind_of_isToOne {found : Relation} (h : found.isToOne = true) :
    ∃ parentColumn relatedColumn, found.kind.linkKind = .direct parentColumn relatedColumn := by
  unfold Relation.isToOne at h
  cases hkind : found.kind <;> rw [hkind] at h
  case belongsTo foreignKey ownerKey => exact ⟨foreignKey, ownerKey, rfl⟩
  case hasOne foreignKey localKey => exact ⟨localKey, foreignKey, rfl⟩
  all_goals cases h

section
variable (db : Dataset) (found : Relation) (related : Entity) (relation : String)

/-- A frame is extended with the visible rows that the relation leads to; without any it stays, and
the alias is bound to no row. -/
theorem joinFrame_eq (hfound : found.isToOne = true) (frame : Frame) (parent tableAlias : String)
    (hne : parent ≠ tableAlias) :
    ∃ join, Query.relationJoin found related relation parent tableAlias = some join ∧
      join.tableAlias = tableAlias ∧
      joinFrame db join frame =
        match (frame.row? parent).toList.flatMap (reachedBy db found related) with
        | [] => [(tableAlias, none) :: frame]
        | rows => rows.map fun r => (tableAlias, some r) :: frame := by
  obtain ⟨parentColumn, relatedColumn, hkind⟩ := linkKind_of_isToOne hfound
  have hlink : ∀ n p t r, (found.link n p t r).kind = .direct parentColumn relatedColumn :=
    fun _ _ _ _ => hkind
  unfold Query.relationJoin
  rw [hlink]
  refine ⟨_, rfl, rfl, ?_⟩
  -- a joined row belongs to the frame when the relation leads to it and its scopes show it
  have hholds : ∀ r, joinHolds db ((tableAlias, some r) :: frame) {
      kind := .left, table := related.table, tableAlias := tableAlias
      first := .field parent parentColumn, second := .field tableAlias relatedColumn
      conditions := related.scopes.map fun scope => .test (scope.test related tableAlias) } =
        ((fieldOf parentColumn (frame.row? parent)).equals (r.value relatedColumn) &&
          related.shows r) := by
    intro r
    have hscopes : (related.scopes.map fun scope =>
        Predicate.test (scope.test related tableAlias)).all
          (predicateHolds db ((tableAlias, some r) :: frame)) = related.shows r := by
      rw [List.all_map]
      exact congrArg related.scopes.all (funext fun scope =>
        (predicateHolds.eq_1 ..).trans (testHolds_scope (Frame.row?_cons_self ..) scope related))
    unfold joinHolds
    rw [hscopes, read_field (Frame.row?_cons_self ..),
      read_field (Frame.row?_cons_of_ne frame (some r) (Ne.symm hne))]
    rfl
  have hrows : ((db.rows related.table).filter fun r =>
      (fieldOf parentColumn (frame.row? parent)).equals (r.value relatedColumn) &&
        related.shows r) = (frame.row? parent).toList.flatMap (reachedBy db found related) := by
    cases frame.row? parent with
    | none => simp [fieldOf, Value.null_equals]
    | some row =>
      simp only [Option.toList_some, List.flatMap_singleton, reachedBy, linkedRows, hlink,
        List.filter_filter, hasKey_eq, fieldOf]
      exact congrArg (List.filter · _) (funext fun r => Bool.and_comm ..)
  unfold joinFrame
  simp only [List.filter_map, Function.comp_def, hholds, hrows]
  cases (frame.row? parent).toList.flatMap (reachedBy db found related) <;> simp

end

theorem joinedFrames_append (db : Dataset) (q : Query) (join : Join) :
    joinedFrames db (q.withJoins (q.joins ++ [join])) =
      (joinedFrames db q).flatMap (joinFrame db join) := by
  show List.foldl _ _ (q.joins ++ [join]) = _
  rw [List.foldl_append]
  rfl

/-! ## Joined paths -/

/-- A query with joins along some paths of relations: one frame for every row of its table, in
order, in which the table is bound to the row and the alias of each path to what the path
reaches. -/
structure Tracks (db : Dataset) (registry : Registry) (q : Query) (paths : List (List String)) :
    Prop where
  hasJoin_iff : ∀ a, q.hasJoin a = true ↔ ∃ path ∈ paths, Text.join "_" path = a
  frames : ∃ frameOf : Row → Frame,
    joinedFrames db q = (db.rows q.entity.table).map frameOf ∧
      ∀ row ∈ db.rows q.entity.table, (frameOf row).row? q.qualifier = some row ∧
        ∀ path ∈ paths, (frameOf row).row? (Text.join "_" path) =
          (reached db registry q.entity path row).head?

/-- Whether joining some paths never confuses two of them: their aliases are told apart, and none
is the name that the table is read under. -/
def AliasesApart (qualifier : String) (allowed : List String → Prop) : Prop :=
  ∀ path, allowed path → Text.join "_" path ≠ qualifier ∧
    ∀ other, allowed other → Text.join "_" path = Text.join "_" other → path = other

section
variable {db : Dataset} {registry : Registry}

theorem Tracks.nil {q : Query} (h : q.joins = []) : Tracks db registry q [] := by
  refine ⟨fun a => by simp [Query.hasJoin, h], fun row => [(q.qualifier, some row)], ?_, ?_⟩
  · unfold joinedFrames
    rw [h]
    rfl
  · exact fun row _ => ⟨Frame.row?_cons_self .., by simp⟩

theorem flatMap_eq_map {α β : Type} {l : List α} {g : α → List β} {f : α → β}
    (h : ∀ a ∈ l, g a = [f a]) : l.flatMap g = l.map f := by
  induction l with
  | nil => rfl
  | cons a l ih =>
    rw [List.flatMap_cons, List.map_cons, h a List.mem_cons_self,
      ih fun b hb => h b (List.mem_cons_of_mem a hb)]
    rfl

theorem toList_head?_of_length_le {α : Type} {l : List α} (h : l.length ≤ 1) :
    l.head?.toList = l := by
  rcases l with _ | ⟨a, _ | ⟨b, rest⟩⟩
  · rfl
  · rfl
  · simp at h

/-- A join that binds its alias to what a path reaches, once for every frame, is tracked. -/
theorem Tracks.append {q : Query} {paths : List (List String)} (h : Tracks db registry q paths)
    {join : Join} {path : List String} (halias : join.tableAlias = Text.join "_" path)
    (hqualifier : Text.join "_" path ≠ q.qualifier)
    (hapart : ∀ other ∈ paths, Text.join "_" path = Text.join "_" other → path = other)
    (hframe : ∀ row ∈ db.rows q.entity.table, ∀ frame : Frame,
      frame.row? q.qualifier = some row →
      (∀ other ∈ paths, frame.row? (Text.join "_" other) =
        (reached db registry q.entity other row).head?) →
      joinFrame db join frame =
        [(Text.join "_" path, (reached db registry q.entity path row).head?) :: frame]) :
    Tracks db registry (q.withJoins (q.joins ++ [join])) (path :: paths) := by
  obtain ⟨frameOf, hframes, hrows⟩ := h.frames
  refine ⟨fun a => ?_, fun row =>
    (Text.join "_" path, (reached db registry q.entity path row).head?) :: frameOf row, ?_, ?_⟩
  · have hold := h.hasJoin_iff a
    unfold Query.hasJoin at hold ⊢
    show (q.joins ++ [join]).any _ = true ↔ _
    simp only [List.any_append, Bool.or_eq_true, hold, List.any_cons, List.any_nil, Bool.or_false,
      beq_iff_eq, halias, List.mem_cons, or_and_right, exists_or, exists_eq_left, or_comm]
  · rw [joinedFrames_append, hframes, List.flatMap_map]
    exact flatMap_eq_map fun row hrow =>
      hframe row hrow (frameOf row) (hrows row hrow).1 (hrows row hrow).2
  · intro row hrow
    obtain ⟨hroot, hpaths⟩ := hrows row hrow
    refine ⟨(Frame.row?_cons_of_ne _ _ hqualifier).trans hroot, fun other hmem => ?_⟩
    by_cases hother : other = path
    · rw [hother]
      exact Frame.row?_cons_self ..
    · have hmem : other ∈ paths := (List.mem_cons.mp hmem).resolve_left hother
      have hdiffers : Text.join "_" path ≠ Text.join "_" other :=
        fun heq => hother (hapart other hmem heq).symm
      exact (Frame.row?_cons_of_ne _ _ hdiffers).trans (hpaths other hmem)

/-- The relations walked so far, and the alias that they are joined under. -/
def IsParent (q : Query) (paths : List (List String)) (walked : List String) (parent : String) :
    Prop :=
  walked = [] ∧ parent = q.qualifier ∨ walked ∈ paths ∧ parent = Text.join "_" walked

theorem IsParent.row? {q : Query} {paths : List (List String)} {walked : List String}
    {parent : String} (h : IsParent q paths walked parent) {frame : Frame} {row : Row}
    (hrow : frame.row? q.qualifier = some row)
    (hpaths : ∀ path ∈ paths, frame.row? (Text.join "_" path) =
      (reached db registry q.entity path row).head?) :
    frame.row? parent = (reached db registry q.entity walked row).head? := by
  rcases h with ⟨rfl, rfl⟩ | ⟨hwalked, rfl⟩
  · exact hrow
  · exact hpaths walked hwalked

theorem IsParent.ne {q : Query} {paths : List (List String)} {walked : List String}
    {parent : String} (h : IsParent q paths walked parent) {allowed : List String → Prop}
    (hapart : AliasesApart q.qualifier allowed) (hallowed : ∀ path ∈ paths, allowed path)
    {relation : String} (hpath : allowed (walked ++ [relation])) :
    parent ≠ Text.join "_" (walked ++ [relation]) := by
  rcases h with ⟨-, rfl⟩ | ⟨hwalked, rfl⟩
  · exact Ne.symm (hapart _ hpath).1
  · intro heq
    have := (hapart walked (hallowed walked hwalked)).2 _ hpath heq
    simp at this

section
variable {q : Query} {paths : List (List String)} (hunique : UniqueToOne db registry q.entity)
  {allowed : List String → Prop} (hapart : AliasesApart q.qualifier allowed)

include hunique hapart

/-- One step: joining one relation more keeps one frame for every row. -/
theorem Tracks.addJoin (h : Tracks db registry q paths) (hallowed : ∀ path ∈ paths, allowed path)
    {walked : List String} {parent : String} (hparent : IsParent q paths walked parent)
    {target related : Entity} {relation : String} {found : Relation}
    (hwalk : registry.walk q.entity walked = .ok target)
    (hrelated : registry.related target relation = .ok (found, related))
    (hfound : found.isToOne = true)
    (htoOne : registry.isToOnePath q.entity (walked ++ [relation]) = true)
    (hpath : allowed (walked ++ [relation])) :
    ∃ join, Query.relationJoin found related relation parent
        (Text.join "_" (walked ++ [relation])) = some join ∧
      ∃ paths', Tracks db registry (q.addJoin join) paths' ∧ walked ++ [relation] ∈ paths' ∧
        (∀ path ∈ paths, path ∈ paths') ∧ ∀ path ∈ paths', allowed path := by
  have hne := hparent.ne hapart hallowed hpath
  obtain ⟨join, hjoin, halias, -⟩ := joinFrame_eq db found related relation hfound [] parent _ hne
  refine ⟨join, hjoin, ?_⟩
  unfold Query.addJoin
  by_cases htaken : q.hasJoin join.tableAlias = true
  · -- only the path itself can have taken the alias
    obtain ⟨path, hmem, hpath'⟩ := (h.hasJoin_iff _).mp htaken
    rw [halias] at hpath'
    cases (hapart path (hallowed path hmem)).2 _ hpath hpath'
    rw [if_pos htaken]
    exact ⟨paths, h, hmem, fun _ hp => hp, hallowed⟩
  · rw [if_neg htaken]
    refine ⟨(walked ++ [relation]) :: paths, ?_, List.mem_cons_self,
      fun _ hp => List.mem_cons_of_mem _ hp, ?_⟩
    · refine h.append halias (hapart _ hpath).1
        (fun other hmem => (hapart _ hpath).2 other (hallowed other hmem)) ?_
      intro row hrow frame hroot hpaths
      obtain ⟨join', hjoin', -, hframe⟩ :=
        joinFrame_eq db found related relation hfound frame parent _ hne
      cases hjoin.symm.trans hjoin'
      have hlength := reached_length_le hunique (.inl rfl) htoOne hrow
      have hwalked :=
        reached_length_le hunique (.inl rfl) (Registry.isToOnePath_of_append htoOne) hrow
      rw [hframe, hparent.row? hroot hpaths, toList_head?_of_length_le hwalked,
        ← reached_append hwalk hrelated]
      revert hlength
      rcases reached db registry q.entity (walked ++ [relation]) row with _ | ⟨r, _ | ⟨r', rest⟩⟩
      · exact fun _ => rfl
      · exact fun _ => rfl
      · intro hlength
        simp at hlength
    · intro path hmem
      rcases List.mem_cons.mp hmem with rfl | hmem
      · exact hpath
      · exact hallowed path hmem

end

/-! ## All joins of a rule tree -/

section
variable {allowed : List String → Prop}

/-- A run along one path: induction on what is left of it, one join at a time. -/
theorem joinFrom_tracks {rest : List String} {q : Query} {paths : List (List String)}
    (hunique : UniqueToOne db registry q.entity) (hapart : AliasesApart q.qualifier allowed)
    (h : Tracks db registry q paths) (hallowed : ∀ path ∈ paths, allowed path)
    {walked : List String} {parent : String} (hparent : IsParent q paths walked parent)
    {target : Entity} (hwalk : registry.walk q.entity walked = .ok target)
    (htoOne : registry.isToOnePath q.entity (walked ++ rest) = true)
    (hstart : ∀ path, path ≠ [] → path <+: walked ++ rest → allowed path) :
    ∃ tableAlias joins paths',
      Query.joinFrom registry walked target parent rest q =
          .ok (tableAlias, q.withJoins joins) ∧
        Tracks db registry (q.withJoins joins) paths' ∧
        (rest ≠ [] → walked ++ rest ∈ paths') ∧ (∀ path ∈ paths, path ∈ paths') ∧
        ∀ path ∈ paths', allowed path := by
  induction rest generalizing q paths walked parent target with
  | nil =>
    refine ⟨parent, q.joins, paths, ?_, ?_, by simp, fun _ hp => hp, hallowed⟩
    · rw [q.withJoins_self]
      rfl
    · rwa [q.withJoins_self]
  | cons relation rest ih =>
    obtain ⟨found, related, hrelated, hfound, -⟩ :=
      Registry.related_of_isToOnePath (Registry.isToOnePath_append hwalk htoOne)
    have hsplit : walked ++ relation :: rest = (walked ++ [relation]) ++ rest := by simp
    rw [hsplit] at htoOne hstart ⊢
    have hstep := h.addJoin hunique hapart hallowed hparent hwalk hrelated hfound
      (Registry.isToOnePath_of_append htoOne) (hstart _ (by simp) (List.prefix_append ..))
    obtain ⟨join, hjoin, paths', hnext, hmem, hkept, hallowed'⟩ := hstep
    obtain ⟨joins, hadd⟩ := q.addJoin_eq_withJoins join
    rw [hadd] at hnext
    obtain ⟨tableAlias, joins', paths'', hfrom, htracks, hend, hkept', hallowed''⟩ :=
      ih (q := q.withJoins joins) hunique hapart hnext hallowed' (.inr ⟨hmem, rfl⟩)
        (Registry.walk_append hwalk hrelated) htoOne hstart
    refine ⟨tableAlias, joins', paths'', ?_, htracks, ?_, fun path hp => hkept' path (hkept path hp),
      hallowed''⟩
    · unfold Query.joinFrom
      simp only [hrelated, hfound, Bool.not_true, Bool.false_eq_true, if_false, hjoin, hadd]
      exact hfrom
    · intro _
      cases rest with
      | nil => exact hkept' _ (by simpa using hmem)
      | cons next rest => exact hend (by simp)

/-- Joining all targets of a rule tree always succeeds and keeps one frame for every row. -/
theorem joinAll_tracks {targets : List JoinTarget} {q : Query} {paths : List (List String)}
    (hunique : UniqueToOne db registry q.entity) (hapart : AliasesApart q.qualifier allowed)
    (h : Tracks db registry q paths) (hallowed : ∀ path ∈ paths, allowed path)
    (htargets : ∀ t ∈ targets, t.relations ≠ [] ∧
      registry.isToOnePath q.entity t.relations = true ∧
        ∀ path, path ≠ [] → path <+: t.relations → allowed path) :
    ∃ joins paths',
      targets.foldlM (fun q t => (q.joinPath registry t.relations).map Prod.snd) q =
          (.ok (q.withJoins joins) : Except CompileError Query) ∧
        Tracks db registry (q.withJoins joins) paths' ∧
        (∀ t ∈ targets, t.relations ∈ paths') ∧ ∀ path ∈ paths, path ∈ paths' := by
  induction targets generalizing q paths with
  | nil =>
    refine ⟨q.joins, paths, ?_, ?_, by simp, fun _ hp => hp⟩
    · rw [q.withJoins_self]
      rfl
    · rwa [q.withJoins_self]
  | cons t targets ih =>
    obtain ⟨hne, htoOne, hstart⟩ := htargets t List.mem_cons_self
    obtain ⟨tableAlias, joins, paths', hfrom, hnext, hend, hkept, hallowed'⟩ :=
      joinFrom_tracks hunique hapart h hallowed (.inl ⟨rfl, rfl⟩) rfl htoOne hstart
    obtain ⟨joins', paths'', hall, htracks, hmem, hkept'⟩ :=
      ih (q := q.withJoins joins) hunique hapart hnext hallowed'
        fun t' ht' => htargets t' (List.mem_cons_of_mem t ht')
    refine ⟨joins', paths'', ?_, htracks, ?_, fun path hp => hkept' path (hkept path hp)⟩
    · rw [List.foldlM_cons]
      unfold Query.joinPath
      rw [hfrom]
      exact hall
    · intro t' ht'
      rcases List.mem_cons.mp ht' with rfl | ht'
      · exact hkept' _ (hend hne)
      · exact hmem t' ht'

end

end

end Engine
end Winnow
