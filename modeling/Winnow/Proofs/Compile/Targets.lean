import Winnow.Compile.Tree
import Winnow.Proofs.Keyed
import Winnow.Proofs.Text.Cutting
import Winnow.Proofs.Engine.Joins
import Winnow.Proofs.Engine.Listing
import Winnow.Proofs.Condition.Tree

/-!
# The joins of a rule tree

Among the paths that rules read, exactly the to-one paths are joined, each under
its own alias (`joinTargets_get?`).  So on a query that joined them all, every
path is read in the way that missing rows are null (`joined_served`).
-/

namespace Winnow.Compile

open Engine Condition

/-! ## Paths of rules -/

/-- The paths that are joined for a tree: the beginnings of the to-one paths of its rules. -/
def IsJoined (filters : FilterSet) (registry : Registry) (e : Entity) (tree : Rule.Tree)
    (path : List String) : Prop :=
  path ≠ [] ∧ ∃ leaf ∈ tree.leaves, ∃ target, leafPath? filters registry e leaf = some target ∧
    registry.isToOnePath e target.relations = true ∧ path <+: target.relations

section
variable {filters : FilterSet} {registry : Registry} {e : Entity}

theorem leafPath?_splits {leaf : Rule.Leaf} {path : FieldPath}
    (h : leafPath? filters registry e leaf = some path) :
    path.isRelated = true ∧ ∃ field, path = registry.splitPath e field := by
  unfold leafPath? at h
  cases hfilter : filters.get? leaf.rule with
  | none => simp [hfilter] at h
  | some filter =>
    have hread : ∀ field, (if (registry.splitPath e field).isRelated = true then
        some (registry.splitPath e field) else none) = some path →
          path.isRelated = true ∧ ∃ field, path = registry.splitPath e field := by
      intro field hfield
      obtain ⟨hrelated, hpath⟩ := Option.ite_none_right_eq_some.mp hfield
      cases hpath
      exact ⟨hrelated, field, rfl⟩
    simp only [hfilter, Option.bind_eq_bind, Option.bind_some, Option.bind_none,
      Option.ite_none_left_eq_some] at h
    obtain ⟨-, h⟩ := h
    by_cases huses : filter.kind.usesOperands = true
    · simp only [huses, if_true, Option.bind_eq_some_iff] at h
      obtain ⟨-, -, operand, -, h⟩ := h
      exact hread operand.value h
    · rw [if_neg huses] at h
      exact hread filter.field h

theorem leafPath?_relations {leaf : Rule.Leaf} {path : FieldPath}
    (h : leafPath? filters registry e leaf = some path) :
    path.relations ≠ [] ∧ ∀ segment ∈ path.relations, '.' ∉ segment.toList := by
  obtain ⟨hrelated, field, rfl⟩ := leafPath?_splits h
  refine ⟨by simpa [FieldPath.isRelated] using hrelated, fun segment hsegment => ?_⟩
  refine Text.not_mem_of_mem_split (s := field) ?_
  rw [registry.split_splitPath e field]
  exact List.mem_append_left _ hsegment

/-! ## Targets -/

/-- The target of a joined path. -/
def targetOf (path : FieldPath) : JoinTarget :=
  ⟨path.relations, Text.join "_" path.relations⟩

theorem mem_joinTargets {tree : Rule.Tree} {key : String} {target : JoinTarget}
    (h : (key, target) ∈ (joinTargets filters registry e tree : List (String × JoinTarget))) :
    ∃ leaf ∈ tree.leaves, ∃ path, leafPath? filters registry e leaf = some path ∧
      registry.isToOnePath e path.relations = true ∧ key = path.relationPath ∧
        target = targetOf path := by
  obtain ⟨path, hpath, hpair⟩ := List.mem_map.mp (Keyed.mem_of_mem_ofPairs h)
  obtain ⟨hmem, htoOne⟩ := List.mem_filter.mp hpath
  obtain ⟨leaf, hleaf, hread⟩ := List.mem_filterMap.mp hmem
  cases hpair
  exact ⟨leaf, hleaf, path, hread, htoOne, rfl, rfl⟩

/-- Of the paths that rules read, exactly the to-one paths have a target, their own. -/
theorem joinTargets_get? {tree : Rule.Tree} {leaf : Rule.Leaf} (hleaf : leaf ∈ tree.leaves)
    {path : FieldPath} (hpath : leafPath? filters registry e leaf = some path) :
    (joinTargets filters registry e tree).get? path.relationPath =
      if registry.isToOnePath e path.relations then some (targetOf path) else none := by
  obtain ⟨hne, hdots⟩ := leafPath?_relations hpath
  cases hget : (joinTargets filters registry e tree).get? path.relationPath with
  | some target =>
    obtain ⟨leaf', -, other, hother, htoOne, hkey, rfl⟩ := mem_joinTargets (Keyed.mem_of_get? hget)
    obtain ⟨hne', hdots'⟩ := leafPath?_relations hother
    have hrelations := Text.join_injective hne hne' hdots hdots' hkey
    unfold targetOf
    rw [← hrelations] at htoOne ⊢
    rw [if_pos htoOne]
  | none =>
    cases htoOne : registry.isToOnePath e path.relations with
    | false => rfl
    | true =>
      have hkeys := Keyed.get?_ofPairs
        ((((tree.leaves.filterMap (leafPath? filters registry e)).filter fun path =>
          registry.isToOnePath e path.relations)).map fun path =>
            (path.relationPath, targetOf path)) path.relationPath
      unfold joinTargets at hget
      unfold targetOf at hkeys
      rw [hget] at hkeys
      refine absurd rfl (hkeys (path.relationPath, targetOf path) (List.mem_map.mpr ⟨path, ?_, rfl⟩))
      exact List.mem_filter.mpr ⟨List.mem_filterMap.mpr ⟨leaf, hleaf, hpath⟩, htoOne⟩

end

/-! ## Frames of a query with all joins -/

section
variable (db : Dataset) {filters : FilterSet} {registry : Registry} (context : CompileContext)
  {serves : Frame → Row → Prop} {path : FieldPath}

/-- Without joins every path is read by questions about related rows. -/
theorem served_of_no_joins (q : Query) :
    Served db ⟨registry, context, none⟩ q .unmet serves path := by
  have hnone : joinOf? ⟨registry, context, none⟩ q path = none := by
    unfold joinOf?
    split <;> rfl
  unfold Served
  rw [hnone]
  exact .inl rfl

/-- With the joins of a tree the path of a rule is read from its join when it is to-one, and by
questions otherwise. -/
theorem served_of_joinTargets {e : Entity} {tree : Rule.Tree} {leaf : Rule.Leaf}
    (hleaf : leaf ∈ tree.leaves) (hpath : leafPath? filters registry e leaf = some path)
    (hbound : (joinTargets filters registry e tree).get? path.relationPath = some (targetOf path) →
      ∀ frame row, serves frame row → frame.row? (targetOf path).tableAlias =
        (reached db registry e path.relations row).head?) :
    Served db ⟨registry, context, some (joinTargets filters registry e tree)⟩ (Query.ofEntity e)
      .null serves path := by
  have hget := joinTargets_get? hleaf hpath
  have hjoin : joinOf? ⟨registry, context, some (joinTargets filters registry e tree)⟩
      (Query.ofEntity e) path = _ := hget
  unfold Served
  rw [hjoin]
  cases htoOne : registry.isToOnePath e path.relations with
  | false => exact .inr htoOne
  | true =>
    rw [htoOne] at hget
    exact ⟨rfl, htoOne, hbound hget⟩

end

/-- A query without joins reads every path by questions about related rows. -/
theorem unjoined_served (db : Dataset) (filters : FilterSet) (registry : Registry)
    (context : CompileContext) (q : Query) (frameOf : Row → Frame) (leaves : List Rule.Leaf) :
    AllServed db filters ⟨registry, context, none⟩ q .unmet (ServedBy db q frameOf) leaves := by
  exact fun _ _ _ _ => served_of_no_joins db context q

/-- Joining the targets of a tree always succeeds, keeps one frame for every row, and serves every
path of the rules with missing rows as null. -/
theorem joined_served (db : Dataset) (filters : FilterSet) (registry : Registry)
    (context : CompileContext) (e : Entity) (tree : Rule.Tree)
    (hunique : UniqueToOne db registry e)
    (hapart : AliasesApart e.table (IsJoined filters registry e tree)) :
    ∃ joins frameOf,
      joinAll registry (joinTargets filters registry e tree) (Query.ofEntity e) =
          .ok ((Query.ofEntity e).withJoins joins) ∧
        FramesOf db ((Query.ofEntity e).withJoins joins) frameOf ∧
        AllServed db filters ⟨registry, context, some (joinTargets filters registry e tree)⟩
          (Query.ofEntity e) .null (ServedBy db (Query.ofEntity e) frameOf) tree.leaves := by
  have htargets : ∀ t ∈ (joinTargets filters registry e tree).values, t.relations ≠ [] ∧
      registry.isToOnePath e t.relations = true ∧
        ∀ path, path ≠ [] → path <+: t.relations → IsJoined filters registry e tree path := by
    intro t ht
    obtain ⟨entry, hentry, rfl⟩ := List.mem_map.mp ht
    obtain ⟨leaf, hleaf, path, hpath, htoOne, -, htarget⟩ := mem_joinTargets hentry
    rw [htarget]
    exact ⟨(leafPath?_relations hpath).1, htoOne,
      fun front hfront hstart => ⟨hfront, leaf, hleaf, path, hpath, htoOne, hstart⟩⟩
  obtain ⟨joins, paths, hall, htracks, hmem, -⟩ :=
    joinAll_tracks (q := Query.ofEntity e) hunique hapart (Tracks.nil rfl) (by simp) htargets
  obtain ⟨frameOf, hframes, hrows⟩ := htracks.frames
  refine ⟨joins, frameOf, hall, ⟨hframes, fun row hrow => (hrows row hrow).1⟩, ?_⟩
  intro leaf hleaf path hpath
  refine served_of_joinTargets db context hleaf hpath fun hget => ?_
  rintro frame row ⟨hrow, rfl⟩
  exact (hrows row hrow).2 path.relations (hmem _ (Keyed.mem_values_of_get? hget))

end Winnow.Compile
