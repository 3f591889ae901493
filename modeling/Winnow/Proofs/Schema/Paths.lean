import Winnow.Proofs.Keyed
import Winnow.Proofs.Success
import Winnow.Proofs.Text.Cutting
import Winnow.Schema.Registry

/-!
# Paths of relations

A field reference is split at the longest path in front of it that can be walked
and leaves a segment for the column (`relationSegments_longest`), and nothing of
the reference is lost (`join_splitPath`).  Every relation of a registered entity
leads on (`leadsOn_of_ofEntities`), so what stands at the front of a column of
several segments is no relation of the entity that the path leads to
(`splitPath_splits`).
-/

namespace Winnow.Registry

/-! ## Definitions -/

/-- Whether every relation of an entity leads to a registered one. -/
def LeadsOn (registry : Registry) (e : Entity) : Prop :=
  ∀ found ∈ e.relations.values, registry.entities.has found.related = true

/-- Whether a field reference is a path from an entity to another and a column: joined with points
they write the reference, and no longer path in front of it can be walked and leaves a segment for
the column.  So a column of several segments does not begin with a relation that leads on. -/
structure SplitsAt (registry : Registry) (e : Entity) (field : String) (path : FieldPath)
    (target : Entity) : Prop where
  joined : Text.join "." (path.relations ++ [path.column]) = field
  segments : Text.split '.' field = path.relations ++ Text.split '.' path.column
  walked : registry.walk e path.relations = .ok target
  longest : ∀ front back, Text.split '.' field = front ++ back → back ≠ [] →
    (registry.walk e front).isOk = true → front <+: path.relations
  stops : ∀ first next rest, Text.split '.' path.column = first :: next :: rest →
    (registry.related target first).isOk = false

/-! ## Walking -/

section
variable {registry : Registry}

theorem get_of_related {e related : Entity} {relation : String} {found : Relation}
    (h : registry.related e relation = .ok (found, related)) :
    registry.get found.related = .ok related := by
  unfold Registry.related at h
  cases hr : e.relation? relation with
  | none => simp [hr] at h
  | some r =>
    rw [hr] at h
    cases hg : registry.get r.related with
    | error e => simp [hg, Except.map] at h
    | ok t =>
      simp only [hg, Except.map, Except.ok.injEq, Prod.mk.injEq] at h
      obtain ⟨rfl, rfl⟩ := h
      exact hg

theorem walk_append {e target related : Entity} {path : List String} {relation : String}
    {found : Relation} (hwalk : registry.walk e path = .ok target)
    (hrelated : registry.related target relation = .ok (found, related)) :
    registry.walk e (path ++ [relation]) = .ok related := by
  induction path generalizing e with
  | nil =>
    cases hwalk
    simp [Registry.walk, hrelated]
  | cons first rest ih =>
    rw [List.cons_append]
    unfold Registry.walk at hwalk ⊢
    cases hr : registry.related e first with
    | error error => simp [hr] at hwalk
    | ok pair =>
      rw [hr] at hwalk
      exact ih hwalk

/-- A path leads to the entity itself, or to a registered one. -/
theorem registered_of_walk {e target : Entity} {path : List String}
    (h : registry.walk e path = .ok target) :
    target = e ∨ ∃ name, registry.get name = .ok target := by
  induction path generalizing e with
  | nil =>
    cases h
    exact .inl rfl
  | cons relation rest ih =>
    unfold Registry.walk at h
    rcases hrelated : registry.related e relation with error | ⟨found, related⟩ <;>
      simp only [hrelated] at h
    · cases h
    · rcases ih h with rfl | hregistered
      · exact .inr ⟨_, get_of_related hrelated⟩
      · exact .inr hregistered

/-! ## To-one paths -/

/-- The rest of a to-one path is a to-one path. -/
theorem isToOnePath_append {e target : Entity} {path rest : List String}
    (hwalk : registry.walk e path = .ok target)
    (htoOne : registry.isToOnePath e (path ++ rest) = true) :
    registry.isToOnePath target rest = true := by
  induction path generalizing e with
  | nil =>
    cases hwalk
    exact htoOne
  | cons first path ih =>
    rw [List.cons_append] at htoOne
    unfold Registry.walk at hwalk
    unfold Registry.isToOnePath at htoOne
    cases hr : registry.related e first with
    | error error => simp [hr] at hwalk
    | ok pair =>
      rw [hr] at hwalk htoOne
      exact ih hwalk (Bool.and_eq_true_iff.mp htoOne).2

/-- The beginning of a to-one path is a to-one path. -/
theorem isToOnePath_of_append {e : Entity} {path rest : List String}
    (h : registry.isToOnePath e (path ++ rest) = true) : registry.isToOnePath e path = true := by
  induction path generalizing e with
  | nil => rfl
  | cons relation path ih =>
    rw [List.cons_append] at h
    unfold Registry.isToOnePath at h ⊢
    cases hr : registry.related e relation with
    | error error => simp [hr] at h
    | ok pair =>
      rw [hr] at h
      obtain ⟨hfound, h⟩ := Bool.and_eq_true_iff.mp h
      exact Bool.and_eq_true_iff.mpr ⟨hfound, ih h⟩

theorem related_of_isToOnePath {e : Entity} {relation : String} {rest : List String}
    (h : registry.isToOnePath e (relation :: rest) = true) :
    ∃ found related, registry.related e relation = .ok (found, related) ∧ found.isToOne = true ∧
      registry.isToOnePath related rest = true := by
  unfold Registry.isToOnePath at h
  cases hr : registry.related e relation with
  | error error => simp [hr] at h
  | ok pair =>
    rw [hr] at h
    exact ⟨pair.1, pair.2, rfl, Bool.and_eq_true_iff.mp h⟩

theorem walk_of_isToOnePath {e : Entity} {path : List String}
    (h : registry.isToOnePath e path = true) : ∃ target, registry.walk e path = .ok target := by
  induction path generalizing e with
  | nil => exact ⟨e, rfl⟩
  | cons relation rest ih =>
    obtain ⟨found, related, hrelated, -, hrest⟩ := related_of_isToOnePath h
    obtain ⟨target, htarget⟩ := ih hrest
    refine ⟨target, ?_⟩
    unfold Registry.walk
    rw [hrelated]
    exact htarget

end

/-! ## Splitting a field reference -/

section
variable (registry : Registry) (e : Entity)

/-- The relations of a field reference are its leading segments; some segment is left. -/
theorem relationSegments_prefix {segments : List String} (hne : segments ≠ []) :
    ∃ rest, rest ≠ [] ∧ segments = registry.relationSegments e segments ++ rest := by
  induction segments generalizing e with
  | nil => exact absurd rfl hne
  | cons first rest ih =>
    cases rest with
    | nil => exact ⟨[first], by simp, rfl⟩
    | cons next rest =>
      unfold Registry.relationSegments
      split
      next target hrelated =>
        obtain ⟨others, hothers, heq⟩ := ih target (List.cons_ne_nil next rest)
        exact ⟨others, hothers, by rw [List.cons_append, ← heq]⟩
      next => exact ⟨first :: next :: rest, List.cons_ne_nil _ _, rfl⟩

theorem walk_relationSegments (segments : List String) :
    ∃ target, registry.walk e (registry.relationSegments e segments) = .ok target := by
  induction segments generalizing e with
  | nil => exact ⟨e, rfl⟩
  | cons segment rest ih =>
    cases rest with
    | nil => exact ⟨e, rfl⟩
    | cons next rest =>
      unfold relationSegments
      cases hrelated : registry.related e segment with
      | error error => exact ⟨e, rfl⟩
      | ok found =>
        obtain ⟨target, htarget⟩ := ih found.2
        refine ⟨target, ?_⟩
        simp only [walk, hrelated]
        exact htarget

/-- No longer path in front of the segments can be walked and leaves a segment: induction on the
path, along the entities that it goes through. -/
theorem relationSegments_longest {front back : List String} (hback : back ≠ [])
    (hwalk : (registry.walk e front).isOk = true) :
    front <+: registry.relationSegments e (front ++ back) := by
  induction front generalizing e with
  | nil => exact List.nil_prefix
  | cons segment front ih =>
    obtain ⟨next, rest, hrest⟩ := List.exists_cons_of_ne_nil
      (List.append_ne_nil_of_right_ne_nil front hback)
    rw [List.cons_append, hrest]
    unfold walk at hwalk
    unfold relationSegments
    rcases hrelated : registry.related e segment with error | ⟨found, target⟩ <;>
      simp only [hrelated] at hwalk ⊢
    · cases hwalk
    · rw [← hrest]
      exact List.cons_prefix_cons.mpr ⟨rfl, ih target hwalk⟩

/-- The segments of a field reference are its relations and those of its column. -/
theorem split_splitPath (field : String) :
    Text.split '.' field =
      (registry.splitPath e field).relations ++
        Text.split '.' (registry.splitPath e field).column := by
  obtain ⟨rest, hrest, heq⟩ := registry.relationSegments_prefix e (Text.split_ne_nil '.' field)
  have hdropped : (Text.split '.' field).drop
      (registry.relationSegments e (Text.split '.' field)).length = rest :=
    (congrArg (List.drop _) heq).trans List.drop_left
  have hplain : ∀ piece ∈ rest, '.' ∉ piece.toList := by
    intro piece hpiece
    refine Text.not_mem_of_mem_split (s := field) ?_
    rw [heq]
    exact List.mem_append_right _ hpiece
  show _ = registry.relationSegments e (Text.split '.' field) ++
    Text.split '.' (Text.join (String.singleton '.') ((Text.split '.' field).drop _))
  rw [hdropped, Text.split_join hrest hplain, ← heq]

/-- The path of a field reference writes the reference. -/
theorem join_splitPath (field : String) :
    Text.join "." ((registry.splitPath e field).relations ++
      [(registry.splitPath e field).column]) = field := by
  have hpoint : "." = String.singleton '.' := rfl
  have hjoined := Text.join_append_join "." (registry.splitPath e field).relations
    (Text.split_ne_nil '.' (registry.splitPath e field).column)
  rw [hpoint, Text.join_split, ← split_splitPath, Text.join_split] at hjoined
  exact hjoined

theorem splitPath_splits (field : String) :
    ∃ target, registry.SplitsAt e field (registry.splitPath e field) target := by
  obtain ⟨target, htarget⟩ := registry.walk_relationSegments e (Text.split '.' field)
  have hlongest : ∀ front back, Text.split '.' field = front ++ back → back ≠ [] →
      (registry.walk e front).isOk = true → front <+: (registry.splitPath e field).relations := by
    intro front back hsplit hback hwalk
    show front <+: registry.relationSegments e (Text.split '.' field)
    rw [hsplit]
    exact registry.relationSegments_longest e hback hwalk
  refine ⟨target, ⟨registry.join_splitPath e field, registry.split_splitPath e field, htarget,
    hlongest, ?_⟩⟩
  intro first next rest hcolumn
  by_contra hrelated
  rw [Bool.not_eq_false] at hrelated
  -- the path with the first segment of the column could be walked, but it is longer
  obtain ⟨⟨found, related⟩, hrelated⟩ := ok_of_isOk hrelated
  have hsegments := registry.split_splitPath e field
  rw [hcolumn, List.append_cons] at hsegments
  have hwalk : registry.walk e ((registry.splitPath e field).relations ++ [first]) = .ok related :=
    walk_append htarget hrelated
  have hprefix := hlongest _ _ hsegments (List.cons_ne_nil next rest) (by rw [hwalk]; rfl)
  have hlength := hprefix.length_le
  rw [List.length_append, List.length_singleton] at hlength
  omega

/-- There is one way to split a field reference. -/
theorem SplitsAt.eq_splitPath {field : String} {path : FieldPath} {target : Entity}
    (h : registry.SplitsAt e field path target) : path = registry.splitPath e field := by
  obtain ⟨target', h'⟩ := registry.splitPath_splits e field
  have hle := h'.longest _ _ h.segments (Text.split_ne_nil _ _) (by rw [h.walked]; rfl)
  have hge := h.longest _ _ h'.segments (Text.split_ne_nil _ _) (by rw [h'.walked]; rfl)
  have hrelations : path.relations = (registry.splitPath e field).relations :=
    hle.eq_of_length_le hge.length_le
  have hcolumns := h.segments.symm.trans h'.segments
  rw [hrelations] at hcolumns
  have hcolumn := Text.split_injective (List.append_cancel_left hcolumns)
  cases path
  exact congrArg₂ FieldPath.mk hrelations hcolumn

end

/-! ## Registries of entities -/

section
variable {registry : Registry} {entities : List Entity}

/-- Every relation of a registered entity leads to a registered one. -/
theorem leadsOn_of_ofEntities (h : ofEntities entities = .ok registry) {name : String} {e : Entity}
    (he : registry.get name = .ok e) : registry.LeadsOn e := by
  unfold ofEntities at h
  simp only at h
  split at h
  · cases h
  next hdangling =>
    cases h
    have hregistered : e ∈ (Keyed.ofPairs (entities.map fun e => (e.name, e))).values := by
      unfold get at he
      split at he
      next found hfound =>
        cases he
        exact Keyed.mem_values_of_get? hfound
      · cases he
    intro found hfound
    have hhas := List.find?_eq_none.mp hdangling found.related
      (List.mem_flatMap.mpr ⟨e, hregistered, List.mem_map_of_mem hfound⟩)
    simpa using hhas

/-- A relation of an entity whose relations lead on can be followed. -/
theorem LeadsOn.relation?_eq_none {e : Entity} (h : registry.LeadsOn e) {relation : String}
    (hrelated : (registry.related e relation).isOk = false) : e.relation? relation = none := by
  cases hfound : e.relation? relation with
  | none => rfl
  | some found =>
    have hhas := h found (Keyed.mem_values_of_get? hfound)
    obtain ⟨target, htarget⟩ := Option.isSome_iff_exists.mp hhas
    unfold related get at hrelated
    simp only [hfound, htarget] at hrelated
    cases hrelated

/-- From a registered entity a column of several segments does not begin with a relation of the
entity that the path leads to. -/
theorem SplitsAt.relation?_eq_none (hregistry : ofEntities entities = .ok registry)
    {e target : Entity} {name field : String} (he : registry.get name = .ok e) {path : FieldPath}
    (h : registry.SplitsAt e field path target) {first next : String} {rest : List String}
    (hcolumn : Text.split '.' path.column = first :: next :: rest) :
    target.relation? first = none := by
  have hleads : registry.LeadsOn target := by
    rcases registered_of_walk h.walked with rfl | ⟨name, htarget⟩
    · exact leadsOn_of_ofEntities hregistry he
    · exact leadsOn_of_ofEntities hregistry htarget
  exact hleads.relation?_eq_none (h.stops first next rest hcolumn)

end

end Winnow.Registry
