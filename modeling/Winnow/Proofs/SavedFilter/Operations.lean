import Winnow.SavedFilter.Store

/-!
# What operations do to a store

The operations that can change a store are one type, and `FilterStore.perform`
makes one of them; an operation that fails leaves the store as it was.  Seen
through look-up every operation is one equation: `find?_create`, `find?_update`,
`find?_delete`, `find?_markDefault`, `find?_unmarkDefault`.
-/

namespace Winnow

/-- An operation that can change a store. -/
inductive StoreOperation where
  | create (draft : FilterDraft)
  | update (id : Int) (changes : FilterChanges)
  | delete (id : Int)
  | markDefault (id : Int)
  | unmarkDefault (id : Int)

namespace SavedFilter

theorem sharesDefault_iff (f g : SavedFilter) :
    f.sharesDefault g = true ↔
      f.identifier = g.identifier ∧ f.view = g.view ∧ f.owner = g.owner := by
  simp [sharesDefault, and_assoc]

/-- Whether two states of a filter agree on everything that no operation changes. -/
structure SameFilter (f g : SavedFilter) : Prop where
  id_eq : f.id = g.id
  owner_eq : f.owner = g.owner
  identifier_eq : f.identifier = g.identifier
  view_eq : f.view = g.view
  isReadonly_eq : f.isReadonly = g.isReadonly
  isSystemDefault_eq : f.isSystemDefault = g.isSystemDefault

theorem SameFilter.refl (f : SavedFilter) : f.SameFilter f := ⟨rfl, rfl, rfl, rfl, rfl, rfl⟩

theorem SameFilter.isMutable_eq {f g : SavedFilter} (h : f.SameFilter g) :
    f.isMutable = g.isMutable := by
  unfold isMutable
  rw [h.isReadonly_eq, h.isSystemDefault_eq]

theorem SameFilter.sharesDefault_eq {f f' g g' : SavedFilter} (hf : f.SameFilter f')
    (hg : g.SameFilter g') : f.sharesDefault g = f'.sharesDefault g' := by
  unfold sharesDefault
  rw [hf.identifier_eq, hf.view_eq, hf.owner_eq, hg.identifier_eq, hg.view_eq, hg.owner_eq]

end SavedFilter

namespace FilterStore

/-! ## Entries -/

section
variable (id other : Int) (entries : List (Int × SavedFilter))

theorem lookup_insert (f : SavedFilter) :
    lookup other (insert id f entries) = if id = other then some f else lookup other entries := by
  induction entries with
  | nil => rfl
  | cons entry rest ih =>
    obtain ⟨key, g⟩ := entry
    unfold insert
    by_cases hkey : key = id
    · subst hkey
      rw [if_pos rfl, lookup, lookup]
      by_cases h : key = other
      · rw [if_pos h, if_pos h]
      · rw [if_neg h, if_neg h, if_neg h]
    · rw [if_neg hkey]
      split
      · rw [lookup]
      · rw [lookup, ih, lookup]
        by_cases h : key = other
        · have hid : id ≠ other := by omega
          rw [if_pos h, if_pos h, if_neg hid]
        · rw [if_neg h, if_neg h]

theorem lookup_mapFilters (image : SavedFilter → SavedFilter) :
    lookup id (mapFilters image entries) = (lookup id entries).map image := by
  induction entries with
  | nil => rfl
  | cons entry rest ih =>
    obtain ⟨key, g⟩ := entry
    show lookup id ((key, image g) :: mapFilters image rest) = _
    rw [lookup, lookup, ih]
    by_cases h : key = id
    · rw [if_pos h, if_pos h, Option.map_some]
    · rw [if_neg h, if_neg h]

theorem lookup_filter :
    lookup other (entries.filter fun entry => !(entry.1 == id)) =
      if id = other then none else lookup other entries := by
  induction entries with
  | nil => simp [lookup]
  | cons entry rest ih =>
    obtain ⟨key, g⟩ := entry
    by_cases hkey : key = id
    · have hdrop : ((key, g) :: rest).filter (fun entry => !(entry.1 == id)) =
          rest.filter fun entry => !(entry.1 == id) := by
        simp [hkey]
      rw [hdrop, ih, lookup]
      by_cases h : id = other
      · rw [if_pos h, if_pos h]
      · have hother : key ≠ other := by omega
        rw [if_neg h, if_neg h, if_neg hother]
    · have hkeep : ((key, g) :: rest).filter (fun entry => !(entry.1 == id)) =
          (key, g) :: rest.filter fun entry => !(entry.1 == id) := by
        simp [hkey]
      rw [hkeep, lookup, ih, lookup]
      by_cases h : key = other
      · have hid : id ≠ other := by omega
        rw [if_pos h, if_pos h, if_neg hid]
      · rw [if_neg h, if_neg h]

/-! ## Entries in order -/

/-- Whether the identifiers increase. -/
def Increasing (entries : List (Int × SavedFilter)) : Prop :=
  entries.Pairwise fun a b => a.1 < b.1

theorem mem_insert {f : SavedFilter} {entry : Int × SavedFilter}
    (h : entry ∈ insert id f entries) : entry = (id, f) ∨ entry ∈ entries := by
  induction entries with
  | nil => exact .inl (List.mem_singleton.mp h)
  | cons first rest ih =>
    obtain ⟨key, g⟩ := first
    unfold insert at h
    split at h
    · rcases List.mem_cons.mp h with h | h
      · exact .inl h
      · exact .inr (List.mem_cons_of_mem _ h)
    · split at h
      · exact List.mem_cons.mp h
      · rcases List.mem_cons.mp h with rfl | h
        · exact .inr List.mem_cons_self
        · exact (ih h).imp_right (List.mem_cons_of_mem _)

variable {entries}

theorem Increasing.insert (h : Increasing entries) (f : SavedFilter) :
    Increasing (insert id f entries) := by
  induction entries with
  | nil => exact List.pairwise_singleton _ _
  | cons entry rest ih =>
    obtain ⟨key, g⟩ := entry
    obtain ⟨hfirst, hrest⟩ := List.pairwise_cons.mp h
    unfold FilterStore.insert
    by_cases hkey : key = id
    · subst hkey
      rw [if_pos rfl]
      exact List.pairwise_cons.mpr ⟨hfirst, hrest⟩
    · rw [if_neg hkey]
      by_cases hlt : id < key
      · rw [if_pos hlt]
        refine List.pairwise_cons.mpr ⟨fun entry hentry => ?_, h⟩
        rcases List.mem_cons.mp hentry with rfl | hentry
        · exact hlt
        · have hnext : key < entry.1 := hfirst entry hentry
          show id < entry.1
          omega
      · rw [if_neg hlt]
        refine List.pairwise_cons.mpr ⟨fun entry hentry => ?_, ih hrest⟩
        rcases mem_insert id rest hentry with rfl | hentry
        · show key < id
          omega
        · exact hfirst entry hentry

theorem Increasing.mapFilters (h : Increasing entries) (image : SavedFilter → SavedFilter) :
    Increasing (mapFilters image entries) :=
  List.pairwise_map.mpr h

theorem Increasing.filter (h : Increasing entries) (keep : Int × SavedFilter → Bool) :
    Increasing (entries.filter keep) :=
  List.Pairwise.filter keep h

/-- Where identifiers increase, the entries are what look-up finds. -/
theorem Increasing.mem_iff (h : Increasing entries) (f : SavedFilter) :
    (id, f) ∈ entries ↔ lookup id entries = some f := by
  induction entries with
  | nil => simp [lookup]
  | cons entry rest ih =>
    obtain ⟨key, g⟩ := entry
    obtain ⟨hfirst, hrest⟩ := List.pairwise_cons.mp h
    rw [List.mem_cons, ih hrest, lookup]
    by_cases hkey : key = id
    · subst hkey
      rw [if_pos rfl]
      constructor
      · rintro (hsame | hlater)
        · rw [(Prod.mk.inj hsame).2]
        · have hlt : key < key := hfirst (key, f) ((ih hrest).mpr hlater)
          omega
      · intro hsame
        rw [Option.some.inj hsame]
        exact .inl rfl
    · rw [if_neg hkey]
      constructor
      · rintro (hsame | hlater)
        · exact absurd (Prod.mk.inj hsame).1.symm hkey
        · exact hlater
      · exact .inr

end

/-! ## Operations -/

/-- The store after an operation; one that fails changes nothing. -/
def perform (s : FilterStore) : StoreOperation → FilterStore
  | .create draft => (s.create draft).2
  | .update id changes => ((s.update id changes).map Prod.snd).toOption.getD s
  | .delete id => (s.delete id).2
  | .markDefault id => ((s.markDefault id).map Prod.snd).toOption.getD s
  | .unmarkDefault id => ((s.unmarkDefault id).map Prod.snd).toOption.getD s

/-- The store after operations, one after another. -/
def performAll (s : FilterStore) (operations : List StoreOperation) : FilterStore :=
  operations.foldl perform s

@[simp] theorem performAll_append (s : FilterStore) (first second : List StoreOperation) :
    s.performAll (first ++ second) = (s.performAll first).performAll second :=
  List.foldl_append

section
variable (s : FilterStore) (id other : Int)

theorem modify_eq_ok {f : SavedFilter} (h : s.find? id = some f)
    (image : SavedFilter → SavedFilter) :
    s.modify id image = .ok (image f, { s with entries := insert id (image f) s.entries }) := by
  unfold modify
  rw [h]

theorem modify_eq_error (h : s.find? id = none) (image : SavedFilter → SavedFilter) :
    s.modify id image = .error (notFound id) := by
  unfold modify
  rw [h]

/-- Replacing a filter by its image changes nothing but its entry. -/
theorem modify_store (image : SavedFilter → SavedFilter) :
    ((s.modify id image).map Prod.snd).toOption.getD s = s ∨ ∃ f,
      ((s.modify id image).map Prod.snd).toOption.getD s =
        { s with entries := insert id f s.entries } := by
  cases hfind : s.find? id with
  | none =>
    rw [modify_eq_error s id hfind]
    exact .inl rfl
  | some f =>
    rw [modify_eq_ok s id hfind]
    exact .inr ⟨image f, rfl⟩

theorem update_store (changes : FilterChanges) :
    s.perform (.update id changes) = s ∨ ∃ f,
      s.perform (.update id changes) = { s with entries := insert id f s.entries } :=
  s.modify_store id fun f => f.change changes

theorem unmarkDefault_store :
    s.perform (.unmarkDefault id) = s ∨ ∃ f,
      s.perform (.unmarkDefault id) = { s with entries := insert id f s.entries } :=
  s.modify_store id fun f => { f with isDefault := false }

/-- The store after a filter was replaced by its image, if there is one. -/
theorem find?_modify (image : SavedFilter → SavedFilter) :
    (((s.modify id image).map Prod.snd).toOption.getD s).find? other =
      (s.find? other).map fun f => if id = other then image f else f := by
  cases hfind : s.find? id with
  | none =>
    rw [modify_eq_error s id hfind]
    show s.find? other = _
    by_cases h : id = other
    · rw [← h, hfind, Option.map_none]
    · simp only [if_neg h, Option.map_id']
  | some f =>
    rw [modify_eq_ok s id hfind]
    show lookup other (insert id (image f) s.entries) = _
    rw [lookup_insert]
    by_cases h : id = other
    · rw [if_pos h, ← h, hfind, Option.map_some, if_pos rfl]
    · simp only [if_neg h, Option.map_id']
      rfl

theorem find?_create (draft : FilterDraft) :
    (s.perform (.create draft)).find? other =
      if s.lastId + 1 = other then some (draft.save (s.lastId + 1)) else s.find? other :=
  lookup_insert (s.lastId + 1) other s.entries (draft.save (s.lastId + 1))

theorem find?_update (changes : FilterChanges) :
    (s.perform (.update id changes)).find? other =
      (s.find? other).map fun f => if id = other then f.change changes else f :=
  s.find?_modify id other fun f => f.change changes

theorem find?_delete :
    (s.perform (.delete id)).find? other = if id = other then none else s.find? other :=
  lookup_filter id other s.entries

theorem find?_unmarkDefault :
    (s.perform (.unmarkDefault id)).find? other =
      (s.find? other).map fun f => if id = other then { f with isDefault := false } else f :=
  s.find?_modify id other fun f => { f with isDefault := false }

theorem markDefault_eq_error (h : s.find? id = none) :
    s.markDefault id = .error (notFound id) := by
  unfold markDefault
  rw [h]

theorem markDefault_eq_ok {target : SavedFilter} (h : s.find? id = some target) :
    s.markDefault id =
      let marked := { yieldTo id target target with isDefault := true }
      .ok (marked,
        { s with entries := insert id marked (mapFilters (yieldTo id target) s.entries) }) := by
  have htarget : lookup id (mapFilters (yieldTo id target) s.entries) =
      some (yieldTo id target target) := by
    rw [lookup_mapFilters]
    exact congrArg (Option.map (yieldTo id target)) h
  unfold markDefault
  rw [h]
  exact modify_eq_ok { s with entries := mapFilters (yieldTo id target) s.entries } id htarget _

/-- Marking a filter changes nothing but its entry and those of filters that yield to it. -/
theorem markDefault_store :
    s.perform (.markDefault id) = s ∨ ∃ target f,
      s.perform (.markDefault id) =
        { s with entries := insert id f (mapFilters (yieldTo id target) s.entries) } := by
  show ((s.markDefault id).map Prod.snd).toOption.getD s = s ∨ ∃ target f,
    ((s.markDefault id).map Prod.snd).toOption.getD s =
      { s with entries := insert id f (mapFilters (yieldTo id target) s.entries) }
  cases hfind : s.find? id with
  | none =>
    rw [markDefault_eq_error s id hfind]
    exact .inl rfl
  | some target =>
    rw [markDefault_eq_ok s id hfind]
    exact .inr ⟨target, _, rfl⟩

theorem find?_markDefault :
    (s.perform (.markDefault id)).find? other =
      match s.find? id with
      | some target => (s.find? other).map fun f =>
        if id = other then { yieldTo id target f with isDefault := true } else yieldTo id target f
      | none => s.find? other := by
  show (((s.markDefault id).map Prod.snd).toOption.getD s).find? other = _
  cases hfind : s.find? id with
  | none =>
    rw [markDefault_eq_error s id hfind]
    rfl
  | some target =>
    rw [markDefault_eq_ok s id hfind]
    show lookup other (insert id _ (mapFilters (yieldTo id target) s.entries)) =
      (lookup other s.entries).map _
    rw [lookup_insert, lookup_mapFilters]
    by_cases h : id = other
    · have hother : lookup other s.entries = some target := h ▸ hfind
      rw [if_pos h, hother, Option.map_some, if_pos h]
    · simp only [if_neg h]

/-! ## Every operation -/

theorem yieldTo_same (target f : SavedFilter) : (yieldTo id target f).SameFilter f := by
  unfold yieldTo
  split
  · exact ⟨rfl, rfl, rfl, rfl, rfl, rfl⟩
  · exact .refl f

/-- A filter that yields to a target keeps its mark only where the target leaves it. -/
theorem isDefault_of_yieldTo {target f : SavedFilter} (h : (yieldTo id target f).isDefault = true) :
    f.isDefault = true ∧ (f.id ≠ id → f.sharesDefault target = false) := by
  unfold yieldTo at h
  split at h
  · cases h
  next hkept =>
    refine ⟨h, fun hid => ?_⟩
    rw [h, Bool.and_true, Bool.and_eq_true, not_and, Bool.not_eq_true] at hkept
    exact hkept (bne_iff_ne.mpr hid)

variable {s id}

/-- A filter after an operation was saved by it or is one from before, which got a mark only when
the operation was to mark it. -/
theorem find?_perform_cases {operation : StoreOperation} {f : SavedFilter}
    (h : (s.perform operation).find? id = some f) :
    (∃ draft, operation = .create draft ∧ id = s.lastId + 1 ∧ f = draft.save id) ∨
      ∃ g, s.find? id = some g ∧ f.SameFilter g ∧
        (f.isDefault = true → g.isDefault = true ∨ operation = .markDefault id) := by
  cases operation with
  | create draft =>
    rw [find?_create] at h
    split at h
    next hid =>
      subst hid
      exact .inl ⟨draft, rfl, rfl, (Option.some.inj h).symm⟩
    next hid => exact .inr ⟨f, h, .refl f, .inl⟩
  | update target changes =>
    rw [find?_update] at h
    obtain ⟨g, hg, rfl⟩ := Option.map_eq_some_iff.mp h
    refine .inr ⟨g, hg, ?_⟩
    by_cases hid : target = id
    · rw [if_pos hid]
      exact ⟨⟨rfl, rfl, rfl, rfl, rfl, rfl⟩, .inl⟩
    · rw [if_neg hid]
      exact ⟨.refl g, .inl⟩
  | delete target =>
    rw [find?_delete] at h
    split at h
    · cases h
    · exact .inr ⟨f, h, .refl f, .inl⟩
  | markDefault target =>
    rw [find?_markDefault] at h
    cases htarget : s.find? target with
    | none =>
      rw [htarget] at h
      exact .inr ⟨f, h, .refl f, .inl⟩
    | some marked =>
      rw [htarget] at h
      obtain ⟨g, hg, rfl⟩ := Option.map_eq_some_iff.mp h
      refine .inr ⟨g, hg, ?_⟩
      have hsame := yieldTo_same target marked g
      by_cases hid : target = id
      · rw [if_pos hid]
        exact ⟨⟨hsame.1, hsame.2, hsame.3, hsame.4, hsame.5, hsame.6⟩, fun _ => .inr (hid ▸ rfl)⟩
      · rw [if_neg hid]
        exact ⟨hsame, fun hdefault => .inl (isDefault_of_yieldTo target hdefault).1⟩
  | unmarkDefault target =>
    rw [find?_unmarkDefault] at h
    obtain ⟨g, hg, rfl⟩ := Option.map_eq_some_iff.mp h
    refine .inr ⟨g, hg, ?_⟩
    by_cases hid : target = id
    · rw [if_pos hid]
      refine ⟨⟨rfl, rfl, rfl, rfl, rfl, rfl⟩, fun hdefault => ?_⟩
      cases hdefault
    · rw [if_neg hid]
      exact ⟨.refl g, .inl⟩

end

/-! ## Identifiers -/

/-- Only saving a draft hands out an identifier. -/
theorem lastId_perform (s : FilterStore) (operation : StoreOperation) :
    (s.perform operation).lastId =
      match operation with
      | .create _ => s.lastId + 1
      | _ => s.lastId := by
  cases operation with
  | create draft => rfl
  | delete id => rfl
  | update id changes =>
    rcases s.update_store id changes with h | ⟨f, h⟩ <;> rw [h]
  | unmarkDefault id =>
    rcases s.unmarkDefault_store id with h | ⟨f, h⟩ <;> rw [h]
  | markDefault id =>
    rcases s.markDefault_store id with h | ⟨target, f, h⟩ <;> rw [h]

theorem lastId_le_perform (s : FilterStore) (operation : StoreOperation) :
    s.lastId ≤ (s.perform operation).lastId := by
  rw [lastId_perform]
  cases operation with
  | create draft =>
    show s.lastId ≤ s.lastId + 1
    omega
  | _ => exact Int.le_refl _

theorem lastId_le_performAll (s : FilterStore) (operations : List StoreOperation) :
    s.lastId ≤ (s.performAll operations).lastId := by
  induction operations generalizing s with
  | nil => exact Int.le_refl _
  | cons operation rest ih =>
    have hfirst := s.lastId_le_perform operation
    have hrest := ih (s.perform operation)
    exact Int.le_trans hfirst hrest

/-- As many identifiers are handed out as there are operations, at most. -/
theorem lastId_performAll_le (s : FilterStore) (operations : List StoreOperation) :
    (s.performAll operations).lastId ≤ s.lastId + operations.length := by
  induction operations generalizing s with
  | nil => simp [performAll]
  | cons operation rest ih =>
    have hrest := ih (s.perform operation)
    have hfirst : (s.perform operation).lastId ≤ s.lastId + 1 := by
      rw [lastId_perform]
      cases operation <;> simp only <;> omega
    show ((s.perform operation).performAll rest).lastId ≤ s.lastId + (rest.length + 1 : Nat)
    omega

end FilterStore
end Winnow
