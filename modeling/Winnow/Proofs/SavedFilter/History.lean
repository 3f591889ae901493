import Winnow.Proofs.SavedFilter.Operations

/-!
# What holds of a store after any operations

A store that began empty is consistent, whatever operations were made on it
(`performAll_consistent`): every filter lies under its own identifier, no
identifier exceeds the one handed out last, and of the filters of one listing,
view and owner at most one is the default.  The step is `Consistent.perform`.
An identifier is never handed out twice, and marking a filter touches the marks
of its own listing, view and owner only (`store_history`).
-/

namespace Winnow.FilterStore

/-! ## Consistent stores -/

/-- A store in which identifiers and defaults are told apart. -/
structure Consistent (s : FilterStore) : Prop where
  increasing : Increasing s.entries
  /-- A filter knows the identifier it lies under. -/
  id_eq : ∀ id f, s.find? id = some f → f.id = id
  /-- Identifiers that were not handed out are free. -/
  id_le : ∀ id f, s.find? id = some f → id ≤ s.lastId
  /-- No two defaults are of the same listing, view and owner. -/
  default_unique : ∀ id f other g, s.find? id = some f → s.find? other = some g →
    f.isDefault = true → g.isDefault = true → f.sharesDefault g = true → id = other

theorem empty_consistent : empty.Consistent where
  increasing := List.Pairwise.nil
  id_eq := by
    intro id f h
    cases h
  id_le := by
    intro id f h
    cases h
  default_unique := by
    intro id f other g h
    cases h

theorem perform_increasing {s : FilterStore} (h : Increasing s.entries)
    (operation : StoreOperation) : Increasing (s.perform operation).entries := by
  cases operation with
  | create draft => exact h.insert _ _
  | delete id => exact h.filter _
  | update id changes =>
    rcases s.update_store id changes with hstore | ⟨f, hstore⟩
    · rw [hstore]
      exact h
    · rw [hstore]
      exact h.insert id f
  | unmarkDefault id =>
    rcases s.unmarkDefault_store id with hstore | ⟨f, hstore⟩
    · rw [hstore]
      exact h
    · rw [hstore]
      exact h.insert id f
  | markDefault id =>
    rcases s.markDefault_store id with hstore | ⟨target, f, hstore⟩
    · rw [hstore]
      exact h
    · rw [hstore]
      exact (h.mapFilters _).insert id f

section
variable {s : FilterStore} (h : s.Consistent)

include h

/-- Once a filter was marked, no other default shares its listing, view and owner. -/
theorem Consistent.marked_alone {id other : Int} {target g : SavedFilter}
    (htarget : s.find? id = some target) (hother : other ≠ id)
    (hg : (s.perform (.markDefault id)).find? other = some g) (hdefault : g.isDefault = true) :
    g.sharesDefault target = false := by
  rw [find?_markDefault, htarget] at hg
  obtain ⟨g', hg', rfl⟩ := Option.map_eq_some_iff.mp hg
  rw [if_neg hother.symm] at hdefault ⊢
  have hid : g'.id ≠ id := by
    rw [h.id_eq other g' hg']
    exact hother
  have hapart := (isDefault_of_yieldTo id hdefault).2 hid
  rw [(yieldTo_same id target g').sharesDefault_eq (.refl target)]
  exact hapart

/-- An operation keeps a store consistent. -/
theorem Consistent.perform (operation : StoreOperation) : (s.perform operation).Consistent := by
  refine ⟨perform_increasing h.increasing operation, ?_, ?_, ?_⟩
  · intro id f hf
    rcases find?_perform_cases hf with ⟨draft, -, -, rfl⟩ | ⟨g, hg, hsame, -⟩
    · rfl
    · rw [hsame.id_eq]
      exact h.id_eq id g hg
  · intro id f hf
    have hlast := s.lastId_perform operation
    rcases find?_perform_cases hf with ⟨draft, rfl, rfl, -⟩ | ⟨g, hg, -⟩
    · exact Int.le_of_eq hlast.symm
    · have hold := h.id_le id g hg
      have hgrows := s.lastId_le_perform operation
      omega
  · intro id f other g hf hg hfdefault hgdefault hshares
    rcases find?_perform_cases hf with ⟨draft, -, -, rfl⟩ | ⟨f', hf', hfsame, hfmark⟩
    · cases hfdefault
    rcases find?_perform_cases hg with ⟨draft, -, -, rfl⟩ | ⟨g', hg', hgsame, hgmark⟩
    · cases hgdefault
    -- a mark that was not there before is that of the filter that the operation marks
    rcases hfmark hfdefault with hfold | rfl
    · rcases hgmark hgdefault with hgold | rfl
      · rw [hfsame.sharesDefault_eq hgsame] at hshares
        exact h.default_unique id f' other g' hf' hg' hfold hgold hshares
      · by_cases hsame : id = other
        · exact hsame
        have hapart := h.marked_alone hg' hsame hf hfdefault
        rw [← SavedFilter.SameFilter.sharesDefault_eq (.refl f) hgsame, hshares] at hapart
        cases hapart
    · by_cases hsame : other = id
      · exact hsame.symm
      have hapart := h.marked_alone hf' hsame hg hgdefault
      rw [hfsame.sharesDefault_eq (.refl g), SavedFilter.sharesDefault_iff] at hshares
      obtain ⟨hidentifier, hview, howner⟩ := hshares
      have hback : g.sharesDefault f' = true :=
        (SavedFilter.sharesDefault_iff g f').mpr ⟨hidentifier.symm, hview.symm, howner.symm⟩
      rw [hback] at hapart
      cases hapart

theorem Consistent.performAll (operations : List StoreOperation) :
    (s.performAll operations).Consistent := by
  induction operations generalizing s with
  | nil => exact h
  | cons operation rest ih => exact ih (h.perform operation)

end

/-- A store that began empty is consistent. -/
theorem performAll_consistent (operations : List StoreOperation) :
    (empty.performAll operations).Consistent :=
  empty_consistent.performAll operations

/-! ## Histories -/

/-- The mark of a filter after a target was marked. -/
theorem Consistent.yieldTo_eq {s : FilterStore} (h : s.Consistent) {id other : Int}
    {target f : SavedFilter} (hf : s.find? other = some f) (hother : other ≠ id) :
    yieldTo id target f =
      if f.sharesDefault target then { f with isDefault := false } else f := by
  have hid : (f.id != id) = true := by
    rw [h.id_eq other f hf]
    exact bne_iff_ne.mpr hother
  unfold yieldTo
  rw [hid, Bool.true_and]
  cases hdefault : f.isDefault with
  | true => simp
  | false =>
    -- clearing a mark that is not there changes nothing
    have hself : { f with isDefault := false } = f := by
      rw [← hdefault]
    simp [hself]

/-- After any operations on an empty store, of the filters of one listing, view and owner at most
one is the default, every entry lies under the identifier of its filter, and no identifier exceeds
the one handed out last.  An identifier is not handed out again, whatever happens in between.
Marking a filter that exists succeeds, makes it the default, and otherwise only takes the marks of
filters of the same listing, view and owner. -/
theorem store_history (operations : List StoreOperation) :
    let s := empty.performAll operations
    (∀ one ∈ s.entries, ∀ two ∈ s.entries, one.2.isDefault = true → two.2.isDefault = true →
      one.2.identifier = two.2.identifier → one.2.view = two.2.view → one.2.owner = two.2.owner →
        one = two) ∧
    (∀ entry ∈ s.entries, entry.1 = entry.2.id ∧ entry.1 ≤ s.lastId) ∧
    s.lastId ≤ operations.length ∧
    (∀ draft between draft',
      (((s.perform (.create draft)).performAll between).create draft').1.id ≠
        (s.create draft).1.id) ∧
    ∀ id target, s.find? id = some target → ∃ marked,
      s.markDefault id = .ok ({ target with isDefault := true }, marked) ∧
        marked.find? id = some { target with isDefault := true } ∧
        ∀ other, other ≠ id → marked.find? other = (s.find? other).map fun f =>
          if f.sharesDefault target then { f with isDefault := false } else f := by
  intro s
  have h : s.Consistent := performAll_consistent operations
  have hfind : ∀ entry ∈ s.entries, s.find? entry.1 = some entry.2 := fun entry hentry =>
    (h.increasing.mem_iff entry.1 entry.2).mp hentry
  refine ⟨?_, ?_, ?_, ?_, ?_⟩
  · intro one hone two htwo hdefault hdefault' hidentifier hview howner
    have hkey : one.1 = two.1 := h.default_unique one.1 one.2 two.1 two.2 (hfind one hone)
      (hfind two htwo) hdefault hdefault'
      ((SavedFilter.sharesDefault_iff one.2 two.2).mpr ⟨hidentifier, hview, howner⟩)
    have hfilter : some one.2 = some two.2 := by
      rw [← hfind one hone, hkey]
      exact hfind two htwo
    exact Prod.ext hkey (Option.some.inj hfilter)
  · intro entry hentry
    exact ⟨(h.id_eq entry.1 entry.2 (hfind entry hentry)).symm,
      h.id_le entry.1 entry.2 (hfind entry hentry)⟩
  · have hle := empty.lastId_performAll_le operations
    have hzero : empty.lastId = 0 := rfl
    show (empty.performAll operations).lastId ≤ operations.length
    omega
  · intro draft between draft'
    have hgrows := (s.perform (.create draft)).lastId_le_performAll between
    rw [lastId_perform] at hgrows
    show ((s.perform (.create draft)).performAll between).lastId + 1 ≠ s.lastId + 1
    simp only at hgrows
    omega
  · intro id target htarget
    have hsame : yieldTo id target target = target := by
      unfold yieldTo
      rw [h.id_eq id target htarget]
      simp
    have hmark : s.markDefault id = .ok ({ target with isDefault := true },
        s.perform (.markDefault id)) := by
      show _ = Except.ok (_, ((s.markDefault id).map Prod.snd).toOption.getD s)
      rw [markDefault_eq_ok s id htarget, hsame]
      rfl
    refine ⟨s.perform (.markDefault id), hmark, ?_, ?_⟩
    · rw [find?_markDefault, htarget]
      simp [hsame]
    · intro other hother
      rw [find?_markDefault, htarget]
      refine Option.map_congr fun f hf => ?_
      rw [if_neg hother.symm]
      exact h.yieldTo_eq hf hother

/-- Marking the second filter of user 1 takes the mark of their first one and leaves that of the
system; the identifier of a deleted filter is not used again. -/
theorem store_history_sample :
    let draft (owner : Option Int) : FilterDraft :=
      { owner := owner, name := "mine", identifier := "contacts", view := "table", rules := .null }
    let s := empty.performAll [.create (draft (some 1)), .create (draft none),
      .create (draft (some 1)), .markDefault 1, .markDefault 2, .markDefault 7]
    (((s.perform (.create (draft none))).performAll [.delete 4]).create (draft none)).1.id ≠
        (s.create (draft none)).1.id ∧
      ∃ changed marked, s.markDefault 3 = .ok (changed, marked) ∧
        (s.find? 1).map SavedFilter.isDefault = some true ∧
        (marked.find? 1).map SavedFilter.isDefault = some false ∧
        (marked.find? 2).map SavedFilter.isDefault = some true ∧
        (marked.find? 3).map SavedFilter.isDefault = some true := by
  intro draft s
  obtain ⟨-, -, -, hfresh, hmark⟩ := store_history [.create (draft (some 1)), .create (draft none),
    .create (draft (some 1)), .markDefault 1, .markDefault 2, .markDefault 7]
  have hfirst : s.find? 1 = some { (draft (some 1)).save 1 with isDefault := true } := by rfl
  have hshared : s.find? 2 = some { (draft none).save 2 with isDefault := true } := by rfl
  obtain ⟨marked, hmarked, hthird, hothers⟩ := hmark 3 ((draft (some 1)).save 3) (by rfl)
  refine ⟨hfresh (draft none) [.delete 4] (draft none), _, marked, hmarked, ?_, ?_, ?_, ?_⟩
  · rw [hfirst]
    rfl
  · rw [hothers 1 (by decide), hfirst]
    decide
  · rw [hothers 2 (by decide), hshared]
    decide
  · rw [hthird]
    rfl

end Winnow.FilterStore
