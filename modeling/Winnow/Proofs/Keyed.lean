import Winnow.Keyed

/-!
# Looking up entries

Putting an entry changes the value of its key and of no other (`get?_put`).  So
a value under a key of a list of pairs is one of the pairs, and every key of the
pairs has a value (`get?_ofPairs`).
-/

namespace Winnow.Keyed

section
variable {α : Type}

/-! ## One entry -/

theorem get?_put (entries : Keyed α) (key other : String) (value : α) :
    (entries.put key value).get? other = if key = other then some value else entries.get? other := by
  induction entries with
  | nil => rfl
  | cons entry rest ih =>
    obtain ⟨k, v⟩ := entry
    unfold put
    by_cases hk : k = key
    · subst hk
      rw [if_pos rfl, get?, get?]
      by_cases h : k = other
      · rw [if_pos h, if_pos h]
      · rw [if_neg h, if_neg h, if_neg h]
    · rw [if_neg hk]
      split
      · rw [get?]
      · rw [get?, ih, get?]
        by_cases h : k = other
        · have hkey : key ≠ other := fun hkey => hk (h.trans hkey.symm)
          rw [if_pos h, if_pos h, if_neg hkey]
        · rw [if_neg h, if_neg h]

theorem mem_of_get? {entries : Keyed α} {key : String} {value : α}
    (h : entries.get? key = some value) : (key, value) ∈ entries := by
  induction entries with
  | nil => cases h
  | cons entry rest ih =>
    obtain ⟨k, v⟩ := entry
    rw [get?] at h
    by_cases hk : k = key
    · rw [if_pos hk] at h
      rw [← Option.some.inj h, hk]
      exact List.mem_cons_self
    · rw [if_neg hk] at h
      exact List.mem_cons_of_mem (k, v) (ih h)

theorem mem_values_of_get? {entries : Keyed α} {key : String} {value : α}
    (h : entries.get? key = some value) : value ∈ entries.values :=
  List.mem_map.mpr ⟨(key, value), mem_of_get? h, rfl⟩

theorem mem_of_mem_put {entries : Keyed α} {key : String} {value : α} {entry : String × α}
    (h : entry ∈ entries.put key value) : entry = (key, value) ∨ entry ∈ entries := by
  induction entries with
  | nil => exact .inl (List.mem_singleton.mp h)
  | cons first rest ih =>
    obtain ⟨k, v⟩ := first
    unfold put at h
    split at h
    · rcases List.mem_cons.mp h with h | h
      · exact .inl h
      · exact .inr (List.mem_cons_of_mem _ h)
    · split at h
      · exact List.mem_cons.mp h
      · rcases List.mem_cons.mp h with rfl | h
        · exact .inr List.mem_cons_self
        · exact (ih h).imp id (List.mem_cons_of_mem _)

/-! ## Entries from pairs -/

/-- Entries put one after another are entries from before or pairs, and every key that has an entry
or a pair has a value. -/
theorem foldl_put (pairs : List (String × α)) (entries : Keyed α) :
    (∀ entry ∈ pairs.foldl (fun entries pair => entries.put pair.1 pair.2) entries,
      entry ∈ pairs ∨ entry ∈ entries) ∧
    ∀ key, ((∃ pair ∈ pairs, pair.1 = key) ∨ (entries.get? key).isSome) →
      ((pairs.foldl (fun entries pair => entries.put pair.1 pair.2) entries).get? key).isSome := by
  induction pairs generalizing entries with
  | nil => exact ⟨fun entry h => .inr h, fun key h => h.resolve_left (by simp)⟩
  | cons pair pairs ih =>
    obtain ⟨hmem, hkeys⟩ := ih (entries.put pair.1 pair.2)
    rw [List.foldl_cons]
    constructor
    · intro entry h
      rcases hmem entry h with h | h
      · exact .inl (List.mem_cons_of_mem pair h)
      · rcases mem_of_mem_put h with rfl | h
        · exact .inl List.mem_cons_self
        · exact .inr h
    · intro key h
      refine hkeys key ?_
      rw [get?_put]
      by_cases hkey : pair.1 = key
      · exact .inr (by rw [if_pos hkey]; rfl)
      · rw [if_neg hkey]
        rcases h with ⟨other, hother, rfl⟩ | h
        · rcases List.mem_cons.mp hother with rfl | hother
          · exact absurd rfl hkey
          · exact .inl ⟨other, hother, rfl⟩
        · exact .inr h

theorem mem_of_mem_ofPairs {pairs : List (String × α)} {entry : String × α}
    (h : entry ∈ ofPairs pairs) : entry ∈ pairs :=
  ((foldl_put pairs []).1 entry h).resolve_right (by simp)

/-- A key has a value exactly when there is a pair for it, and then the value is that of such a
pair. -/
theorem get?_ofPairs (pairs : List (String × α)) (key : String) :
    match (ofPairs pairs).get? key with
    | some value => (key, value) ∈ pairs
    | none => ∀ pair ∈ pairs, pair.1 ≠ key := by
  cases h : (ofPairs pairs).get? key with
  | some value => exact mem_of_mem_ofPairs (mem_of_get? h)
  | none =>
    intro pair hpair hkey
    have := (foldl_put pairs []).2 key (.inl ⟨pair, hpair, hkey⟩)
    rw [← ofPairs, h] at this
    cases this

end

end Winnow.Keyed
