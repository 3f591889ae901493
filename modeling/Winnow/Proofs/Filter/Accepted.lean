import Winnow.Filter.FilterSet
import Winnow.Proofs.Success

/-!
# Accepted filters

A set is built of the filters that it is given, each of them consistent and
under its own identifier, so a filter of an accepted set is found by its
identifier (`FilterSet.Accepted`).  Consistent filters have what their kind needs,
down to the filters of their operands (`Filter.check_ok_iff`).
-/

namespace Winnow

namespace Filter

/-! ## Consistency -/

theorem check_ok_iff (f : Filter) :
    f.check = .ok () ↔
      f.checkSelf = .ok () ∧ checkOperands f.operands = .ok () ∧ f.checkCountable = .ok () := by
  cases f
  unfold check
  simp only [bind, Except.bind]
  split
  next h => simp [h]
  next h =>
    rw [h]
    split
    next h' => simp [h']
    next h' => simp [h']

/-- What a filter by itself must have, in order of the errors. -/
theorem checkSelf_ok_iff (f : Filter) :
    f.checkSelf = .ok () ↔
      (f.kind.usesOperands = true → f.operands ≠ []) ∧
      (f.kind = .hasMany → f.relation ≠ none) ∧
      (f.kind = .tags → f.relation ≠ none) ∧
      (f.kind = .static → f.custom ≠ none) ∧
      (f.countable ≠ none → f.operands = []) := by
  have hstep : ∀ {condition : Bool} {error : CompileError} {rest : Except CompileError Unit},
      (if condition then .error error else rest) = .ok () ↔ condition = false ∧ rest = .ok () := by
    intro condition error rest
    cases condition <;> simp
  unfold checkSelf
  rw [hstep, hstep, hstep, hstep, hstep]
  simp [Option.isSome_iff_ne_none]

/-- A consistent filter has consistent operands, none of them a has-many filter. -/
theorem checkOperands_ok {operands : List Operand} (h : checkOperands operands = .ok ()) :
    ∀ operand ∈ operands, operand.filter.kind ≠ .hasMany ∧ operand.filter.check = .ok () := by
  induction operands with
  | nil => exact List.forall_mem_nil _
  | cons operand rest ih =>
    obtain ⟨value, label, filter⟩ := operand
    unfold checkOperands at h
    split at h
    · cases h
    next hkind =>
      obtain ⟨⟨⟩, hfilter, hrest⟩ := bind_eq_ok h
      refine List.forall_mem_cons.mpr ⟨⟨?_, hfilter⟩, ih hrest⟩
      intro hmany
      exact hkind (beq_iff_eq.mpr hmany)

end Filter

namespace FilterSet

/-! ## Sets -/

/-- Whether every filter is consistent and found by its identifier. -/
structure Accepted (set : FilterSet) : Prop where
  check : ∀ f ∈ set.filters, f.check = .ok ()
  get? : ∀ f ∈ set.filters, set.get? f.id = some f

theorem Accepted.add {set next : FilterSet} (h : set.Accepted) {f : Filter}
    (hadd : set.add f = .ok next) : next.Accepted ∧ next.filters = set.filters ++ [f] := by
  unfold FilterSet.add at hadd
  obtain ⟨⟨⟩, hcheck, hadd⟩ := bind_eq_ok hadd
  split at hadd
  · cases hadd
  next hnew =>
    cases hadd
    have hnone : set.get? f.id = none := by
      cases hfound : set.get? f.id with
      | none => rfl
      | some other => exact absurd (by rw [hfound]; rfl) hnew
    have hget : ∀ id, FilterSet.get? ⟨set.filters ++ [f]⟩ id =
        (set.get? id).or (if f.id == id then some f else none) := by
      intro id
      unfold FilterSet.get?
      rw [List.find?_append, List.find?_singleton]
    refine ⟨⟨fun g hg => ?_, fun g hg => ?_⟩, rfl⟩
    · rcases List.mem_append.mp hg with hg | hg
      · exact h.check g hg
      · rw [List.mem_singleton.mp hg]
        exact hcheck
    · rw [hget]
      rcases List.mem_append.mp hg with hg | hg
      · rw [h.get? g hg]
        rfl
      · rw [List.mem_singleton.mp hg, hnone, if_pos (beq_self_eq_true _)]
        rfl

/-- A set that is accepted consists of the filters that it was given. -/
theorem ofList_accepted {filters : List Filter} {set : FilterSet} (h : ofList filters = .ok set) :
    set.Accepted ∧ set.filters = filters := by
  have hall : ∀ (filters : List Filter) (start : FilterSet), start.Accepted →
      filters.foldlM FilterSet.add start = .ok set →
      set.Accepted ∧ set.filters = start.filters ++ filters := by
    intro filters
    induction filters with
    | nil =>
      intro start hstart h
      cases h
      exact ⟨hstart, (List.append_nil _).symm⟩
    | cons f rest ih =>
      intro start hstart h
      obtain ⟨next, hadd, hrest⟩ := bind_eq_ok h
      obtain ⟨hnext, hfilters⟩ := hstart.add hadd
      obtain ⟨hset, heq⟩ := ih next hnext hrest
      refine ⟨hset, heq.trans ?_⟩
      rw [hfilters, List.append_assoc]
      rfl
  exact hall filters empty ⟨List.forall_mem_nil _, List.forall_mem_nil _⟩ h

theorem ofList_singleton {f : Filter} (h : f.check = .ok ()) : ofList [f] = .ok ⟨[f]⟩ := by
  unfold ofList
  rw [List.foldlM_cons]
  unfold add
  rw [h]
  rfl

end FilterSet
end Winnow
