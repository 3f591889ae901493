import Winnow.Proofs.Filter.Construction
import Winnow.Proofs.Keyed
import Winnow.Proofs.Listing.Parts
import Winnow.Proofs.Sql.Refusals
import Winnow.Resource.Catalog

/-!
# Filters derived from an entity

The filters that an entity is given have no operands, hand no rule to a custom
predicate and compare single columns (`FilterSet.ofEntity_derived`), and so do
those of every resource in a catalog of entities
(`Catalog.ofEntities_derived`).
-/

namespace Winnow

/-- A filter of one column or of a number of rows, without anything of others. -/
structure Filter.IsDerived (f : Filter) : Prop where
  operands : f.operands = []
  custom : f.custom = none
  parts : f.dateTimeParts = none

/-- A set of such filters. -/
def FilterSet.IsDerived (set : FilterSet) : Prop := ∀ f ∈ set.filters, f.IsDerived

namespace FilterSet

theorem IsDerived.plain {set : FilterSet} (h : set.IsDerived) : set.Plain := by
  intro f hf
  obtain ⟨hoperands, hcustom, -⟩ := h f hf
  refine ⟨fun custom hsome => ?_, fun operand hoperand => ?_⟩
  · rw [hcustom] at hsome
    cases hsome
  · rw [hoperands] at hoperand
    exact absurd hoperand List.not_mem_nil

theorem IsDerived.singleColumns {set : FilterSet} (h : set.IsDerived) : set.SingleColumns := by
  intro f hf
  obtain ⟨hoperands, -, hparts⟩ := h f hf
  refine ⟨hparts, fun operand hoperand => ?_⟩
  rw [hoperands] at hoperand
  exact absurd hoperand List.not_mem_nil

theorem columnFilter?_derived {name : String} {type : ColumnType} {f : Filter}
    (h : columnFilter? name type = some f) : f.IsDerived := by
  cases type <;> cases h <;> exact ⟨rfl, rfl, rfl⟩

theorem countFilter?_derived {e : Entity} {name : String} {relation : Relation} {f : Filter}
    (h : countFilter? e name relation = .ok (some f)) : f.IsDerived := by
  unfold countFilter? at h
  simp only at h
  split at h
  · cases h
  · obtain ⟨counting, hcounting, hsame⟩ := map_eq_ok h
    cases hsame
    obtain ⟨-, -, rfl⟩ := Filter.counting_ok_iff.mp hcounting
    exact ⟨rfl, rfl, rfl⟩

theorem ofEntity_derived {e : Entity} {set : FilterSet} (h : ofEntity e = .ok set) :
    set.IsDerived := by
  unfold ofEntity at h
  obtain ⟨counts, hcounts, h⟩ := bind_eq_ok h
  intro f hf
  rw [(ofList_ok_iff.mp h).1] at hf
  rcases List.mem_append.mp hf with hcolumn | hcount
  · obtain ⟨⟨name, type⟩, -, hfilter⟩ := List.mem_filterMap.mp hcolumn
    exact columnFilter?_derived hfilter
  · obtain ⟨found, hfound, hsame⟩ := List.mem_filterMap.mp hcount
    cases hsame
    obtain ⟨⟨name, relation⟩, -, hfilter⟩ := of_mem_mapM hcounts hfound
    exact countFilter?_derived hfilter

end FilterSet

namespace Catalog

/-- Induction over the entities: each adds one resource, with the filters derived from it. -/
theorem ofEntities_derived {registry : Registry} {catalog : Catalog}
    (h : ofEntities registry = .ok catalog) {identifier : String} {resource : Resource}
    (hget : catalog.get identifier = .ok resource) : resource.filters.IsDerived := by
  have hall : ∀ entry ∈ catalog.resources, entry.2.filters.IsDerived := by
    refine @foldlM_keeps _ _ _ _ (fun c : Catalog => ∀ entry ∈ c.resources,
      entry.2.filters.IsDerived) _ _ _ h (fun name _ c next hstep hc => ?_) nofun
    obtain ⟨entity, -, hstep⟩ := bind_eq_ok hstep
    obtain ⟨made, hmade, hstep⟩ := bind_eq_ok hstep
    obtain ⟨filters, hfilters, hmade⟩ := bind_eq_ok (Listing.liftCompile_eq_ok hmade)
    cases hmade
    unfold register at hstep
    obtain ⟨_, -, hstep⟩ := bind_eq_ok hstep
    split at hstep
    · cases hstep
    · cases hstep
      intro entry hentry
      rcases Keyed.mem_of_mem_put hentry with rfl | hold
      · exact FilterSet.ofEntity_derived hfilters
      · exact hc entry hold
  unfold get at hget
  split at hget
  next found hfound =>
    cases hget
    exact hall _ (Keyed.mem_of_get? hfound)
  next => cases hget

end Catalog
end Winnow
