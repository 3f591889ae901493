import Mathlib.Data.List.Sort
import Winnow.Proofs.SavedFilter.History
import Winnow.SavedFilter.Source

/-!
# What a user reads

All that a user reads from a store are filters of their own and filters of the
system.  Which of them a look-up, a list, a default or a source of rules comes to
is said by equivalences in terms of these filters alone (`findVisible?_eq_some_iff`,
`mem_listVisible`, `findDefault?_eq_some_iff`), so stores that offer a user the
same filters answer alike, whatever filters of others they hold
(`reads_only_offered`).
-/

namespace Winnow

theorem SavedFilter.isVisibleTo_iff (f : SavedFilter) (user : Int) :
    f.isVisibleTo user = true ↔ f.owner = some user ∨ f.owner = none := by
  unfold isVisibleTo
  cases f.owner <;> simp

theorem SavedFilter.isSystem_iff (f : SavedFilter) : f.isSystem = true ↔ f.owner = none :=
  Option.isNone_iff_eq_none

namespace FilterStore

/-- Whether a store holds a filter that a user owns or that has no owner. -/
def Offers (s : FilterStore) (user : Int) (f : SavedFilter) : Prop :=
  f ∈ s.filters ∧ (f.owner = some user ∨ f.owner = none)

/-- Whether a store holds a filter as the default of a listing, a view and an owner. -/
structure HoldsDefault (s : FilterStore) (identifier view : String) (owner : Option Int)
    (f : SavedFilter) : Prop where
  mem : f ∈ s.filters
  isDefault : f.isDefault = true
  identifier_eq : f.identifier = identifier
  view_eq : f.view = view
  owner_eq : f.owner = owner

/-- Whether a filter applies when a user asks for nothing else: their own default or, without one,
that of the system. -/
def AppliesByDefault (s : FilterStore) (identifier view : String) (user : Int) (f : SavedFilter) :
    Prop :=
  s.HoldsDefault identifier view (some user) f ∨
    (∀ own, ¬s.HoldsDefault identifier view (some user) own) ∧
      s.HoldsDefault identifier view none f

section
variable {s t : FilterStore} {identifier view : String} {owner : Option Int} {user id : Int}
  {f g : SavedFilter}

/-- A default that a user can apply is offered to them. -/
theorem HoldsDefault.offers (h : s.HoldsDefault identifier view owner f)
    (howner : owner = some user ∨ owner = none) : s.Offers user f := by
  refine ⟨h.mem, ?_⟩
  rw [h.owner_eq]
  exact howner

theorem AppliesByDefault.offers (h : s.AppliesByDefault identifier view user f) :
    s.Offers user f := by
  rcases h with hown | ⟨-, hsystem⟩
  · exact hown.offers (.inl rfl)
  · exact hsystem.offers (.inr rfl)

theorem AppliesByDefault.identifier_eq (h : s.AppliesByDefault identifier view user f) :
    f.identifier = identifier := by
  rcases h with hown | ⟨-, hsystem⟩
  · exact hown.identifier_eq
  · exact hsystem.identifier_eq

/-- Defaults that a user can apply are the same where the same filters are offered. -/
theorem HoldsDefault.congr (hsame : ∀ f, s.Offers user f ↔ t.Offers user f)
    (howner : owner = some user ∨ owner = none) :
    s.HoldsDefault identifier view owner f ↔ t.HoldsDefault identifier view owner f := by
  constructor
  · intro h
    exact { h with mem := ((hsame f).mp (h.offers howner)).1 }
  · intro h
    exact { h with mem := ((hsame f).mpr (h.offers howner)).1 }

theorem AppliesByDefault.congr (hsame : ∀ f, s.Offers user f ↔ t.Offers user f) :
    s.AppliesByDefault identifier view user f ↔ t.AppliesByDefault identifier view user f := by
  unfold AppliesByDefault
  simp only [HoldsDefault.congr hsame (.inl rfl), HoldsDefault.congr hsame (.inr rfl)]

/-! ## Members of a consistent store -/

theorem Consistent.mem_filters (h : s.Consistent) : f ∈ s.filters ↔ s.find? f.id = some f := by
  unfold filters
  rw [List.mem_map]
  constructor
  · rintro ⟨⟨key, f⟩, hentry, rfl⟩
    have hfind : s.find? key = some f := (h.increasing.mem_iff key f).mp hentry
    show s.find? f.id = some f
    rw [h.id_eq key f hfind]
    exact hfind
  · intro hfind
    exact ⟨(f.id, f), (h.increasing.mem_iff f.id f).mpr hfind, rfl⟩

/-- The filters come in increasing order of the identifiers that they know. -/
theorem Consistent.filters_increasing (h : s.Consistent) :
    s.filters.Pairwise fun f g => f.id < g.id := by
  have hkey : ∀ entry ∈ s.entries, entry.2.id = entry.1 := fun entry hentry =>
    h.id_eq entry.1 entry.2 ((h.increasing.mem_iff entry.1 entry.2).mp hentry)
  refine List.pairwise_map.mpr (List.Pairwise.imp_of_mem ?_ h.increasing)
  intro a b ha hb hlt
  rw [hkey a ha, hkey b hb]
  exact hlt

theorem Consistent.default_eq (h : s.Consistent) (hf : s.HoldsDefault identifier view owner f)
    (hg : s.HoldsDefault identifier view owner g) : f = g := by
  have hfind := h.mem_filters.mp hf.mem
  have hshares : f.sharesDefault g = true := (SavedFilter.sharesDefault_iff f g).mpr
    ⟨hf.identifier_eq.trans hg.identifier_eq.symm, hf.view_eq.trans hg.view_eq.symm,
      hf.owner_eq.trans hg.owner_eq.symm⟩
  have hid : f.id = g.id := h.default_unique f.id f g.id g hfind (h.mem_filters.mp hg.mem)
    hf.isDefault hg.isDefault hshares
  rw [hid, h.mem_filters.mp hg.mem] at hfind
  exact (Option.some.inj hfind).symm

/-! ## What each read comes to -/

theorem findVisible?_eq_some_iff (h : s.Consistent) :
    s.findVisible? id user = some f ↔ s.Offers user f ∧ f.id = id := by
  unfold findVisible? Offers
  rw [Option.filter_eq_some_iff, SavedFilter.isVisibleTo_iff, h.mem_filters]
  constructor
  · rintro ⟨hfind, hvisible⟩
    have hid := h.id_eq id f hfind
    exact ⟨⟨hid.symm ▸ hfind, hvisible⟩, hid⟩
  · rintro ⟨⟨hfind, hvisible⟩, rfl⟩
    exact ⟨hfind, hvisible⟩

theorem mem_listVisible :
    f ∈ s.listVisible identifier user ↔ s.Offers user f ∧ f.identifier = identifier := by
  unfold listVisible Offers
  rw [List.mem_mergeSort, List.mem_filter, Bool.and_eq_true, beq_iff_eq,
    SavedFilter.isVisibleTo_iff]
  exact ⟨fun ⟨hmem, hidentifier, hvisible⟩ => ⟨⟨hmem, hvisible⟩, hidentifier⟩,
    fun ⟨⟨hmem, hvisible⟩, hidentifier⟩ => ⟨hmem, hidentifier, hvisible⟩⟩

theorem isDefaultFor_iff :
    isDefaultFor identifier view user f = true ↔
      f.isDefault = true ∧ f.identifier = identifier ∧ f.view = view ∧
        (f.owner = some user ∨ f.owner = none) := by
  unfold isDefaultFor
  rw [Bool.and_eq_true, Bool.and_eq_true, Bool.and_eq_true, beq_iff_eq, beq_iff_eq,
    SavedFilter.isVisibleTo_iff]
  tauto

/-- The defaults of one owner among those that a user can see are found, and no others. -/
theorem find?_defaults_eq_some_iff (h : s.Consistent) {ofOwner : SavedFilter → Bool}
    (hpick : ∀ f, (f.owner = some user ∨ f.owner = none) → (ofOwner f = true ↔ f.owner = owner))
    (howner : owner = some user ∨ owner = none) :
    (s.filters.filter (isDefaultFor identifier view user)).find? ofOwner = some f ↔
      s.HoldsDefault identifier view owner f := by
  have hmem : ∀ g, (g ∈ s.filters.filter (isDefaultFor identifier view user) ∧ ofOwner g = true) ↔
      s.HoldsDefault identifier view owner g := by
    intro g
    rw [List.mem_filter, isDefaultFor_iff]
    constructor
    · rintro ⟨⟨hg, hdefault, hidentifier, hview, hvisible⟩, hof⟩
      exact ⟨hg, hdefault, hidentifier, hview, (hpick g hvisible).mp hof⟩
    · intro hg
      have hvisible : g.owner = some user ∨ g.owner = none := hg.owner_eq.symm ▸ howner
      exact ⟨⟨hg.mem, hg.isDefault, hg.identifier_eq, hg.view_eq, hvisible⟩,
        (hpick g hvisible).mpr hg.owner_eq⟩
  constructor
  · intro hfind
    exact (hmem f).mp ⟨List.mem_of_find?_eq_some hfind, List.find?_some hfind⟩
  · intro hf
    obtain ⟨hlisted, hof⟩ := (hmem f).mpr hf
    cases hfind : (s.filters.filter (isDefaultFor identifier view user)).find? ofOwner with
    | none => exact absurd hof (List.find?_eq_none.mp hfind f hlisted)
    | some g =>
      -- what comes first in the store makes no difference, as there is only one
      have hg := (hmem g).mp ⟨List.mem_of_find?_eq_some hfind, List.find?_some hfind⟩
      rw [h.default_eq hg hf]

theorem findDefault?_eq_some_iff (h : s.Consistent) :
    s.findDefault? identifier view user = some f ↔ s.AppliesByDefault identifier view user f := by
  have hown : ∀ g, (s.filters.filter (isDefaultFor identifier view user)).find?
      (fun f => !f.isSystem) = some g ↔ s.HoldsDefault identifier view (some user) g := by
    intro g
    refine find?_defaults_eq_some_iff h (fun f hvisible => ?_) (.inl rfl)
    rw [Bool.not_eq_true', ← Bool.not_eq_true, SavedFilter.isSystem_iff]
    rcases hvisible with howner | howner <;> simp [howner]
  have hsystem : (s.filters.filter (isDefaultFor identifier view user)).find?
      SavedFilter.isSystem = some f ↔ s.HoldsDefault identifier view none f :=
    find?_defaults_eq_some_iff h (fun f _ => f.isSystem_iff) (.inr rfl)
  unfold findDefault? AppliesByDefault
  simp only
  rw [Option.or_eq_some_iff, hown, hsystem, Option.eq_none_iff_forall_ne_some]
  simp only [ne_eq, hown]

/-! ## Stores that offer the same -/

section
variable (hs : s.Consistent) (ht : t.Consistent)
  (hsame : ∀ f, s.Offers user f ↔ t.Offers user f)

include hs ht hsame

theorem findVisible?_congr : s.findVisible? id user = t.findVisible? id user := by
  refine Option.ext fun f => ?_
  rw [findVisible?_eq_some_iff hs, findVisible?_eq_some_iff ht, hsame]

theorem findDefault?_congr :
    s.findDefault? identifier view user = t.findDefault? identifier view user := by
  refine Option.ext fun f => ?_
  rw [findDefault?_eq_some_iff hs, findDefault?_eq_some_iff ht, AppliesByDefault.congr hsame]

/-- The filters to be listed lie in the same order before they are sorted. -/
theorem listVisible_congr : s.listVisible identifier user = t.listVisible identifier user := by
  let order : SavedFilter → SavedFilter → Prop := fun f g => f.id < g.id
  have : Std.Irrefl order := ⟨fun f => Int.lt_irrefl f.id⟩
  have : Std.Antisymm order := ⟨fun f g hlt hgt => absurd (Int.lt_trans hlt hgt) (Int.lt_irrefl _)⟩
  have hlisted : (s.filters.filter fun f => f.identifier == identifier && f.isVisibleTo user) =
      t.filters.filter fun f => f.identifier == identifier && f.isVisibleTo user := by
    refine List.Pairwise.eq_of_mem_iff (r := order) (hs.filters_increasing.filter _)
      (ht.filters_increasing.filter _) fun f => ?_
    have hf : f ∈ s.listVisible identifier user ↔ f ∈ t.listVisible identifier user := by
      rw [mem_listVisible, mem_listVisible, hsame]
    simpa only [listVisible, List.mem_mergeSort] using hf
  unfold listVisible
  rw [hlisted]

theorem resolve_congr (source : RuleSource) :
    source.resolve s identifier view user = source.resolve t identifier view user := by
  unfold RuleSource.resolve
  simp only [findVisible?_congr hs ht hsame, findDefault?_congr hs ht hsame]

end

/-! ## Sources of rules -/

theorem resolve_inline {source : RuleSource} {rules : Json} (hrules : source.rules = some rules)
    (hnull : rules.isNull = false) : source.resolve s identifier view user = some rules := by
  have hinline : source.inline? = some rules := by
    unfold RuleSource.inline?
    rw [hrules, Option.filter_some, hnull]
    rfl
  unfold RuleSource.resolve
  rw [hinline]

section
variable {source : RuleSource} {rules : Json}
  (hnull : ∀ rules, source.rules = some rules → rules.isNull = true)

include hnull

theorem inline?_eq_none : source.inline? = none := by
  unfold RuleSource.inline?
  rw [Option.filter_eq_none_iff]
  intro rules hrules
  rw [hnull rules hrules]
  decide

/-- A filter that is asked for applies to its own listing only, and nothing takes its place. -/
theorem resolve_filter (h : s.Consistent) (hfilter : source.filter = some id) :
    source.resolve s identifier view user = some rules ↔
      ∃ f, s.Offers user f ∧ f.id = id ∧ f.identifier = identifier ∧ f.rules = rules := by
  unfold RuleSource.resolve
  rw [inline?_eq_none hnull, hfilter]
  simp only [Option.map_eq_some_iff, Option.filter_eq_some_iff, findVisible?_eq_some_iff h,
    beq_iff_eq, and_assoc]

theorem resolve_default (h : s.Consistent) (hfilter : source.filter = none)
    (hdefault : source.withDefault = true) :
    source.resolve s identifier view user = some rules ↔
      ∃ f, s.AppliesByDefault identifier view user f ∧ f.rules = rules := by
  unfold RuleSource.resolve
  rw [inline?_eq_none hnull, hfilter]
  simp only [hdefault, if_true, Option.map_eq_some_iff, findDefault?_eq_some_iff h]

theorem resolve_nothing (hfilter : source.filter = none) (hdefault : source.withDefault = false) :
    source.resolve s identifier view user = none := by
  unfold RuleSource.resolve
  rw [inline?_eq_none hnull, hfilter]
  simp [hdefault]

end

/-- Rules come from the request or from a filter that the user owns or that has no owner. -/
theorem resolve_offered {source : RuleSource} {rules : Json} (h : s.Consistent)
    (hresolve : source.resolve s identifier view user = some rules) :
    (source.rules = some rules ∧ rules.isNull = false) ∨
      ∃ f, s.Offers user f ∧ f.identifier = identifier ∧ f.rules = rules := by
  by_cases hnull : ∀ rules, source.rules = some rules → rules.isNull = true
  · refine .inr ?_
    cases hfilter : source.filter with
    | some id =>
      obtain ⟨f, hoffers, -, hidentifier, hrules⟩ := (resolve_filter hnull h hfilter).mp hresolve
      exact ⟨f, hoffers, hidentifier, hrules⟩
    | none =>
      cases hdefault : source.withDefault with
      | true =>
        obtain ⟨f, hf, hrules⟩ := (resolve_default hnull h hfilter hdefault).mp hresolve
        exact ⟨f, hf.offers, hf.identifier_eq, hrules⟩
      | false =>
        rw [resolve_nothing hnull hfilter hdefault] at hresolve
        cases hresolve
  · obtain ⟨inlined, hinlined⟩ := not_forall.mp hnull
    obtain ⟨hrules, hkept⟩ := Classical.not_imp.mp hinlined
    rw [Bool.not_eq_true] at hkept
    rw [resolve_inline hrules hkept] at hresolve
    cases hresolve
    exact .inl ⟨hrules, hkept⟩

end

/-! ## Reads of a user -/

/-- After any operations on an empty store, what a user reads are filters that they own or that have
no owner: a look-up by identifier, the list and the default of a listing come to exactly those of
them that are asked for, and of each owner there is at most one default.  A source of rules resolves
to its own rules unless they are null; else to those of the filter that it names, if it is offered
and of the listing, and never to the default instead; else, if it asks for it, to the default of the
user or, without one, to that of the system.  A store with another history that offers the user the
same filters answers all of this alike. -/
theorem reads_only_offered (operations others : List StoreOperation) (user : Int) :
    let s := empty.performAll operations
    let t := empty.performAll others
    ((∀ id f, s.findVisible? id user = some f ↔ s.Offers user f ∧ f.id = id) ∧
      (∀ identifier f,
        f ∈ s.listVisible identifier user ↔ s.Offers user f ∧ f.identifier = identifier) ∧
      (∀ identifier view f, s.findDefault? identifier view user = some f ↔
        s.AppliesByDefault identifier view user f) ∧
      ∀ identifier view owner f g, s.HoldsDefault identifier view owner f →
        s.HoldsDefault identifier view owner g → f = g) ∧
    (∀ (source : RuleSource) identifier view,
      (∀ rules, source.resolve s identifier view user = some rules →
        (source.rules = some rules ∧ rules.isNull = false) ∨
          ∃ f, s.Offers user f ∧ f.identifier = identifier ∧ f.rules = rules) ∧
      (∀ rules, source.rules = some rules → rules.isNull = false →
        source.resolve s identifier view user = some rules) ∧
      ((∀ rules, source.rules = some rules → rules.isNull = true) →
        (∀ id, source.filter = some id → ∀ rules,
          source.resolve s identifier view user = some rules ↔
            ∃ f, s.Offers user f ∧ f.id = id ∧ f.identifier = identifier ∧ f.rules = rules) ∧
        (source.filter = none → source.withDefault = true → ∀ rules,
          source.resolve s identifier view user = some rules ↔
            ∃ f, s.AppliesByDefault identifier view user f ∧ f.rules = rules) ∧
        (source.filter = none → source.withDefault = false →
          source.resolve s identifier view user = none))) ∧
    ((∀ f, s.Offers user f ↔ t.Offers user f) →
      (∀ id, s.findVisible? id user = t.findVisible? id user) ∧
      (∀ identifier, s.listVisible identifier user = t.listVisible identifier user) ∧
      (∀ identifier view,
        s.findDefault? identifier view user = t.findDefault? identifier view user) ∧
      ∀ (source : RuleSource) identifier view,
        source.resolve s identifier view user = source.resolve t identifier view user) := by
  intro s t
  have hs : s.Consistent := performAll_consistent operations
  have ht : t.Consistent := performAll_consistent others
  refine ⟨⟨?_, ?_, ?_, ?_⟩, ?_, ?_⟩
  · exact fun id f => findVisible?_eq_some_iff hs
  · exact fun identifier f => mem_listVisible
  · exact fun identifier view f => findDefault?_eq_some_iff hs
  · exact fun identifier view owner f g => hs.default_eq
  · intro source identifier view
    refine ⟨fun rules => resolve_offered hs, fun rules => resolve_inline, fun hnull => ?_⟩
    refine ⟨fun id hfilter rules => ?_, fun hfilter hdefault rules => ?_, ?_⟩
    · exact resolve_filter hnull hs hfilter
    · exact resolve_default hnull hs hfilter hdefault
    · exact resolve_nothing hnull
  · intro hsame
    exact ⟨fun id => findVisible?_congr hs ht hsame,
      fun identifier => listVisible_congr hs ht hsame,
      fun identifier view => findDefault?_congr hs ht hsame,
      fun source identifier view => resolve_congr hs ht hsame source⟩

/-- Filters of the same listing and view. -/
def contactsDraft (owner : Option Int) (name : String) : FilterDraft :=
  { owner := owner, name := name, identifier := "contacts", view := "table",
    rules := .string name }

/-- A filter of user 1, and a default of the system. -/
def sharedHistory : List StoreOperation :=
  [.create (contactsDraft (some 1) "mine"), .create (contactsDraft none "shared"), .markDefault 2]

/-- The same with a default of user 2. -/
def theirHistory : List StoreOperation :=
  sharedHistory ++ [.create (contactsDraft (some 2) "theirs"), .markDefault 3]

/-- User 1 reads the same whether user 2 marks a default of the same listing and view or not: the
default of the system for the listing, and nothing for the filter of user 2. -/
theorem reads_only_offered_sample :
    (∀ f, (empty.performAll sharedHistory).Offers 1 f ↔
      (empty.performAll theirHistory).Offers 1 f) ∧
    RuleSource.resolve { withDefault := true } (empty.performAll theirHistory) "contacts" "table"
      1 = some (.string "shared") ∧
    RuleSource.resolve { filter := some 3, withDefault := true } (empty.performAll theirHistory)
      "contacts" "table" 1 = none ∧
    RuleSource.resolve { withDefault := true } (empty.performAll theirHistory) "contacts" "table"
      2 = some (.string "theirs") := by
  have hsame : ∀ f, (empty.performAll sharedHistory).Offers 1 f ↔
      (empty.performAll theirHistory).Offers 1 f := by
    intro f
    show (f ∈ (empty.performAll sharedHistory).filters ∧ _) ↔
      (f ∈ (empty.performAll sharedHistory).filters ++ [_] ∧ _)
    rw [List.mem_append, List.mem_singleton]
    constructor
    · exact fun ⟨hf, howner⟩ => ⟨.inl hf, howner⟩
    · rintro ⟨hf | rfl, howner⟩
      · exact ⟨hf, howner⟩
      · rcases howner with howner | howner <;> cases howner
  obtain ⟨-, -, hreads⟩ := reads_only_offered sharedHistory theirHistory 1
  obtain ⟨-, -, -, hresolve⟩ := hreads hsame
  refine ⟨hsame, ?_, ?_, rfl⟩
  · rw [← hresolve { withDefault := true } "contacts" "table"]
    rfl
  · rw [← hresolve { filter := some 3, withDefault := true } "contacts" "table"]
    rfl

end FilterStore
end Winnow
