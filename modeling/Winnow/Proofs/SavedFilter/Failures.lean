import Winnow.Proofs.SavedFilter.Interleaving
import Winnow.Proofs.SavedFilter.Prediction
import Winnow.Proofs.SavedFilter.Visibility
import Winnow.Proofs.Success
import Winnow.Proofs.Text.Cutting

/-!
# Calls that fail

Without interruption a call either fails and leaves the store as it was, or makes
operations on it that its checks have vetted (`Call.Settles`,
`FilterService.task_settles`).  Vetted operations keep the filters of a store
usable (`UsableFilters.perform`): they have a name, their resource is known and
their rules are a tree.  So a store that only the service has written to holds
usable filters, and no listing drops their rules as malformed
(`failed_calls_change_nothing`).
-/

namespace Winnow

/-! ## Definitions -/

/-- A request to the service of saved filters. -/
inductive FilterRequest where
  | get (id : Int)
  | list (identifier : String)
  | create (request : SaveRequest)
  | update (id : Int) (changes : FilterChanges)
  | delete (id : Int)
  | markDefault (id : Int)
  | unmarkDefault (id : Int)

/-- What a request of a caller comes to. -/
def FilterService.task (s : FilterService) (caller : Caller) : FilterRequest → Task
  | .get id => ⟨caller, get caller id⟩
  | .list identifier => ⟨caller, s.list caller identifier⟩
  | .create request => ⟨caller, s.create caller request⟩
  | .update id changes => ⟨caller, s.update caller id changes⟩
  | .delete id => ⟨caller, delete caller id⟩
  | .markDefault id => ⟨caller, markDefault caller id⟩
  | .unmarkDefault id => ⟨caller, unmarkDefault caller id⟩

/-- The store after requests of callers, one after another. -/
def FilterService.serveAll (s : FilterService) (store : FilterStore)
    (requests : List (Caller × FilterRequest)) : FilterStore :=
  requests.foldl (fun store made => ((s.task made.1 made.2).call.run store).2) store

/-- Whether rules can be read as a tree, whatever it asks for. -/
def IsTree (rules : Json) : Prop := ∃ tree, Rule.Tree.read rules = .ok tree

/-- Whether a filter can be listed and applied: it has a name, its resource is known and its rules
are a tree. -/
structure SavedFilter.Usable (catalog : Catalog) (f : SavedFilter) : Prop where
  named : ∃ c ∈ f.name.toList, Text.isBlank c = false
  registered : ∃ resource, catalog.get f.identifier = .ok resource
  parsed : IsTree f.rules

/-- Whether an operation writes only what makes a filter usable. -/
def StoreOperation.Vetted (catalog : Catalog) : StoreOperation → Prop
  | .create draft => ∀ id, (draft.save id).Usable catalog
  | .update _ changes =>
    (∀ name, changes.name = some name → ∃ c ∈ name.toList, Text.isBlank c = false) ∧
      ∀ rules, changes.rules = some rules → IsTree rules
  | .delete _ | .markDefault _ | .unmarkDefault _ => True

/-! ## Usable filters -/

namespace FilterStore

/-- Whether every filter of a store is usable. -/
def UsableFilters (catalog : Catalog) (s : FilterStore) : Prop :=
  ∀ id f, s.find? id = some f → f.Usable catalog

section
variable {catalog : Catalog} {s : FilterStore}

/-- A mark says nothing about whether a filter is usable. -/
theorem usable_yieldTo {id : Int} {target f : SavedFilter} (h : f.Usable catalog) :
    (yieldTo id target f).Usable catalog := by
  unfold yieldTo
  split
  · exact ⟨h.named, h.registered, h.parsed⟩
  · exact h

theorem usable_change {f : SavedFilter} {id : Int} {changes : FilterChanges}
    (h : f.Usable catalog) (hvetted : (StoreOperation.update id changes).Vetted catalog) :
    (f.change changes).Usable catalog := by
  obtain ⟨hname, hrules⟩ := hvetted
  refine ⟨?_, h.registered, ?_⟩
  · show ∃ c ∈ (changes.name.getD f.name).toList, Text.isBlank c = false
    cases hchange : changes.name with
    | none => exact h.named
    | some name => exact hname name hchange
  · show IsTree (changes.rules.getD f.rules)
    cases hchange : changes.rules with
    | none => exact h.parsed
    | some rules => exact hrules rules hchange

/-- A vetted operation keeps the filters usable. -/
theorem UsableFilters.perform (h : s.UsableFilters catalog) {operation : StoreOperation}
    (hvetted : operation.Vetted catalog) : (s.perform operation).UsableFilters catalog := by
  intro id f hf
  cases operation with
  | create draft =>
    rw [find?_create] at hf
    split at hf
    · cases hf
      exact hvetted _
    · exact h id f hf
  | update target changes =>
    rw [find?_update] at hf
    obtain ⟨g, hg, rfl⟩ := Option.map_eq_some_iff.mp hf
    split
    · exact usable_change (h id g hg) hvetted
    · exact h id g hg
  | delete target =>
    rw [find?_delete] at hf
    split at hf
    · cases hf
    · exact h id f hf
  | markDefault target =>
    rw [find?_markDefault] at hf
    cases hmarked : s.find? target with
    | none =>
      rw [hmarked] at hf
      exact h id f hf
    | some marked =>
      rw [hmarked] at hf
      obtain ⟨g, hg, rfl⟩ := Option.map_eq_some_iff.mp hf
      have hyield : (yieldTo target marked g).Usable catalog := usable_yieldTo (h id g hg)
      split
      · exact ⟨hyield.named, hyield.registered, hyield.parsed⟩
      · exact hyield
  | unmarkDefault target =>
    rw [find?_unmarkDefault] at hf
    obtain ⟨g, hg, rfl⟩ := Option.map_eq_some_iff.mp hf
    have husable := h id g hg
    split
    · exact ⟨husable.named, husable.registered, husable.parsed⟩
    · exact husable

theorem UsableFilters.performAll (h : s.UsableFilters catalog) {operations : List StoreOperation}
    (hvetted : ∀ operation ∈ operations, operation.Vetted catalog) :
    (s.performAll operations).UsableFilters catalog := by
  induction operations generalizing s with
  | nil => exact h
  | cons operation rest ih =>
    exact ih (h.perform (hvetted operation List.mem_cons_self))
      fun later hlater => hvetted later (List.mem_cons_of_mem _ hlater)

end
end FilterStore

/-! ## Calls without interruption -/

namespace Call

/-- Whether a call fails and changes nothing, or succeeds after operations that are vetted. -/
def Settles {α : Type} (catalog : Catalog) (s : FilterStore) (call : Call α) : Prop :=
  (∃ failure, call.run s = (.error failure, s)) ∨
    ∃ a operations, call.run s = (.ok a, s.performAll operations) ∧
      ∀ operation ∈ operations, operation.Vetted catalog

section
variable {α β : Type} {catalog : Catalog} {s : FilterStore}

theorem settles_done (result : Except Failure α) : Settles catalog s (.done result) := by
  cases result with
  | error failure => exact .inl ⟨failure, rfl⟩
  | ok a => exact .inr ⟨a, [], rfl, fun operation h => (List.not_mem_nil h).elim⟩

theorem settles_guard {check : Except Failure β} {next : β → Call α}
    (h : ∀ b, check = .ok b → Settles catalog s (next b)) :
    Settles catalog s (.guard check next) := by
  cases check with
  | error failure => exact .inl ⟨failure, rfl⟩
  | ok b => exact h b rfl

/-- A change at the end of a call fails cleanly or is made. -/
theorem settles_changed {call : Call α} (operation : StoreOperation)
    (hvetted : operation.Vetted catalog) (changed : Except Failure (α × FilterStore))
    (hrun : call.run s = match changed with
      | .ok (a, store) => (.ok a, store)
      | .error failure => (.error failure, s))
    (hstore : s.perform operation = (changed.map Prod.snd).toOption.getD s) :
    Settles catalog s call := by
  cases changed with
  | error failure => exact .inl ⟨failure, hrun⟩
  | ok made =>
    refine .inr ⟨made.1, [operation], hrun.trans ?_, ?_⟩
    · show _ = (Except.ok made.1, s.perform operation)
      rw [hstore]
      rfl
    · intro other hother
      rw [List.mem_singleton.mp hother]
      exact hvetted

end
end Call

/-! ## The calls of the service -/

namespace FilterService

open Call

section
variable (s : FilterService) (store : FilterStore) (caller : Caller) {f : SavedFilter}

theorem checkName_eq_ok {name : String} {u : Unit} (h : checkName name = .ok u) :
    ∃ c ∈ name.toList, Text.isBlank c = false := by
  unfold checkName at h
  split at h
  · cases h
  next hblank =>
    unfold Text.isBlankText at hblank
    rw [List.all_eq_true] at hblank
    push Not at hblank
    obtain ⟨c, hc, hkept⟩ := hblank
    exact ⟨c, hc, eq_false_of_ne_true hkept⟩

theorem named_trim {name : String} (h : ∃ c ∈ name.toList, Text.isBlank c = false) :
    ∃ c ∈ (Text.trim name).toList, Text.isBlank c = false := by
  have hkept : Text.isBlankText (Text.trim name) = false := by
    rw [Text.isBlankText_trim]
    exact List.all_eq_false.mpr (by simpa using h)
  simpa using List.all_eq_false.mp hkept

/-- Rules that pass the check are a tree, whether the settings are strict or not. -/
theorem isTree_of_checkRules {resource : Resource} {rules : Json} {u : Unit}
    (h : s.checkRules caller resource rules = .ok u) : IsTree rules := by
  unfold checkRules at h
  obtain ⟨tree, htree, -⟩ := bind_eq_ok h
  exact ⟨tree, Listing.liftCompile_eq_ok htree⟩

theorem draft_vetted {request : SaveRequest} {u : Unit}
    (h : s.checkSave caller request = .ok u) :
    (StoreOperation.create (draft caller request)).Vetted s.catalog := by
  unfold checkSave at h
  obtain ⟨_, hname, h⟩ := bind_eq_ok h
  obtain ⟨resource, hresource, h⟩ := bind_eq_ok h
  exact fun id => ⟨named_trim (checkName_eq_ok hname), ⟨resource, hresource⟩,
    s.isTree_of_checkRules caller h⟩

/-- What the checks of changes say of a new name and of new rules. -/
theorem checkChanges_eq_ok {changes : FilterChanges} {u : Unit}
    (h : s.checkChanges caller f changes = .ok u) :
    (∀ name, changes.name = some name → checkName name = .ok ()) ∧
      ∀ rules, changes.rules = some rules →
        ∃ resource, s.checkRules caller resource rules = .ok () := by
  unfold checkChanges at h
  cases hname : changes.name with
  | none =>
    refine ⟨fun name hsome => (nomatch hsome), fun rules hrules => ?_⟩
    simp only [hname, hrules] at h
    obtain ⟨resource, -, h⟩ := bind_eq_ok h
    obtain ⟨_, hchecked, -⟩ := bind_eq_ok h
    exact ⟨resource, hchecked⟩
  | some name =>
    cases hrules : changes.rules with
    | none =>
      simp only [hname, hrules] at h
      refine ⟨?_, fun rules hsome => (nomatch hsome)⟩
      rintro _ ⟨⟩
      exact h
    | some rules =>
      simp only [hname, hrules] at h
      obtain ⟨resource, -, h⟩ := bind_eq_ok h
      obtain ⟨_, hchecked, h⟩ := bind_eq_ok h
      refine ⟨?_, ?_⟩
      · rintro _ ⟨⟩
        exact h
      · rintro _ ⟨⟩
        exact ⟨resource, hchecked⟩

theorem changes_vetted {changes : FilterChanges} {u : Unit} (id : Int)
    (h : s.checkChanges caller f changes = .ok u) :
    (StoreOperation.update id changes).Vetted s.catalog := by
  obtain ⟨hname, hrules⟩ := s.checkChanges_eq_ok caller h
  refine ⟨fun name hsome => checkName_eq_ok (hname name hsome), fun rules hsome => ?_⟩
  obtain ⟨resource, hchecked⟩ := hrules rules hsome
  exact s.isTree_of_checkRules caller hchecked

/-- A filter that was just saved can be marked. -/
theorem markDefault_saved (draft : FilterDraft) : ∃ marked,
    (store.perform (.create draft)).markDefault (store.lastId + 1) = .ok marked ∧
      marked.2 = store.performAll [.create draft, .markDefault (store.lastId + 1)] := by
  have hfind : (store.perform (.create draft)).find? (store.lastId + 1) =
      some (draft.save (store.lastId + 1)) := by
    rw [FilterStore.find?_create, if_pos rfl]
  have hmarked := FilterStore.markDefault_eq_ok _ _ hfind
  refine ⟨_, hmarked, ?_⟩
  show _ = (((store.perform (.create draft)).markDefault (store.lastId + 1)).map
    Prod.snd).toOption.getD _
  rw [hmarked]
  rfl

theorem settles_create (request : SaveRequest) :
    Settles s.catalog store (s.create caller request) := by
  refine settles_guard fun _ hcheck => .inr ?_
  have hvetted := s.draft_vetted caller hcheck
  cases hdefault : request.isDefault with
  | false =>
    refine ⟨_, [.create (draft caller request)], rfl, ?_⟩
    intro operation hoperation
    rw [List.mem_singleton.mp hoperation]
    exact hvetted
  | true =>
    obtain ⟨marked, hmarked, hstore⟩ := markDefault_saved store (draft caller request)
    refine ⟨marked.1, [.create (draft caller request), .markDefault (store.lastId + 1)], ?_, ?_⟩
    · show Call.run (store.perform (.create (draft caller request)))
        (.markDefault (store.lastId + 1) fun f => .done (.ok f)) = _
      rw [Call.run, hmarked, ← hstore]
      rfl
    · intro operation hoperation
      rcases List.mem_cons.mp hoperation with rfl | hoperation
      · exact hvetted
      · rw [List.mem_singleton.mp hoperation]
        trivial

/-- A request fails and changes nothing, or makes operations that are vetted. -/
theorem task_settles (request : FilterRequest) :
    Settles s.catalog store (s.task caller request).call := by
  cases request with
  | get id => exact settles_done (existing id (store.findVisible? id caller.user))
  | list identifier => exact settles_guard fun _ _ => settles_done (.ok _)
  | create request => exact s.settles_create store caller request
  | update id changes =>
    show Settles s.catalog store (.guard _ _)
    refine settles_guard fun f _ => settles_guard fun _ _ => settles_guard fun _ hcheck => ?_
    refine settles_changed (.update id changes) (s.changes_vetted caller id hcheck)
      (store.update id changes) ?_ rfl
    show Call.run store (.update id changes fun f => .done (.ok f)) = _
    rw [Call.run]
    cases store.update id changes <;> rfl
  | delete id =>
    show Settles s.catalog store (.guard _ _)
    refine settles_guard fun f _ => settles_guard fun _ _ => ?_
    refine .inr ⟨(), [.delete id], rfl, fun operation hoperation => ?_⟩
    rw [List.mem_singleton.mp hoperation]
    trivial
  | markDefault id =>
    show Settles s.catalog store (.guard _ _)
    refine settles_guard fun f _ => settles_guard fun _ _ => ?_
    refine settles_changed (.markDefault id) trivial (store.markDefault id) ?_ rfl
    show Call.run store (.markDefault id fun f => .done (.ok f)) = _
    rw [Call.run]
    cases store.markDefault id <;> rfl
  | unmarkDefault id =>
    show Settles s.catalog store (.guard _ _)
    refine settles_guard fun f _ => settles_guard fun _ _ => ?_
    refine settles_changed (.unmarkDefault id) trivial (store.unmarkDefault id) ?_ rfl
    show Call.run store (.unmarkDefault id fun f => .done (.ok f)) = _
    rw [Call.run]
    cases store.unmarkDefault id <;> rfl

/-- Requests one after another make vetted operations and nothing else. -/
theorem serveAll_eq (requests : List (Caller × FilterRequest)) :
    ∃ operations, s.serveAll store requests = store.performAll operations ∧
      ∀ operation ∈ operations, operation.Vetted s.catalog := by
  induction requests generalizing store with
  | nil => exact ⟨[], rfl, fun operation h => (List.not_mem_nil h).elim⟩
  | cons made rest ih =>
    show ∃ operations, s.serveAll ((s.task made.1 made.2).call.run store).2 rest = _ ∧ _
    rcases s.task_settles store made.1 made.2 with ⟨failure, hrun⟩ | ⟨a, first, hrun, hfirst⟩
    · rw [hrun]
      exact ih store
    · rw [hrun]
      obtain ⟨later, hlater, hvetted⟩ := ih (store.performAll first)
      refine ⟨first ++ later, ?_, fun operation hoperation => ?_⟩
      · rw [hlater, FilterStore.performAll_append]
      · rcases List.mem_append.mp hoperation with h | h
        · exact hfirst operation h
        · exact hvetted operation h

end

/-- From an empty store, whatever callers request one after another: a request that fails leaves the
store exactly as it was.  Every filter in it has a name of more than blanks, the identifier of a
resource of the catalog, and rules that are a tree.  So when a source without rules of its own
resolves to the rules of a filter, no listing discards them as malformed. -/
theorem failed_calls_change_nothing (s : FilterService)
    (requests : List (Caller × FilterRequest)) :
    let store := s.serveAll .empty requests
    (∀ caller request failure,
      ((s.task caller request).call.run store).1 = .error failure →
        ((s.task caller request).call.run store).2 = store) ∧
    (∀ f ∈ store.filters, (∃ c ∈ f.name.toList, Text.isBlank c = false) ∧
      (∃ resource, s.catalog.get f.identifier = .ok resource) ∧
      ∃ tree, Rule.Tree.read f.rules = .ok tree) ∧
    ∀ source : RuleSource, source.inline? = none → ∀ identifier view user rules,
      source.resolve store identifier view user = some rules →
        ∃ tree, Rule.Tree.read rules = .ok tree ∧ ∀ filters registry context q,
          Listing.addRules filters registry context rules q =
            Listing.addTree filters registry context (tree.fillUser filters context.user) q := by
  intro store
  obtain ⟨operations, hstore, hvetted⟩ := s.serveAll_eq .empty requests
  have hconsistent : store.Consistent := by
    show (s.serveAll .empty requests).Consistent
    rw [hstore]
    exact FilterStore.performAll_consistent operations
  have husable : store.UsableFilters s.catalog := by
    show (s.serveAll .empty requests).UsableFilters s.catalog
    rw [hstore]
    refine FilterStore.UsableFilters.performAll ?_ hvetted
    intro id f hf
    cases hf
  have hfilters : ∀ f ∈ store.filters, f.Usable s.catalog := fun f hf =>
    husable f.id f (hconsistent.mem_filters.mp hf)
  refine ⟨?_, ?_, ?_⟩
  · intro caller request failure hfailed
    rcases s.task_settles store caller request with ⟨_, hrun⟩ | ⟨a, made, hrun, -⟩
    · rw [hrun]
    · rw [hrun] at hfailed
      cases hfailed
  · intro f hf
    exact ⟨(hfilters f hf).named, (hfilters f hf).registered, (hfilters f hf).parsed⟩
  · intro source hinline identifier view user rules hresolve
    obtain ⟨tree, htree⟩ : IsTree rules := by
      rcases FilterStore.resolve_offered hconsistent hresolve with
        ⟨hrules, hkept⟩ | ⟨f, hoffers, -, rfl⟩
      · unfold RuleSource.inline? at hinline
        rw [hrules, Option.filter_some, hkept] at hinline
        cases hinline
      · exact (hfilters f hoffers.1).parsed
    refine ⟨tree, htree, fun filters registry context q => ?_⟩
    unfold Listing.addRules
    rw [Rule.Tree.read?_of_read htree]

/-- A visitor saves a filter as their default; renaming it to blanks and saving rules that are no
tree fail and leave the store as it was, and the default resolves to rules that a listing uses. -/
theorem failed_calls_change_nothing_sample :
    let requests : List (Caller × FilterRequest) := [(visitor, .create
      { name := " mine ", identifier := "contacts", rules := Sample.ofCompany.toJson,
        isDefault := true })]
    let store := ofContacts.serveAll .empty requests
    let rename : FilterRequest := .update 1 { name := some " " }
    let malformed : FilterRequest :=
      .create { name := "next", identifier := "contacts", rules := .null }
    store.filters.map SavedFilter.name = ["mine"] ∧
      ((ofContacts.task visitor rename).call.run store).2 = store ∧
      ((ofContacts.task visitor malformed).call.run store).2 = store ∧
      ∃ rules tree, RuleSource.resolve { withDefault := true } store "contacts" "table" 1 =
        some rules ∧ Rule.Tree.read rules = .ok tree := by
  intro requests store rename malformed
  obtain ⟨hfailed, -, hresolve⟩ := failed_calls_change_nothing ofContacts requests
  have hkept : ∀ request, ((ofContacts.task visitor request).call.run store).1.isOk = false →
      ((ofContacts.task visitor request).call.run store).2 = store := by
    intro request hrun
    cases hresult : ((ofContacts.task visitor request).call.run store).1 with
    | error failure => exact hfailed visitor request failure hresult
    | ok a =>
      rw [hresult] at hrun
      cases hrun
  have hdefault : (RuleSource.resolve { withDefault := true } store "contacts" "table" 1).isSome =
      true := by
    decide +kernel
  obtain ⟨rules, hrules⟩ := Option.isSome_iff_exists.mp hdefault
  obtain ⟨tree, htree, -⟩ := hresolve { withDefault := true } rfl "contacts" "table" 1 rules hrules
  refine ⟨by decide +kernel, hkept rename ?_, hkept malformed ?_, rules, tree, hrules, htree⟩
  · decide +kernel
  · decide +kernel

end FilterService
end Winnow
