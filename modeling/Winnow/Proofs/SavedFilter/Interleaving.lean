import Winnow.Proofs.SavedFilter.History
import Winnow.SavedFilter.Service

/-!
# Calls that interrupt each other

Calls of several users run at the same time: in every step one of them makes its
next operation on the store they share.  A call checks a filter first and
changes it later, and in between other calls may change the store.  What a check
granted stays granted (`Grants.later`), because identifiers are not used again
and no operation changes the owner of a filter or what makes it readonly.  So
every call is guarded from its start (`Offered.guarded`), every step keeps the
pending calls guarded (`Secure.advance`), and a step changes what its caller may
change and no more (`filters_protected`).
-/

namespace Winnow

/-! ## Definitions -/

/-- Whether a caller may change a filter: one of their own, or as an administrator one shared by the
system. -/
def Caller.MayChange (c : Caller) (f : SavedFilter) : Prop :=
  match f.owner with
  | some owner => owner = c.user
  | none => c.isAdmin = true

/-- The operation that a call makes next on the store, if it changes the store. -/
def Call.operation? {α : Type} : Call α → Option StoreOperation
  | .done _ | .findVisible .. | .listVisible .. => none
  | .create draft _ => some (.create draft)
  | .update id changes _ => some (.update id changes)
  | .delete id _ => some (.delete id)
  | .markDefault id _ => some (.markDefault id)
  | .unmarkDefault id _ => some (.unmarkDefault id)

/-- A call in progress, and who made it. -/
structure Task where
  caller : Caller
  {result : Type}
  call : Call result

/-- The calls that users can make. -/
inductive Task.Offered : Task → Prop where
  | get (caller : Caller) (id : Int) : Offered ⟨caller, FilterService.get caller id⟩
  | list (s : FilterService) (caller : Caller) (identifier : String) :
      Offered ⟨caller, s.list caller identifier⟩
  | create (s : FilterService) (caller : Caller) (request : SaveRequest) :
      Offered ⟨caller, s.create caller request⟩
  | update (s : FilterService) (caller : Caller) (id : Int) (changes : FilterChanges) :
      Offered ⟨caller, s.update caller id changes⟩
  | delete (caller : Caller) (id : Int) : Offered ⟨caller, FilterService.delete caller id⟩
  | markDefault (caller : Caller) (id : Int) :
      Offered ⟨caller, FilterService.markDefault caller id⟩
  | unmarkDefault (caller : Caller) (id : Int) :
      Offered ⟨caller, FilterService.unmarkDefault caller id⟩

/-- Calls in progress on one store. -/
structure Workload where
  store : FilterStore
  tasks : List Task

namespace Workload

/-- One task makes its next operation. -/
def advance (w : Workload) (i : Nat) : Workload :=
  match w.tasks[i]? with
  | some task =>
    let (call, store) := task.call.step w.store
    ⟨store, w.tasks.set i ⟨task.caller, call⟩⟩
  | none => w

/-- Tasks make their operations in the order of a schedule. -/
def run (w : Workload) (schedule : List Nat) : Workload := schedule.foldl advance w

end Workload

/-! ## Steps of a call -/

namespace Call

variable {α β : Type}

theorem after_store (s : FilterStore) (next : β → Call α) (r : Except Failure (β × FilterStore)) :
    (after s next r).2 = (r.map Prod.snd).toOption.getD s := by
  cases r <;> rfl

/-- A step changes the store by the operation of the call. -/
theorem step_store (s : FilterStore) (call : Call α) :
    (call.step s).2 =
      match call.operation? with
      | some operation => s.perform operation
      | none => s := by
  cases call with
  | update id changes next => exact after_store s next (s.update id changes)
  | markDefault id next => exact after_store s next (s.markDefault id)
  | unmarkDefault id next => exact after_store s next (s.unmarkDefault id)
  | _ => rfl

/-- A call and a store after some steps. -/
def steps : Nat → Call α × FilterStore → Call α × FilterStore
  | 0, pending => pending
  | n + 1, pending => steps n (pending.1.step pending.2)

/-- What a call comes to when it goes on after a change. -/
theorem after_reaches (s : FilterStore) (next : β → Call α)
    (hnext : ∀ b s, ∃ n, steps n (next b, s) = (.done ((next b).run s).1, ((next b).run s).2))
    (r : Except Failure (β × FilterStore)) :
    ∃ n, steps n (after s next r) =
      match r with
      | .ok (b, s) => (.done ((next b).run s).1, ((next b).run s).2)
      | .error failure => (.done (.error failure), s) := by
  cases r with
  | error failure => exact ⟨0, rfl⟩
  | ok changed => exact hnext changed.1 changed.2

/-- A call that nothing interrupts reaches its result step by step. -/
theorem run_eq_steps (call : Call α) (s : FilterStore) :
    ∃ n, steps n (call, s) = (.done (call.run s).1, (call.run s).2) := by
  induction call generalizing s with
  | done result => exact ⟨0, rfl⟩
  | findVisible id user next ih =>
    obtain ⟨n, hn⟩ := ih (s.findVisible? id user) s
    exact ⟨n + 1, hn⟩
  | listVisible identifier user next ih =>
    obtain ⟨n, hn⟩ := ih (s.listVisible identifier user) s
    exact ⟨n + 1, hn⟩
  | create draft next ih =>
    obtain ⟨n, hn⟩ := ih (s.create draft).1 (s.create draft).2
    exact ⟨n + 1, hn⟩
  | delete id next ih =>
    obtain ⟨n, hn⟩ := ih (s.delete id).1 (s.delete id).2
    exact ⟨n + 1, hn⟩
  | update id changes next ih =>
    obtain ⟨n, hn⟩ := after_reaches s next ih (s.update id changes)
    refine ⟨n + 1, hn.trans ?_⟩
    rw [run]
    cases s.update id changes <;> rfl
  | markDefault id next ih =>
    obtain ⟨n, hn⟩ := after_reaches s next ih (s.markDefault id)
    refine ⟨n + 1, hn.trans ?_⟩
    rw [run]
    cases s.markDefault id <;> rfl
  | unmarkDefault id next ih =>
    obtain ⟨n, hn⟩ := after_reaches s next ih (s.unmarkDefault id)
    refine ⟨n + 1, hn.trans ?_⟩
    rw [run]
    cases s.unmarkDefault id <;> rfl

end Call

/-! ## What is granted -/

theorem Caller.MayChange.congr {c : Caller} {f g : SavedFilter} (h : f.owner = g.owner) :
    c.MayChange f ↔ c.MayChange g := by
  unfold MayChange
  rw [h]

namespace FilterStore

/-- Whether whatever lies under an identifier now and later satisfies a condition. -/
def Only (s : FilterStore) (id : Int) (condition : SavedFilter → Prop) : Prop :=
  id ≤ s.lastId ∧ ∀ f, s.find? id = some f → condition f

/-- Whether a caller may make an operation on a store. -/
def Grants (s : FilterStore) (c : Caller) : StoreOperation → Prop
  | .create draft => draft.owner = some c.user
  | .update id _ | .delete id => s.Only id fun f => c.MayChange f ∧ f.isMutable = true
  | .markDefault id | .unmarkDefault id => s.Only id c.MayChange

/-- A condition that no operation can break stays true of what lies under an identifier. -/
theorem Only.later {s : FilterStore} {id : Int} {condition : SavedFilter → Prop}
    (hkept : ∀ f g, f.SameFilter g → condition g → condition f) (h : s.Only id condition)
    (operations : List StoreOperation) : (s.performAll operations).Only id condition := by
  induction operations generalizing s with
  | nil => exact h
  | cons operation rest ih =>
    refine ih ⟨Int.le_trans h.1 (s.lastId_le_perform operation), fun f hf => ?_⟩
    rcases find?_perform_cases hf with ⟨draft, -, hfresh, -⟩ | ⟨g, hg, hsame, -⟩
    · have hle := h.1
      omega
    · exact hkept f g hsame (h.2 g hg)

/-- What is granted stays granted, whatever is done to the store. -/
theorem Grants.later {s : FilterStore} {c : Caller} {operation : StoreOperation}
    (h : s.Grants c operation) (operations : List StoreOperation) :
    (s.performAll operations).Grants c operation := by
  have hchange : ∀ f g : SavedFilter, f.SameFilter g → c.MayChange g → c.MayChange f :=
    fun f g hsame hg => (Caller.MayChange.congr hsame.owner_eq).mpr hg
  have hmutable : ∀ f g : SavedFilter, f.SameFilter g →
      c.MayChange g ∧ g.isMutable = true → c.MayChange f ∧ f.isMutable = true :=
    fun f g hsame hg => ⟨hchange f g hsame hg.1, hsame.isMutable_eq.trans hg.2⟩
  cases operation with
  | create draft => exact h
  | update id changes => exact Only.later hmutable h operations
  | delete id => exact Only.later hmutable h operations
  | markDefault id => exact Only.later hchange h operations
  | unmarkDefault id => exact Only.later hchange h operations

/-! ## What a granted operation changes -/

section
variable {s : FilterStore} {c : Caller}

/-- Where replacing a filter by its image changed anything, the filter is the one replaced. -/
theorem Only.of_changed {condition : SavedFilter → Prop} {id target : Int} {f : SavedFilter}
    {image : SavedFilter → SavedFilter} (h : s.Only target condition) (hf : s.find? id = some f)
    (hchanged : ((s.find? id).map fun f => if target = id then image f else f) ≠ s.find? id) :
    condition f := by
  by_cases htarget : target = id
  · subst htarget
    exact h.2 f hf
  · simp only [if_neg htarget, Option.map_id'] at hchanged
    exact absurd rfl hchanged

/-- A granted operation changes only what its caller may change. -/
theorem Grants.before_mayChange {operation : StoreOperation} (h : s.Grants c operation)
    (hs : s.Consistent) {id : Int} (hchanged : (s.perform operation).find? id ≠ s.find? id)
    {f : SavedFilter} (hf : s.find? id = some f) : c.MayChange f := by
  cases operation with
  | create draft =>
    have hle := hs.id_le id f hf
    have hid : ¬s.lastId + 1 = id := by omega
    rw [find?_create, if_neg hid] at hchanged
    exact absurd rfl hchanged
  | update target changes =>
    rw [find?_update] at hchanged
    exact (Only.of_changed h hf hchanged).1
  | delete target =>
    rw [find?_delete] at hchanged
    split at hchanged
    next htarget => exact (h.2 f (htarget ▸ hf)).1
    next htarget => exact absurd rfl hchanged
  | unmarkDefault target =>
    rw [find?_unmarkDefault] at hchanged
    exact Only.of_changed h hf hchanged
  | markDefault target =>
    rw [find?_markDefault] at hchanged
    cases hmarked : s.find? target with
    | none =>
      rw [hmarked] at hchanged
      exact absurd rfl hchanged
    | some marked =>
      rw [hmarked] at hchanged
      by_cases htarget : target = id
      · exact h.2 f (htarget ▸ hf)
      · -- another filter loses its mark only to one of the same owner
        have hmay : c.MayChange marked := h.2 marked hmarked
        cases hshares : f.sharesDefault marked with
        | true =>
          obtain ⟨-, -, howner⟩ := (SavedFilter.sharesDefault_iff f marked).mp hshares
          exact (Caller.MayChange.congr howner).mpr hmay
        | false =>
          have hkept : yieldTo target marked f = f := by
            unfold yieldTo
            rw [hshares, Bool.and_false]
            rfl
          simp only [hf, Option.map_some, if_neg htarget, hkept] at hchanged
          exact absurd rfl hchanged

/-- What a granted operation leaves in place of what it changed is its caller's as well. -/
theorem Grants.after_mayChange {operation : StoreOperation} (h : s.Grants c operation)
    (hs : s.Consistent) {id : Int} (hchanged : (s.perform operation).find? id ≠ s.find? id)
    {f : SavedFilter} (hf : (s.perform operation).find? id = some f) : c.MayChange f := by
  rcases find?_perform_cases hf with ⟨draft, rfl, -, rfl⟩ | ⟨g, hg, hsame, -⟩
  · have howner : draft.owner = some c.user := h
    unfold Caller.MayChange FilterDraft.save
    rw [howner]
  · have hmay : c.MayChange g := h.before_mayChange hs hchanged hg
    exact (Caller.MayChange.congr hsame.owner_eq).mpr hmay

/-- A filter that cannot be changed survives a granted operation with its name and rules. -/
theorem Grants.kept {operation : StoreOperation} (h : s.Grants c operation) (hs : s.Consistent)
    {id : Int} {f : SavedFilter} (hf : s.find? id = some f) (hreadonly : f.isMutable = false) :
    ∃ g, (s.perform operation).find? id = some g ∧ g.isMutable = false ∧ g.name = f.name ∧
      g.rules = f.rules := by
  have hother : ∀ target, (s.Only target fun g => c.MayChange g ∧ g.isMutable = true) →
      ¬target = id := by
    intro target honly htarget
    have hmutable := (honly.2 f (htarget ▸ hf)).2
    rw [hreadonly] at hmutable
    cases hmutable
  cases operation with
  | create draft =>
    have hle := hs.id_le id f hf
    have hid : ¬s.lastId + 1 = id := by omega
    rw [find?_create, if_neg hid]
    exact ⟨f, hf, hreadonly, rfl, rfl⟩
  | update target changes =>
    rw [find?_update, hf, Option.map_some, if_neg (hother target h)]
    exact ⟨f, rfl, hreadonly, rfl, rfl⟩
  | delete target =>
    rw [find?_delete, if_neg (hother target h)]
    exact ⟨f, hf, hreadonly, rfl, rfl⟩
  | unmarkDefault target =>
    rw [find?_unmarkDefault, hf, Option.map_some]
    refine ⟨_, rfl, ?_⟩
    split
    · exact ⟨hreadonly, rfl, rfl⟩
    · exact ⟨hreadonly, rfl, rfl⟩
  | markDefault target =>
    rw [find?_markDefault]
    cases s.find? target with
    | none => exact ⟨f, hf, hreadonly, rfl, rfl⟩
    | some marked =>
      have hyield : (yieldTo target marked f).isMutable = false ∧
          (yieldTo target marked f).name = f.name ∧ (yieldTo target marked f).rules = f.rules := by
        unfold yieldTo
        split
        · exact ⟨hreadonly, rfl, rfl⟩
        · exact ⟨hreadonly, rfl, rfl⟩
      simp only [hf, Option.map_some]
      refine ⟨_, rfl, ?_⟩
      split
      · exact hyield
      · exact hyield

end

end FilterStore

/-! ## Guarded calls -/

namespace Call

/-- Whether all that a call still does is granted, whatever is done to the store before each of its
steps. -/
inductive Guarded (c : Caller) {α : Type} : FilterStore → Call α → Prop where
  | done (s : FilterStore) (result : Except Failure α) : Guarded c s (.done result)
  | step (s : FilterStore) (call : Call α)
      (hgranted : ∀ operation, call.operation? = some operation → s.Grants c operation)
      (hnext : ∀ operations,
        Guarded c (call.step (s.performAll operations)).2 (call.step (s.performAll operations)).1) :
      Guarded c s call

section
variable {α β : Type} {c : Caller} {s : FilterStore}

/-- A guarded call stays guarded while others change the store. -/
theorem Guarded.later {call : Call α} (h : Guarded c s call) (operations : List StoreOperation) :
    Guarded c (s.performAll operations) call := by
  cases h with
  | done s result => exact .done _ result
  | step s call hgranted hnext =>
    refine .step _ call (fun operation hoperation => ?_) fun more => ?_
    · exact (hgranted operation hoperation).later operations
    · rw [← FilterStore.performAll_append]
      exact hnext (operations ++ more)

theorem Guarded.granted {call : Call α} (h : Guarded c s call) {operation : StoreOperation}
    (hoperation : call.operation? = some operation) : s.Grants c operation := by
  cases h with
  | done s result => cases hoperation
  | step s call hgranted hnext => exact hgranted operation hoperation

/-- A guarded call is guarded after its next step. -/
theorem Guarded.next {call : Call α} (h : Guarded c s call) :
    Guarded c (call.step s).2 (call.step s).1 := by
  cases h with
  | done s result => exact .done s result
  | step s call hgranted hnext => exact hnext []

theorem Guarded.guard {check : Except Failure β} {next : β → Call α}
    (h : ∀ b, check = .ok b → Guarded c s (next b)) : Guarded c s (.guard check next) := by
  cases check with
  | error failure => exact .done s _
  | ok b => exact h b rfl

/-- After a change, which may fail, a call goes on guarded. -/
theorem Guarded.after {next : β → Call α} (h : ∀ s b, Guarded c s (next b))
    (r : Except Failure (β × FilterStore)) :
    Guarded c (after s next r).2 (Call.after s next r).1 := by
  cases r with
  | error failure => exact .done s _
  | ok changed => exact h changed.2 changed.1

/-- A call whose next change is granted is guarded when it is guarded after it. -/
theorem Guarded.change {call : Call α} {operation : StoreOperation}
    (hoperation : call.operation? = some operation) (hgranted : s.Grants c operation)
    (hnext : ∀ operations, Guarded c (call.step (s.performAll operations)).2
      (call.step (s.performAll operations)).1) : Guarded c s call := by
  refine .step s call (fun other hother => ?_) hnext
  rw [hoperation] at hother
  cases hother
  exact hgranted

/-- A call that looks a filter up is guarded when it goes on guarded with what it finds. -/
theorem Guarded.findVisible (hs : s.Consistent) {id user : Int}
    {next : Option SavedFilter → Call α}
    (h : ∀ s : FilterStore, s.Consistent → Guarded c s (next (s.findVisible? id user))) :
    Guarded c s (.findVisible id user next) := by
  refine .step s _ (fun operation hoperation => ?_) fun operations => ?_
  · cases hoperation
  · exact h (s.performAll operations) (hs.performAll operations)

end
end Call

/-! ## The calls of users -/

namespace FilterService

open FilterStore

variable {c : Caller} {s : FilterStore} {id : Int} {f : SavedFilter}

/-- A filter that was found by a look-up that goes on is the filter of its identifier. -/
theorem existing_eq_ok {found : Option SavedFilter} (h : existing id found = .ok f) :
    found = some f := by
  cases found with
  | none => cases h
  | some g =>
    cases h
    rfl

/-- What was seen in a look-up holds of whatever lies under the identifier. -/
theorem only_of_visible (hs : s.Consistent) {user : Int} {condition : SavedFilter → Prop}
    (h : existing id (s.findVisible? id user) = .ok f)
    (hcondition : f.isVisibleTo user = true → condition f) : s.Only id condition := by
  have hfound : s.findVisible? id user = some f := existing_eq_ok h
  obtain ⟨hf, hvisible⟩ := Option.filter_eq_some_iff.mp hfound
  refine ⟨hs.id_le id f hf, fun g hg => ?_⟩
  have hsame : f = g := Option.some.inj (hf.symm.trans hg)
  subst hsame
  exact hcondition hvisible

/-- A filter that a caller sees is one they may change, unless it is shared by the system. -/
theorem mayChange_of_visible (hvisible : f.isVisibleTo c.user = true)
    (hadmin : (f.isSystem && !c.isAdmin) = false) : c.MayChange f := by
  unfold SavedFilter.isVisibleTo at hvisible
  unfold SavedFilter.isSystem at hadmin
  unfold Caller.MayChange
  cases howner : f.owner with
  | some owner =>
    rw [howner] at hvisible
    exact eq_of_beq hvisible
  | none =>
    rw [howner, Option.isNone_none, Bool.true_and, Bool.not_eq_false'] at hadmin
    exact hadmin

theorem checkDefault_eq_ok {u : Unit} (h : checkDefault c f = .ok u) :
    (f.isSystem && !c.isAdmin) = false := by
  unfold checkDefault at h
  split at h
  · cases h
  next hadmin => exact eq_false_of_ne_true hadmin

theorem checkEditable_eq_ok {u : Unit} (h : checkEditable c f = .ok u) :
    f.isMutable = true ∧ (f.isSystem && !c.isAdmin) = false := by
  unfold checkEditable at h
  split at h
  · cases h
  next hmutable =>
    split at h
    · cases h
    next hadmin =>
      rw [Bool.not_eq_true, Bool.not_eq_false'] at hmutable
      exact ⟨hmutable, eq_false_of_ne_true hadmin⟩

/-- A call that goes on with a filter its caller may edit is guarded when it goes on guarded. -/
theorem guarded_withEditable {α : Type} (hs : s.Consistent) {next : SavedFilter → Call α}
    (h : ∀ s f, s.Only id (fun g => c.MayChange g ∧ g.isMutable = true) →
      Call.Guarded c s (next f)) :
    Call.Guarded c s (withEditable c id next) := by
  refine .findVisible hs fun s hs => .guard fun f hf => .guard fun _ hcheck => ?_
  obtain ⟨hmutable, hadmin⟩ := checkEditable_eq_ok hcheck
  exact h s f (only_of_visible hs hf fun hvisible =>
    ⟨mayChange_of_visible hvisible hadmin, hmutable⟩)

/-- A call that goes on with a filter its caller may mark is guarded when it goes on guarded. -/
theorem guarded_checkDefault {α : Type} (hs : s.Consistent) {next : SavedFilter → Call α}
    (h : ∀ s f, s.Only id c.MayChange → Call.Guarded c s (next f)) :
    Call.Guarded c s (.findVisible id c.user fun found =>
      .guard (existing id found) fun f => .guard (checkDefault c f) fun _ => next f) := by
  refine .findVisible hs fun s hs => .guard fun f hf => .guard fun _ hcheck => ?_
  exact h s f (only_of_visible hs hf fun hvisible =>
    mayChange_of_visible hvisible (checkDefault_eq_ok hcheck))

end FilterService

/-- Every call that users can make is guarded. -/
theorem Task.Offered.guarded {task : Task} (h : task.Offered) {s : FilterStore}
    (hs : s.Consistent) : Call.Guarded task.caller s task.call := by
  cases h with
  | get c id => exact .findVisible hs fun s _ => .done s _
  | list service c identifier =>
    refine .guard fun _ _ => .step s _ (fun operation hoperation => ?_) fun operations => ?_
    · cases hoperation
    · exact .done _ _
  | create service c request =>
    refine .guard fun _ _ => .change rfl rfl fun operations => ?_
    generalize s.performAll operations = s
    show Call.Guarded c (s.perform (.create (FilterService.draft c request)))
      (if request.isDefault = true then _ else _)
    split
    · -- the filter to mark is the one that was just saved, whatever happens before it is marked
      refine .change rfl ⟨Int.le_refl _, fun f hf => ?_⟩ fun operations => ?_
      · have hown := s.find?_create (s.lastId + 1) (FilterService.draft c request)
        rw [if_pos rfl] at hown
        have hsame := Option.some.inj (hown.symm.trans hf)
        subst hsame
        rfl
      · exact .after (fun s f => .done s _) _
    · exact .done _ _
  | update service c id changes =>
    refine FilterService.guarded_withEditable hs fun s f honly => .guard fun _ _ => ?_
    exact .change rfl honly fun operations => .after (fun s f => .done s _) _
  | delete c id =>
    refine FilterService.guarded_withEditable hs fun s f honly => ?_
    exact .change rfl honly fun operations => .done _ _
  | markDefault c id =>
    refine FilterService.guarded_checkDefault hs fun s f honly => ?_
    exact .change rfl honly fun operations => .after (fun s f => .done s _) _
  | unmarkDefault c id =>
    refine FilterService.guarded_checkDefault hs fun s f honly => ?_
    exact .change rfl honly fun operations => .after (fun s f => .done s _) _

/-! ## Runs -/

namespace Workload

/-- Whether all that the tasks still do is granted. -/
structure Secure (w : Workload) : Prop where
  consistent : w.store.Consistent
  guarded : ∀ task ∈ w.tasks, Call.Guarded task.caller w.store task.call

section
variable {w : Workload}

/-- A step of one task leaves the tasks secure. -/
theorem Secure.advance (h : w.Secure) (i : Nat) : (w.advance i).Secure := by
  unfold Workload.advance
  cases htask : w.tasks[i]? with
  | none => exact h
  | some task =>
    have hmem : task ∈ w.tasks := List.mem_of_getElem? htask
    have hguarded := h.guarded task hmem
    obtain ⟨operations, hstore⟩ : ∃ operations,
        (task.call.step w.store).2 = w.store.performAll operations := by
      rw [Call.step_store]
      cases task.call.operation? with
      | none => exact ⟨[], rfl⟩
      | some operation => exact ⟨[operation], rfl⟩
    refine ⟨?_, fun other hother => ?_⟩
    · show (task.call.step w.store).2.Consistent
      rw [hstore]
      exact h.consistent.performAll operations
    · show Call.Guarded other.caller (task.call.step w.store).2 other.call
      rcases List.mem_or_eq_of_mem_set hother with hother | rfl
      · rw [hstore]
        exact (h.guarded other hother).later operations
      · exact hguarded.next

theorem Secure.run (h : w.Secure) (schedule : List Nat) : (w.run schedule).Secure := by
  induction schedule generalizing w with
  | nil => exact h
  | cons i rest ih => exact ih (h.advance i)

/-- A step keeps who made each call. -/
theorem advance_caller (w : Workload) (i j : Nat) :
    ((w.advance i).tasks[j]?).map Task.caller = (w.tasks[j]?).map Task.caller := by
  unfold Workload.advance
  cases htask : w.tasks[i]? with
  | none => rfl
  | some task =>
    show ((w.tasks.set i ⟨task.caller, (task.call.step w.store).1⟩)[j]?).map Task.caller = _
    rw [List.getElem?_set]
    by_cases hij : i = j
    · subst hij
      obtain ⟨hlt, -⟩ := List.getElem?_eq_some_iff.mp htask
      rw [if_pos rfl, if_pos hlt, htask]
      rfl
    · rw [if_neg hij]

theorem run_caller (w : Workload) (schedule : List Nat) (j : Nat) :
    ((w.run schedule).tasks[j]?).map Task.caller = (w.tasks[j]?).map Task.caller := by
  induction schedule generalizing w with
  | nil => rfl
  | cons i rest ih => exact (ih (w.advance i)).trans (w.advance_caller i j)

/-- A step of a task changes the store by nothing or by an operation granted to its caller. -/
theorem Secure.advance_store (h : w.Secure) (i : Nat) :
    (w.advance i).store = w.store ∨ ∃ task operation, w.tasks[i]? = some task ∧
      w.store.Grants task.caller operation ∧
        (w.advance i).store = w.store.perform operation := by
  unfold Workload.advance
  cases htask : w.tasks[i]? with
  | none => exact .inl rfl
  | some task =>
    have hguarded := h.guarded task (List.mem_of_getElem? htask)
    have hstore := task.call.step_store w.store
    cases hoperation : task.call.operation? with
    | none =>
      rw [hoperation] at hstore
      exact .inl hstore
    | some operation =>
      rw [hoperation] at hstore
      exact .inr ⟨task, operation, rfl, hguarded.granted hoperation, hstore⟩

/-- A filter that cannot be changed survives every run with its name and rules. -/
theorem Secure.kept (h : w.Secure) {id : Int} {f : SavedFilter} (hf : w.store.find? id = some f)
    (hreadonly : f.isMutable = false) (schedule : List Nat) :
    ∃ g, (w.run schedule).store.find? id = some g ∧ g.name = f.name ∧ g.rules = f.rules := by
  induction schedule generalizing w f with
  | nil => exact ⟨f, hf, rfl, rfl⟩
  | cons i rest ih =>
    obtain ⟨g, hg, hmutable, hname, hrules⟩ : ∃ g, (w.advance i).store.find? id = some g ∧
        g.isMutable = false ∧ g.name = f.name ∧ g.rules = f.rules := by
      rcases h.advance_store i with hstore | ⟨task, operation, -, hgrants, hstore⟩
      · rw [hstore]
        exact ⟨f, hf, hreadonly, rfl, rfl⟩
      · rw [hstore]
        exact hgrants.kept h.consistent hf hreadonly
    obtain ⟨last, hlast, hlastname, hlastrules⟩ := ih (h.advance i) hg hmutable
    exact ⟨last, hlast, hlastname.trans hname, hlastrules.trans hrules⟩

end

/-- Calls of any users interrupt each other in any order, on a store that any operations led to.
What a step creates, changes or deletes is a filter of the user who made the call, or one of the
system when they are an administrator.  A filter that is readonly or a default of the system is
never deleted and keeps its name and rules. -/
theorem filters_protected (operations : List StoreOperation) (tasks : List Task)
    (hoffered : ∀ task ∈ tasks, task.Offered) (schedule : List Nat) :
    let before := run ⟨FilterStore.empty.performAll operations, tasks⟩ schedule
    (∀ i id, (before.advance i).store.find? id ≠ before.store.find? id →
      ∃ task, tasks[i]? = some task ∧
        (∀ f, before.store.find? id = some f → task.caller.MayChange f) ∧
        ∀ f, (before.advance i).store.find? id = some f → task.caller.MayChange f) ∧
    ∀ id f, before.store.find? id = some f → f.isReadonly = true ∨ f.isSystemDefault = true →
      ∀ more, ∃ g, (before.run more).store.find? id = some g ∧ g.name = f.name ∧
        g.rules = f.rules := by
  intro before
  have hstart : Secure ⟨FilterStore.empty.performAll operations, tasks⟩ :=
    ⟨FilterStore.performAll_consistent operations, fun task htask =>
      (hoffered task htask).guarded (FilterStore.performAll_consistent operations)⟩
  have hsecure : before.Secure := hstart.run schedule
  constructor
  · intro i id hchanged
    rcases hsecure.advance_store i with hstore | ⟨task, operation, htask, hgrants, hstore⟩
    · rw [hstore] at hchanged
      exact absurd rfl hchanged
    have hcaller := run_caller ⟨FilterStore.empty.performAll operations, tasks⟩ schedule i
    change (before.tasks[i]?).map Task.caller = _ at hcaller
    rw [htask, Option.map_some] at hcaller
    obtain ⟨first, hfirst, hsame⟩ := Option.map_eq_some_iff.mp hcaller.symm
    rw [hstore] at hchanged ⊢
    refine ⟨first, hfirst, fun f hf => ?_, fun f hf => ?_⟩
    · rw [hsame]
      exact hgrants.before_mayChange hsecure.consistent hchanged hf
    · rw [hsame]
      exact hgrants.after_mayChange hsecure.consistent hchanged hf
  · intro id f hf hreadonly more
    have hmutable : f.isMutable = false := by
      unfold SavedFilter.isMutable
      rcases hreadonly with h | h
      · rw [h]
        rfl
      · rw [h, Bool.not_true, Bool.and_false]
    exact hsecure.kept hf hmutable more

section
variable (admin first second : Caller)

/-- A readonly filter of the system, and a filter of user 1. -/
def sampleHistory : List StoreOperation := [
  .create { owner := none, name := "all", identifier := "contacts", view := "table",
            rules := .null, isReadonly := true },
  .create { owner := some 1, name := "mine", identifier := "contacts", view := "table",
            rules := .null }]

/-- Calls on the filters of `sampleHistory`. -/
def sampleTasks : List Task := [
  ⟨admin, FilterService.delete admin 1⟩, ⟨admin, FilterService.markDefault admin 1⟩,
  ⟨first, FilterService.delete first 2⟩, ⟨second, FilterService.delete second 2⟩]

theorem sampleTasks_offered : ∀ task ∈ sampleTasks admin first second, task.Offered := by
  intro task htask
  simp only [sampleTasks, List.mem_cons, List.not_mem_nil, or_false] at htask
  rcases htask with rfl | rfl | rfl | rfl
  · exact .delete admin 1
  · exact .markDefault admin 1
  · exact .delete first 2
  · exact .delete second 2

end

/-- An administrator marks the readonly filter, whose deletion is refused, and user 1 deletes a
filter that user 2 was about to delete. -/
theorem filters_protected_sample :
    let tasks := sampleTasks { user := 9, isAdmin := true, time := ⟨0, 0⟩ }
      { user := 1, time := ⟨0, 0⟩ } { user := 2, time := ⟨0, 0⟩ }
    let before := run ⟨FilterStore.empty.performAll sampleHistory, tasks⟩ [0, 1, 2, 3, 0, 1]
    (before.store.find? 1).map SavedFilter.isDefault = some true ∧
      (before.store.find? 2).map SavedFilter.owner = some (some 1) ∧
      ((before.advance 2).store.find? 2).isNone = true ∧
      (∃ task, tasks[2]? = some task ∧ ∀ f, before.store.find? 2 = some f →
        task.caller.MayChange f) ∧
      ∀ more, ∃ g, (before.run more).store.find? 1 = some g ∧
        some g.name = (before.store.find? 1).map SavedFilter.name := by
  intro tasks before
  obtain ⟨hchanges, hkept⟩ := filters_protected sampleHistory tasks
    (sampleTasks_offered _ _ _) [0, 1, 2, 3, 0, 1]
  have hown : (before.store.find? 2).map SavedFilter.owner = some (some 1) := by decide +kernel
  have hgone : ((before.advance 2).store.find? 2).isNone = true := by decide +kernel
  refine ⟨by decide +kernel, hown, hgone, ?_, fun more => ?_⟩
  · have hchanged : (before.advance 2).store.find? 2 ≠ before.store.find? 2 := by
      intro hsame
      rw [hsame, Option.isNone_iff_eq_none] at hgone
      rw [hgone] at hown
      cases hown
    obtain ⟨task, htask, hmay, -⟩ := hchanges 2 2 hchanged
    exact ⟨task, htask, hmay⟩
  · have hreadonly : (before.store.find? 1).map SavedFilter.isReadonly = some true := by
      decide +kernel
    obtain ⟨f, hf, hf'⟩ := Option.map_eq_some_iff.mp hreadonly
    obtain ⟨g, hg, hname, -⟩ := hkept 1 f hf (.inl hf') more
    rw [hf]
    exact ⟨g, hg, congrArg some hname⟩

end Workload
end Winnow
