import Winnow.Listing.Rules
import Winnow.Proofs.Compile.Collected
import Winnow.Proofs.Engine.Scoped
import Winnow.Proofs.Sample

/-!
# Scopes that rules remove

Only custom predicates remove scopes.  What one of them removed from the query
it was handed is removed from the query of the listing, however deep its rule
stands, and nothing else is; what it removed inside a question about related
rows stays there (`addRules_scopes`).  So the rows of the listing, and those
that a question or an aggregate is about, are admitted by every other scope.
-/

namespace Winnow.Listing

open Engine Compile

/-! ## Joins along relations -/

theorem joinAll_keeps {γ : Type} (f : Query → γ) (hf : ∀ q joins, f { q with joins := joins } = f q)
    {registry : Registry} {targets : Keyed JoinTarget} {q r : Query}
    (h : joinAll registry targets q = .ok r) : f r = f q := by
  refine @foldlM_keeps _ _ _ _ (fun joined => f joined = f q) _ _ _ h
    (fun target _ joined next hstep hjoined => ?_) rfl
  obtain ⟨⟨tableAlias, next⟩, hpath, rfl⟩ := map_eq_ok hstep
  exact (Query.joinFrom_keeps f hf hpath).trans hjoined

/-! ## Rules of a payload -/

section
variable (filters : FilterSet) (registry : Registry) (context : CompileContext) (payload : Json)

/-- The rules of a payload with the current user filled in, each with the connective of the group it
stands in. -/
def placedRules : List (Connective × Rule.Leaf) :=
  match Rule.Tree.read? payload with
  | some tree => (tree.fillUser filters context.user).placed
  | none => []

/-- The joins that the rules of a payload read, when one of them reads a field through relations. -/
def rulesJoins (entity : Entity) : Option (Keyed JoinTarget) :=
  (Rule.Tree.read? payload).bind fun tree =>
    let tree := tree.fillUser filters context.user
    if needsJoins filters registry entity tree then
      some (joinTargets filters registry entity tree)
    else none

/-- Whether a custom predicate that takes over a rule of a payload, at any depth, leaves a certain
group on the query that it is handed. -/
def CustomLeaves (q group : Query) : Prop :=
  ∃ placed ∈ placedRules filters context payload,
    LeavesGroup filters ⟨registry, context, rulesJoins filters registry context payload q.entity⟩
      q.group placed group

end

section
variable {filters : FilterSet} {registry : Registry} {context : CompileContext} {payload : Json}
  {q r : Query}

/-- Rules put the group of their tree into a query that is the same up to its joins; without rules
the query stays as it is. -/
theorem addRules_cases (h : addRules filters registry context payload q = .ok r) :
    (placedRules filters context payload = [] ∧ r = q) ∨
      ∃ (tree : Rule.Tree) (start group : Query),
        placedRules filters context payload = tree.placed ∧
        compileTree filters
          ⟨registry, context, rulesJoins filters registry context payload q.entity⟩ tree q.group =
            .ok group ∧
        (∀ {γ : Type} (f : Query → γ), (∀ q joins, f { q with joins := joins } = f q) →
          f start = f q) ∧
        r = start.absorb .and group := by
  unfold addRules at h
  unfold placedRules rulesJoins
  cases hread : Rule.Tree.read? payload with
  | none =>
    rw [hread] at h
    cases h
    exact .inl ⟨rfl, rfl⟩
  | some tree =>
    rw [hread] at h
    simp only at h
    unfold addTree at h
    simp only [Option.bind_some]
    split at h
    next hneeds =>
      obtain ⟨joined, hjoined, h⟩ := bind_eq_ok h
      obtain ⟨group, hgroup, h⟩ := bind_eq_ok h
      cases h
      rw [if_pos hneeds]
      exact .inr ⟨_, joined, group, rfl, hgroup, fun f hf => joinAll_keeps f hf hjoined, rfl⟩
    next hneeds =>
      obtain ⟨group, hgroup, h⟩ := bind_eq_ok h
      cases h
      rw [if_neg hneeds]
      exact .inr ⟨_, q, group, rfl, hgroup, fun f _ => rfl, rfl⟩

section
variable {α : Type} {has : Query → α → Prop} {x : α}
  (hjoins : ∀ q joins, has { q with joins := joins } x = has q x)

include hjoins

theorem addRules_collects (hhas : Collected has)
    (h : addRules filters registry context payload q = .ok r) (hx : has r x) :
    has q x ∨ ∃ placed ∈ placedRules filters context payload, ∃ group,
      leafGroup filters ⟨registry, context, rulesJoins filters registry context payload q.entity⟩
        placed.2 placed.1 q.group = .ok group ∧ has group x := by
  rcases addRules_cases h with ⟨-, rfl⟩ | ⟨tree, start, group, hplaced, hgroup, hstart, rfl⟩
  · exact .inl hx
  · rcases hhas.absorb start .and group x hx with hold | hnew
    · rw [hstart (has · x) hjoins] at hold
      exact .inl hold
    · rw [hplaced]
      rcases compileNodes_collects hhas tree.children hgroup hnew with hnone | hfound
      · exact absurd hnone (hhas.blank q x)
      · exact .inr hfound

theorem addRules_keeps (hhas : Kept has)
    (h : addRules filters registry context payload q = .ok r)
    (hx : has q x ∨ ∃ placed ∈ placedRules filters context payload, ∃ group,
      leafGroup filters ⟨registry, context, rulesJoins filters registry context payload q.entity⟩
        placed.2 placed.1 q.group = .ok group ∧ has group x) : has r x := by
  rcases addRules_cases h with ⟨hplaced, rfl⟩ | ⟨tree, start, group, hplaced, hgroup, hstart, rfl⟩
  · rcases hx with hold | ⟨placed, hmem, -⟩
    · exact hold
    · rw [hplaced] at hmem
      exact absurd hmem List.not_mem_nil
  · rcases hx with hold | hfound
    · rw [← hstart (has · x) hjoins] at hold
      exact hhas start .and group x (.inl hold)
    · rw [hplaced] at hfound
      exact hhas start .and group x
        (.inr (compileNodes_keeps hhas tree.children hgroup (.inr hfound)))

end

/-! ## What custom predicates leave -/

/-- Exactly what custom predicates removed from the queries they were handed is removed. -/
theorem addRules_removedScopes (h : addRules filters registry context payload q = .ok r)
    (name : String) :
    name ∈ r.removedScopes ↔ name ∈ q.removedScopes ∨
      ∃ group, CustomLeaves filters registry context payload q group ∧
        name ∈ group.removedScopes := by
  have hcollected : Collected fun (q : Query) name => name ∈ q.removedScopes :=
    ⟨fun q name => List.not_mem_nil,
      fun q connective g name => (q.mem_absorb_removedScopes connective g name).mp⟩
  have hkept : Kept fun (q : Query) name => name ∈ q.removedScopes :=
    fun q connective g name => (q.mem_absorb_removedScopes connective g name).mpr
  constructor
  · intro hname
    rcases addRules_collects (fun _ _ => rfl) hcollected h hname with
      hold | ⟨placed, hplaced, group, hgroup, hname⟩
    · exact .inl hold
    · rcases leafGroup_cases hgroup with hleaves | ⟨p, rfl, -⟩
      · exact .inr ⟨group, ⟨placed, hplaced, hleaves⟩, hname⟩
      · exact absurd hname List.not_mem_nil
  · rintro (hold | ⟨group, ⟨placed, hplaced, hleaves⟩, hname⟩)
    · exact addRules_keeps (fun _ _ => rfl) hkept h (.inl hold)
    · exact addRules_keeps (fun _ _ => rfl) hkept h
        (.inr ⟨placed, hplaced, group, hleaves.leafGroup, hname⟩)

/-- The questions of the query and those of custom predicates are asked as they are. -/
theorem addRules_asks (h : addRules filters registry context payload q = .ok r)
    {asked : Link × Query}
    (hasked : asked ∈ clausesQuestions q.clauses ∨
      ∃ group, CustomLeaves filters registry context payload q group ∧
        asked ∈ clausesQuestions group.clauses) :
    asked ∈ clausesQuestions r.clauses := by
  have hkept : Kept fun (q : Query) asked => asked ∈ clausesQuestions q.clauses := by
    intro q connective g asked hold
    rw [q.absorb_questions connective g]
    exact List.mem_append.mpr hold
  rcases hasked with hold | ⟨group, ⟨placed, hplaced, hleaves⟩, hnew⟩
  · exact addRules_keeps (fun _ _ => rfl) hkept h (.inl hold)
  · exact addRules_keeps (fun _ _ => rfl) hkept h
      (.inr ⟨placed, hplaced, group, hleaves.leafGroup, hnew⟩)

/-- Every other question is one of a rule without custom predicate, and removes no scope. -/
theorem addRules_questions (h : addRules filters registry context payload q = .ok r)
    {asked : Link × Query} (hasked : asked ∈ r.questions) :
    asked ∈ q.questions ∨
      (∃ group, CustomLeaves filters registry context payload q group ∧
        asked ∈ group.questions) ∨ asked.2.KeepsScopes := by
  have hcollected : Collected fun (q : Query) asked => asked ∈ q.questions :=
    ⟨fun q asked => List.not_mem_nil,
      fun q connective g asked => q.mem_absorb_questions connective g⟩
  rcases addRules_collects (fun _ _ => rfl) hcollected h hasked with
    hold | ⟨placed, hplaced, group, hgroup, hnew⟩
  · exact .inl hold
  · rcases leafGroup_cases hgroup with hleaves | ⟨p, rfl, hp⟩
    · exact .inr (.inl ⟨group, ⟨placed, hplaced, hleaves⟩, hnew⟩)
    · cases p with
      | none => exact absurd hnew List.not_mem_nil
      | some p =>
        have hmem : asked ∈ clausesQuestions [⟨.and, p⟩] := hnew
        rw [clausesQuestions_single] at hmem
        exact .inr (.inr (hp p rfl asked hmem))

/-! ## Propagation -/

/-- The scopes removed after rules were put into a query are those that were removed before and
those that a custom predicate of a usable rule removed from the query that it was handed.  Questions about
related rows keep what is removed in them, and rules without custom predicate ask questions that
remove nothing.  As long as no join hides the table, the rows of the listing come from rows that
every other scope admits; and whatever the query, a question or an aggregate is about related rows
that its own query admits. -/
theorem addRules_scopes (h : addRules filters registry context payload q = .ok r) :
    (∀ name, name ∈ r.removedScopes ↔ name ∈ q.removedScopes ∨
      ∃ group, CustomLeaves filters registry context payload q group ∧
        name ∈ group.removedScopes) ∧
    (∀ asked, (asked ∈ clausesQuestions q.clauses ∨
        ∃ group, CustomLeaves filters registry context payload q group ∧
          asked ∈ clausesQuestions group.clauses) →
      asked ∈ clausesQuestions r.clauses) ∧
    (∀ asked ∈ r.questions, asked ∈ q.questions ∨
      (∃ group, CustomLeaves filters registry context payload q group ∧
        asked ∈ group.questions) ∨ asked.2.KeepsScopes) ∧
    (∀ db : Dataset, (∀ j ∈ r.joins, j.tableAlias ≠ r.qualifier) →
      (∀ row ∈ execute db r, ∃ frame ∈ matchingFrames db r, row = project db r frame) ∧
      ∀ frame ∈ matchingFrames db r, ∃ root ∈ db.rows r.entity.table,
        frame.row? r.qualifier = some root ∧
          ∀ scope ∈ r.entity.scopes, scope.name ∉ r.removedScopes →
            scope.admits r.entity root = true) ∧
    ∀ (db : Dataset) (frame : Frame) (link : Link) (sub : Query),
      (∀ row ∈ matchingRows db frame link sub, ∀ scope ∈ sub.entity.scopes,
        scope.name ∉ sub.removedScopes → scope.admits sub.entity row = true) ∧
      (∀ negated, predicateHolds db frame (.related link sub negated) =
        ((!(matchingRows db frame link sub).isEmpty) != negated)) ∧
      (∀ op bound, predicateHolds db frame (.counted link sub op bound) =
        op.holds (compare ((matchingRows db frame link sub).length : Int) bound)) ∧
      ∀ function column name, Engine.aggregate db frame ⟨link, sub, function, column, name⟩ =
        fold function
          (column.toList.flatMap fun column =>
            (matchingRows db frame link sub).map fun row => row.value column)
          (matchingRows db frame link sub).length := by
  refine ⟨addRules_removedScopes h, fun asked => addRules_asks h,
    fun asked => addRules_questions h, fun db hapart => ⟨?_, ?_⟩,
    fun db frame link sub => ⟨?_, ?_, ?_, ?_⟩⟩
  · exact fun row hrow => execute_projects db hrow
  · exact fun frame hframe => root_admitted db hapart hframe
  · exact fun row hrow => matchingRows_admitted db frame link sub hrow
  · exact related_iff_matchingRows db frame link sub
  · exact counted_eq_matchingRows db frame link sub
  · intro function column name
    cases column with
    | none => rfl
    | some column =>
      unfold Engine.aggregate
      simp

end

/-! ## A sample -/

/-- Contacts that may be deleted, and of which only those of one owner are seen. -/
def ownedContact : Entity :=
  let contact := (Sample.contact.addColumn "deleted_at" .dateTime).addColumn "owner" .integer
  (contact.addScope (.softDeletes "deleted_at")).addScope ⟨"owned", .equals "owner" (.integer 7)⟩

/-- Companies that may be deleted. -/
def ownedRegistry : Registry :=
  ⟨[("company", Sample.company.addScope (.softDeletes "deleted_at")), ("contact", ownedContact)]⟩

/-- Deleted contacts as well; contacts of any company, deleted or not; and a filter that never
works. -/
def scopeFilters : FilterSet :=
  let custom (id : String)
      (apply : Environment → PredicateCall → Query → Except CompileError Query) : Filter :=
    { Filter.plain .static id id with custom := some ⟨id, apply⟩ }
  ⟨[custom "deleted" fun _ _ q => .ok (q.removeScope "soft_deletes"),
    custom "employed" fun env call q => do
      let (link, company) ← q.relationQuery env.registry "company"
      .ok (q.addRelated call.connective link (company.removeScope "soft_deletes") false),
    custom "broken" fun _ _ q => .error (.unknownFilter (q.removeScope "owned").qualifier)]⟩

/-- A rule inside a group removes a scope, and one that is left out removes nothing. -/
theorem addRules_scopes_sample :
    let tree : Rule.Tree := ⟨.and, [.group .or [Sample.rule "deleted" "equal" (.bool true),
      Sample.rule "employed" "equal" (.bool true)], Sample.rule "broken" "equal" .null], by simp⟩
    ∃ r, addRules scopeFilters ownedRegistry Sample.context tree.toJson
        (Query.ofEntity ownedContact) = .ok r ∧
      r.removedScopes = ["soft_deletes"] ∧
      (clausesQuestions r.clauses).map (fun asked => asked.2.removedScopes) = [["soft_deletes"]] ∧
      (∃ group, CustomLeaves scopeFilters ownedRegistry Sample.context tree.toJson
        (Query.ofEntity ownedContact) group ∧ "soft_deletes" ∈ group.removedScopes) ∧
      ∀ (db : Dataset) (frame : Frame), frame ∈ matchingFrames db r →
        ∃ root ∈ db.rows r.entity.table, frame.row? r.qualifier = some root ∧
          ∀ scope ∈ r.entity.scopes, scope.name ≠ "soft_deletes" →
            scope.admits r.entity root = true := by
  intro tree
  have hrun : (addRules scopeFilters ownedRegistry Sample.context tree.toJson
      (Query.ofEntity ownedContact)).toOption.map (fun r => (r.removedScopes,
        (clausesQuestions r.clauses).map (fun asked => asked.2.removedScopes), r.joins.isEmpty)) =
      some (["soft_deletes"], [["soft_deletes"]], true) := by
    decide +kernel
  cases h : addRules scopeFilters ownedRegistry Sample.context tree.toJson
    (Query.ofEntity ownedContact) with
  | error error =>
    rw [h] at hrun
    cases hrun
  | ok r =>
    rw [h] at hrun
    obtain ⟨hremoved, hrest⟩ := Prod.mk.inj (Option.some.inj hrun)
    obtain ⟨hasked, hjoins⟩ := Prod.mk.inj hrest
    obtain ⟨hscopes, -, -, hrows, -⟩ := addRules_scopes h
    refine ⟨r, rfl, hremoved, hasked, ?_, fun db frame hframe => ?_⟩
    · have hname : "soft_deletes" ∈ r.removedScopes := by
        rw [hremoved]
        exact List.mem_singleton_self _
      rcases (hscopes "soft_deletes").mp hname with hold | hnew
      · exact absurd hold List.not_mem_nil
      · exact hnew
    · have hapart : ∀ j ∈ r.joins, j.tableAlias ≠ r.qualifier := by
        rw [List.isEmpty_iff.mp hjoins]
        exact fun j hj => absurd hj List.not_mem_nil
      obtain ⟨root, hroot, hbound, hadmits⟩ := (hrows db hapart).2 frame hframe
      refine ⟨root, hroot, hbound, fun scope hscope hname => hadmits scope hscope ?_⟩
      rw [hremoved, List.mem_singleton]
      exact hname

end Winnow.Listing
