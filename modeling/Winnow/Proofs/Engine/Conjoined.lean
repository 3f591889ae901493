import Winnow.Proofs.Engine.Listing
import Winnow.Proofs.Engine.Matching
import Winnow.Proofs.Query.Closed
import Winnow.Proofs.Success

/-!
# Conjoined predicates

A query of an entity to which paths of relations are joined binds every path to
the same rows, whatever else is joined (`BindsPaths.agree`), and keeps one frame
for every row of its table, so it matches each row once at most
(`FramesOf.matchedRows_eq`).  Steps that append AND clauses and join what these
read (`AlwaysConjoin`) therefore ask the same of a row wherever they come in a
run (`foldlM_alwaysConjoin`).
-/

namespace Winnow.Engine

open Condition

/-! ## Definitions -/

/-- The rows of the table of a query that it matches, as often as it does, whatever its order, page
and projection. -/
def matchedRows (db : Dataset) (q : Query) : List Row :=
  (matchingFrames db q).filterMap fun frame => frame.row? q.qualifier

/-- A query of an entity with all its global scopes, to which allowed paths of relations were
joined. -/
structure Tracked (db : Dataset) (registry : Registry) (e : Entity)
    (allowed : List String → Prop) (q : Query) : Prop where
  group_eq : q.group = Query.ofEntity e
  removedScopes_eq : q.removedScopes = []
  tracks : ∃ paths, Tracks db registry q paths ∧ ∀ path ∈ paths, allowed path

/-- A query with AND clauses and joins appended, where the clauses read the table and joins. -/
structure Conjoins (e : Entity) (q : Query) (ps : List Predicate) (r : Query) : Prop where
  clauses_eq : r.clauses = q.clauses ++ ps.map fun p => ⟨.and, p⟩
  keeps : ∀ name, q.hasJoin name = true → r.hasJoin name = true
  binds : ∀ p ∈ ps, ∀ name ∈ p.reads, name = e.table ∨ r.hasJoin name = true

/-- A step that succeeds on all such queries, and appends the same predicates to each. -/
def AlwaysConjoin (db : Dataset) (registry : Registry) (e : Entity) (allowed : List String → Prop)
    {ε : Type} (step : Query → Except ε Query) (ps : List Predicate) : Prop :=
  ∀ q, Tracked db registry e allowed q →
    ∃ r, step q = .ok r ∧ Tracked db registry e allowed r ∧ Conjoins e q ps r

/-- Frames of the rows of an entity in which every join is bound to what an allowed path reaches. -/
structure BindsPaths (db : Dataset) (registry : Registry) (e : Entity)
    (allowed : List String → Prop) (q : Query) (frameOf : Row → Frame) : Prop where
  frames : FramesOf db q frameOf
  joins : ∀ name, q.hasJoin name = true → ∃ path, allowed path ∧ Text.join "_" path = name ∧
    ∀ row ∈ db.rows e.table, (frameOf row).row? name = (reached db registry e path row).head?

/-! ## Frames -/

section
variable {db : Dataset} {q : Query} {frameOf : Row → Frame} (h : FramesOf db q frameOf)
  (hremoved : q.removedScopes = []) {ps : List Predicate}
  (hclauses : q.clauses = ps.map fun p => ⟨.and, p⟩)

include h hremoved hclauses

/-- The frames that satisfy AND clauses are those of the visible rows of which all of them hold. -/
theorem FramesOf.matchingFrames_eq :
    matchingFrames db q = ((db.rows q.entity.table).filter fun row =>
      q.entity.shows row && allHold db (frameOf row) ps).map frameOf := by
  unfold matchingFrames
  rw [h.joinedFrames_eq, List.filter_map]
  refine congrArg (List.map frameOf) (List.filter_congr fun row hrow => ?_)
  show queryHolds db (frameOf row) q = _
  unfold queryHolds
  rw [scopesHold_eq_shows hremoved (h.root row hrow), hclauses]
  cases ps with
  | nil => rfl
  | cons p ps => rw [clausesHold_uniform _ _ .and (List.cons_ne_nil p ps)]; rfl

theorem FramesOf.matchedRows_eq :
    matchedRows db q = (db.rows q.entity.table).filter fun row =>
      q.entity.shows row && allHold db (frameOf row) ps := by
  unfold matchedRows
  rw [h.matchingFrames_eq hremoved hclauses, List.filterMap_map]
  refine (List.filterMap_congr fun row hrow => ?_).trans List.filterMap_some
  exact h.root row (List.mem_filter.mp hrow).1

theorem FramesOf.count_eq : count db q = (matchedRows db q).length := by
  unfold count
  rw [h.matchedRows_eq hremoved hclauses, h.matchingFrames_eq hremoved hclauses, List.length_map]

end

section
variable {db : Dataset} {registry : Registry} {e : Entity} {allowed : List String → Prop}
  {q r : Query}

theorem Tracked.entity_eq (h : Tracked db registry e allowed q) : q.entity = e :=
  Query.entity_eq_of_group (r := Query.ofEntity e) h.group_eq

theorem Tracked.qualifier_eq (h : Tracked db registry e allowed q) : q.qualifier = e.table :=
  Query.qualifier_eq_of_group (r := Query.ofEntity e) h.group_eq

theorem Tracked.ofEntity : Tracked db registry e allowed (Query.ofEntity e) :=
  ⟨rfl, rfl, [], .nil rfl, fun _ h => absurd h List.not_mem_nil⟩

theorem Tracked.bindsPaths (h : Tracked db registry e allowed q) :
    ∃ frameOf, BindsPaths db registry e allowed q frameOf := by
  obtain ⟨paths, htracks, hallowed⟩ := h.tracks
  obtain ⟨frameOf, hframes, hrows⟩ := htracks.frames
  refine ⟨frameOf, ⟨hframes, fun row hrow => (hrows row hrow).1⟩, fun name hname => ?_⟩
  obtain ⟨path, hpath, halias⟩ := (htracks.hasJoin_iff name).mp hname
  rw [h.entity_eq] at hrows
  exact ⟨path, hallowed path hpath, halias, fun row hrow => halias ▸ (hrows row hrow).2 path hpath⟩

/-- Two queries bind what both of them bind alike. -/
theorem BindsPaths.agree (hapart : AliasesApart e.table allowed) {frameOf frameOf' : Row → Frame}
    (hq : Tracked db registry e allowed q) (hr : Tracked db registry e allowed r)
    (h : BindsPaths db registry e allowed q frameOf)
    (h' : BindsPaths db registry e allowed r frameOf') {row : Row} (hrow : row ∈ db.rows e.table)
    {names : List String}
    (hnames : ∀ name ∈ names, name = e.table ∨ q.hasJoin name = true ∧ r.hasJoin name = true) :
    AgreeOn names (frameOf row) (frameOf' row) := by
  have hroot := h.frames.root row (hq.entity_eq ▸ hrow)
  have hroot' := h'.frames.root row (hr.entity_eq ▸ hrow)
  rw [hq.qualifier_eq] at hroot
  rw [hr.qualifier_eq] at hroot'
  intro name hname
  rcases hnames name hname with rfl | ⟨hjoin, hjoin'⟩
  · exact hroot.trans hroot'.symm
  · obtain ⟨path, hpath, halias, hbound⟩ := h.joins name hjoin
    obtain ⟨path', hpath', halias', hbound'⟩ := h'.joins name hjoin'
    cases (hapart path hpath).2 path' hpath' (halias.trans halias'.symm)
    exact (hbound row hrow).trans (hbound' row hrow).symm

end

/-! ## Steps -/

section
variable {e : Entity} {q r s : Query} {ps ps' : List Predicate}

theorem Conjoins.refl (e : Entity) (q : Query) : Conjoins e q [] q :=
  ⟨by simp, fun _ h => h, by simp⟩

theorem Conjoins.trans (h : Conjoins e q ps r) (h' : Conjoins e r ps' s) :
    Conjoins e q (ps ++ ps') s := by
  refine ⟨?_, fun name hname => h'.keeps name (h.keeps name hname), fun p hp name hname => ?_⟩
  · rw [h'.clauses_eq, h.clauses_eq, List.map_append, List.append_assoc]
  · rcases List.mem_append.mp hp with hp | hp
    · exact (h.binds p hp name hname).imp_right (h'.keeps name)
    · exact h'.binds p hp name hname

end

section
variable {db : Dataset} {registry : Registry} {e : Entity} {allowed : List String → Prop}
  {q r : Query} {ε : Type}

/-- What neither the table, the scopes, the clauses nor the joins of a query depend on may
change. -/
theorem Tracked.keep (h : Tracked db registry e allowed q) (hgroup : r.group = q.group)
    (hremoved : r.removedScopes = q.removedScopes) (hclauses : r.clauses = q.clauses)
    (hjoins : r.joins = q.joins) : Tracked db registry e allowed r ∧ Conjoins e q [] r := by
  have hentity := Query.entity_eq_of_group hgroup
  have hqualifier := Query.qualifier_eq_of_group hgroup
  have hhas : ∀ name, r.hasJoin name = q.hasJoin name := by
    unfold Query.hasJoin
    rw [hjoins]
    exact fun _ => rfl
  obtain ⟨paths, htracks, hallowed⟩ := h.tracks
  refine ⟨⟨hgroup.trans h.group_eq, hremoved.trans h.removedScopes_eq, paths, ⟨?_, ?_⟩, hallowed⟩,
    ⟨by simp [hclauses], fun name hname => (hhas name).trans hname, by simp⟩⟩
  · intro name
    rw [hhas]
    exact htracks.hasJoin_iff name
  · have hframes : joinedFrames db r = joinedFrames db q := by
      unfold joinedFrames
      rw [hjoins, hqualifier, hentity]
    rw [hframes, hqualifier, hentity]
    exact htracks.frames

/-- One more AND clause, which reads the table and joins. -/
theorem Tracked.addPredicate (h : Tracked db registry e allowed q) (p : Option Predicate)
    (hreads : ∀ p' ∈ p, ∀ name ∈ p'.reads, name = e.table ∨ q.hasJoin name = true) :
    Tracked db registry e allowed (q.addPredicate .and p) ∧
      Conjoins e q p.toList (q.addPredicate .and p) := by
  cases p with
  | none => exact ⟨h, .refl e q⟩
  | some p =>
    obtain ⟨paths, ⟨hhas, hframes⟩, hallowed⟩ := h.tracks
    refine ⟨⟨h.group_eq, h.removedScopes_eq, paths, ⟨hhas, hframes⟩, hallowed⟩, rfl,
      fun _ hname => hname, fun p' hp' => ?_⟩
    rw [List.mem_singleton.mp hp']
    exact hreads p rfl

/-- Joining a to-one path appends no clause; its alias is bound then. -/
theorem Tracked.joinPath (h : Tracked db registry e allowed q) (hunique : UniqueToOne db registry e)
    (hapart : AliasesApart e.table allowed) {relations : List String} (hne : relations ≠ [])
    (htoOne : registry.isToOnePath e relations = true)
    (hallowed : ∀ path, path ≠ [] → path <+: relations → allowed path) :
    ∃ r, q.joinPath registry relations = .ok (Text.join "_" relations, r) ∧
      Tracked db registry e allowed r ∧ Conjoins e q [] r ∧
        r.hasJoin (Text.join "_" relations) = true := by
  obtain ⟨paths, htracks, hpaths⟩ := h.tracks
  have hentity := h.entity_eq
  have hallowed : ∀ path, path ≠ [] → path <+: [] ++ relations → allowed path := hallowed
  obtain ⟨tableAlias, joins, paths', hfrom, hnext, hend, hkept, hallowed'⟩ :=
    joinFrom_tracks (hentity ▸ hunique) (h.qualifier_eq ▸ hapart) htracks hpaths
      (.inl ⟨rfl, rfl⟩) rfl (by rw [hentity]; exact htoOne) hallowed
  have hhas : ∀ name, q.hasJoin name = true → (q.withJoins joins).hasJoin name = true := by
    intro name hname
    obtain ⟨path, hpath, halias⟩ := (htracks.hasJoin_iff name).mp hname
    exact (hnext.hasJoin_iff name).mpr ⟨path, hkept path hpath, halias⟩
  refine ⟨q.withJoins joins, ?_, ⟨h.group_eq, h.removedScopes_eq, paths', hnext, hallowed'⟩,
    ⟨by simp [Query.withJoins], hhas, by simp⟩, (hnext.hasJoin_iff _).mpr ⟨_, hend hne, rfl⟩⟩
  have halias := Query.joinFrom_alias hfrom hne
  rw [List.nil_append] at halias
  rw [← halias]
  exact hfrom

/-- A step that changes nothing that the rows of a query depend on. -/
theorem AlwaysConjoin.of_keep {step : Query → Except ε Query}
    (h : ∀ q, q.entity = e → ∃ r, step q = .ok r ∧ r.group = q.group ∧
      r.removedScopes = q.removedScopes ∧ r.clauses = q.clauses ∧ r.joins = q.joins) :
    AlwaysConjoin db registry e allowed step [] := by
  intro q hq
  obtain ⟨r, hr, hgroup, hremoved, hclauses, hjoins⟩ := h q hq.entity_eq
  exact ⟨r, hr, hq.keep hgroup hremoved hclauses hjoins⟩

/-- Steps one after another append their predicates one after another. -/
theorem AlwaysConjoin.bind {first next : Query → Except ε Query} {ps ps' : List Predicate}
    (h : AlwaysConjoin db registry e allowed first ps)
    (h' : AlwaysConjoin db registry e allowed next ps') :
    AlwaysConjoin db registry e allowed (fun q => first q >>= next) (ps ++ ps') := by
  intro q hq
  obtain ⟨r, hr, hr', hconjoins⟩ := h q hq
  obtain ⟨s, hs, hs', hconjoins'⟩ := h' r hr'
  refine ⟨s, ?_, hs', hconjoins.trans hconjoins'⟩
  show (first q >>= next) = _
  rw [hr]
  exact hs

section
variable (h : Tracked db registry e allowed q) {ps : List Predicate}
  (hconjoins : Conjoins e (Query.ofEntity e) ps q)

include h hconjoins

/-- Of the rows of an entity those are matched that its scopes show and that satisfy all predicates
conjoined, each of them once. -/
theorem Conjoins.matchedRows_eq :
    ∃ frameOf, BindsPaths db registry e allowed q frameOf ∧
      matchedRows db q = (db.rows e.table).filter (fun row =>
        e.shows row && allHold db (frameOf row) ps) ∧
      count db q = (matchedRows db q).length := by
  obtain ⟨frameOf, hframes⟩ := h.bindsPaths
  have hclauses : q.clauses = ps.map fun p => ⟨.and, p⟩ := hconjoins.clauses_eq
  have hrows := hframes.frames.matchedRows_eq h.removedScopes_eq hclauses
  rw [h.entity_eq] at hrows
  exact ⟨frameOf, hframes, hrows, hframes.frames.count_eq h.removedScopes_eq hclauses⟩

/-- Predicates conjoined by one query and, among others, by a second one hold of the same rows in
both. -/
theorem Conjoins.holds_alike (hapart : AliasesApart e.table allowed) {many : List Predicate}
    (hr : Tracked db registry e allowed r) (hmany : Conjoins e (Query.ofEntity e) many r)
    (hsub : ps ⊆ many) {frameOf frameOf' : Row → Frame}
    (hframes : BindsPaths db registry e allowed q frameOf)
    (hframes' : BindsPaths db registry e allowed r frameOf') {row : Row}
    (hrow : row ∈ db.rows e.table) :
    allHold db (frameOf row) ps = allHold db (frameOf' row) ps := by
  unfold allHold
  rw [Bool.eq_iff_iff, List.all_eq_true, List.all_eq_true]
  refine forall₂_congr fun p hp => ?_
  rw [predicateHolds_congr db p (hframes.agree hapart h hr hframes' hrow fun name hname => ?_)]
  rcases hconjoins.binds p hp name hname with htable | hjoin
  · exact .inl htable
  · rcases hmany.binds p (hsub hp) name hname with htable | hjoin'
    · exact .inl htable
    · exact .inr ⟨hjoin, hjoin'⟩

end

/-- A run of such steps is one. -/
theorem foldlM_alwaysConjoin {α : Type} {step : Query → α → Except ε Query}
    {ps : α → List Predicate} {l : List α}
    (h : ∀ a ∈ l, AlwaysConjoin db registry e allowed (fun q => step q a) (ps a)) :
    AlwaysConjoin db registry e allowed (fun q => l.foldlM step q) (l.flatMap ps) := by
  induction l with
  | nil => exact fun q hq => ⟨q, rfl, hq, .refl e q⟩
  | cons a l ih =>
    have hrest := ih fun b hb => h b (List.mem_cons_of_mem a hb)
    simp only [List.foldlM_cons, List.flatMap_cons]
    exact (h a List.mem_cons_self).bind hrest

/-- A run of steps that append nothing appends nothing. -/
theorem foldlM_conjoins_nothing {α : Type} {step : Query → α → Except ε Query} {l : List α}
    (h : ∀ a ∈ l, AlwaysConjoin db registry e allowed (fun q => step q a) []) :
    AlwaysConjoin db registry e allowed (fun q => l.foldlM step q) [] := by
  have hrun := foldlM_alwaysConjoin h
  rwa [List.flatMap_eq_nil_iff.mpr fun _ _ => rfl] at hrun

end

end Winnow.Engine
