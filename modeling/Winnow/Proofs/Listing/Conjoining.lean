import Winnow.Proofs.Compile.Collected
import Winnow.Proofs.Engine.Conjoined
import Winnow.Proofs.Listing.Rules
import Winnow.Proofs.Listing.SearchRows

/-!
# What criteria conjoin

Rules, requests and exports that can be put into the query of an entity can be
put into any query of it, and append the same AND clause wherever they come
(`addRules_alwaysConjoin`, `request_alwaysConjoin`, `export_alwaysConjoin`).
Besides, they join the to-one paths that rules read (`treePaths`) and those that
a listing is ordered through (`sortPath?`), each once.
-/

namespace Winnow

open Engine Compile Condition

namespace Listing

/-! ## Joined paths -/

/-- The to-one paths that the rules of a tree read. -/
def treePaths (filters : FilterSet) (registry : Registry) (e : Entity) (tree : Rule.Tree) :
    List (List String) :=
  ((tree.leaves.filterMap (leafPath? filters registry e)).map FieldPath.relations).filter
    (registry.isToOnePath e)

/-- The path that a sort field is reached through: of a field that is neither a column nor has the
form of an aggregate's name. -/
def sortPath? (registry : Registry) (e : Entity) (sort : SortField) : Option (List String) :=
  let field := Text.trim sort.field
  if e.hasColumn field || namesAggregate field then none
  else
    let path := registry.splitPath e (Text.replaceChar '|' "." field)
    if path.isRelated then some path.relations else none

/-- Whether paths may be joined, with everything on the way to their ends. -/
def Allows (allowed : List String → Prop) (paths : List (List String)) : Prop :=
  ∀ whole ∈ paths, ∀ path, path ≠ [] → path <+: whole → allowed path

theorem Allows.of_cons {allowed : List String → Prop} {α : Type} {path? : α → Option (List String)}
    {a : α} {l : List α} (h : Allows allowed ((a :: l).filterMap path?)) :
    Allows allowed (path? a).toList ∧ Allows allowed (l.filterMap path?) := by
  refine ⟨fun whole hwhole => h whole ?_, fun whole hwhole => h whole ?_⟩
  · exact List.mem_filterMap.mpr ⟨a, List.mem_cons_self, Option.mem_toList.mp hwhole⟩
  · obtain ⟨b, hb, hpath⟩ := List.mem_filterMap.mp hwhole
    exact List.mem_filterMap.mpr ⟨b, List.mem_cons_of_mem a hb, hpath⟩

end Listing

/-! ## Rules -/

namespace Compile

/-- Whether a query holds anything besides clauses. -/
def HoldsMore (q : Query) (_ : Unit) : Prop := q ≠ { q.group with clauses := q.clauses }

theorem holdsMore_collected : Collected HoldsMore where
  blank q _ h := h rfl
  absorb q connective g _ h := by
    by_contra hneither
    obtain ⟨hq, hg⟩ := not_or.mp hneither
    refine h ?_
    rw [Query.absorb_of_clauses (not_not.mp hg), not_not.mp hq]
    cases g.groupPredicate <;> rfl

/-- The group of rules that are handed to no custom predicate consists of clauses and nothing
else. -/
theorem compileNodes_clauses {filters : FilterSet} {env : Environment} {connective : Connective}
    {nodes : List Rule.Node} {q g : Query}
    (hnone : ∀ placed ∈ Rule.placedNodes connective nodes, ∀ r, resolve filters placed.2 = .ok r →
      r.custom? = none)
    (h : compileNodes filters env connective q.group nodes = .ok g) :
    g = { g.group with clauses := g.clauses } := by
  by_contra hmore
  rcases compileNodes_collects (x := ()) holdsMore_collected nodes h hmore with
    hblank | ⟨placed, hplaced, group, hgroup, hheld⟩
  · exact hblank rfl
  · rcases leafGroup_cases hgroup with ⟨r, custom, hr, hcustom, -⟩ | ⟨p, rfl, -⟩
    · rw [hnone placed hplaced r hr] at hcustom
      cases hcustom
    · exact hheld rfl

end Compile

namespace Rule

theorem treePaths_fillUser (filters : FilterSet) (registry : Registry) (e : Entity)
    (user : Option Int) (tree : Tree) :
    Listing.treePaths filters registry e (tree.fillUser filters user) =
      Listing.treePaths filters registry e tree := by
  cases user with
  | none => rfl
  | some user =>
    have hleaves : (tree.fillUser filters (some user)).leaves =
        tree.leaves.map (fillLeaf filters user) :=
      nodeLeaves_mapNodeLeaves (fillLeaf filters user) tree.children
    have hpaths : leafPath? filters registry e ∘ fillLeaf filters user =
        leafPath? filters registry e :=
      funext fun leaf => leafPath?_fillLeaf filters registry e user leaf
    unfold Listing.treePaths
    rw [hleaves, List.filterMap_map, hpaths]

end Rule

namespace Listing

section
variable {db : Dataset} {registry : Registry} {e : Entity} {allowed : List String → Prop}
  {q : Query}

/-- A group that reads some names only is one clause that does. -/
theorem reads_of_gathers {names : List String} {g : Query} (h : g.Gathers Test.Typed names)
    (hgroup : g.group = Query.ofEntity e) (hown : e.table ∈ names) :
    ∀ p ∈ g.groupPredicate, p.reads ⊆ names := by
  have hqualifier : g.qualifier = e.table :=
    Query.qualifier_eq_of_group (r := Query.ofEntity e) hgroup
  intro p hp
  exact (h.groupPredicate hp).reads_subset (hqualifier ▸ hown)

section
variable {filters : FilterSet} (hplain : filters.Plain) {env : Environment} {g : Query}

include hplain

/-- The group of a tree is put in as one AND clause, which reads names that are bound. -/
theorem putRules_conjoins {connective : Connective} {nodes : List Rule.Node}
    (hg : compileNodes filters env connective (Query.ofEntity e).group nodes = .ok g)
    {names : List String} (hcovers : Covers env names (Query.ofEntity e))
    (hq : Tracked db registry e allowed q)
    (hnames : ∀ name ∈ names, name = e.table ∨ q.hasJoin name = true) :
    Tracked db registry e allowed (putRules q g) ∧
      Conjoins e q g.groupPredicate.toList (putRules q g) := by
  obtain ⟨hgathers, hgroup⟩ := compileNodes_gathers hplain hcovers hg
  have hclauses : g = { g.group with clauses := g.clauses } :=
    compileNodes_clauses (fun _ _ _ hr => custom_none_of_plain hplain hr) hg
  have hreads := reads_of_gathers hgathers hgroup hcovers.own
  have hput : putRules q g = q.addPredicate .and g.groupPredicate :=
    Query.absorb_of_clauses hclauses q .and
  rw [hput]
  exact hq.addPredicate g.groupPredicate fun p hp name hname => hnames name (hreads p hp hname)

end

/-- What is joined for a tree: to-one paths that its rules read, under their own aliases. -/
theorem joinTargets_paths {filters : FilterSet} {tree : Rule.Tree} {t : JoinTarget}
    (ht : t ∈ (joinTargets filters registry e tree).values) :
    t.relations ≠ [] ∧ t.relations ∈ treePaths filters registry e tree ∧
      t.tableAlias = Text.join "_" t.relations := by
  obtain ⟨entry, hentry, rfl⟩ := List.mem_map.mp ht
  obtain ⟨leaf, hleaf, path, hpath, htoOne, -, htarget⟩ := mem_joinTargets hentry
  rw [htarget]
  refine ⟨(leafPath?_relations hpath).1, List.mem_filter.mpr ⟨?_, htoOne⟩, rfl⟩
  exact List.mem_map_of_mem (List.mem_filterMap.mpr ⟨leaf, hleaf, hpath⟩)

theorem joinTargets_allowed {filters : FilterSet} {tree : Rule.Tree} {t : JoinTarget}
    (hallowed : Allows allowed (treePaths filters registry e tree))
    (ht : t ∈ (joinTargets filters registry e tree).values) :
    t.relations ≠ [] ∧ registry.isToOnePath e t.relations = true ∧
      (∀ path, path ≠ [] → path <+: t.relations → allowed path) ∧
        t.tableAlias = Text.join "_" t.relations := by
  obtain ⟨hne, hpath, halias⟩ := joinTargets_paths ht
  exact ⟨hne, (List.mem_filter.mp hpath).2, hallowed t.relations hpath, halias⟩

section
variable (hunique : UniqueToOne db registry e) (hapart : AliasesApart e.table allowed)

include hunique hapart

/-- Induction over the targets: each of them can be joined, and its alias stays bound. -/
theorem joinPaths_conjoins {targets : List JoinTarget} (hq : Tracked db registry e allowed q)
    (htargets : ∀ t ∈ targets, t.relations ≠ [] ∧ registry.isToOnePath e t.relations = true ∧
      ∀ path, path ≠ [] → path <+: t.relations → allowed path) :
    ∃ r, targets.foldlM (fun q t => (q.joinPath registry t.relations).map Prod.snd) q =
        (.ok r : Except CompileError Query) ∧
      Tracked db registry e allowed r ∧ Conjoins e q [] r ∧
        ∀ t ∈ targets, r.hasJoin (Text.join "_" t.relations) = true := by
  induction targets generalizing q with
  | nil => exact ⟨q, rfl, hq, .refl e q, by simp⟩
  | cons t targets ih =>
    obtain ⟨hne, htoOne, hallowed⟩ := htargets t List.mem_cons_self
    obtain ⟨joined, hjoin, htracked, hconjoins, hbound⟩ :=
      hq.joinPath hunique hapart hne htoOne hallowed
    obtain ⟨r, hr, htracked', hconjoins', hrest⟩ :=
      ih htracked fun t' ht' => htargets t' (List.mem_cons_of_mem t ht')
    refine ⟨r, ?_, htracked', hconjoins.trans hconjoins', fun t' ht' => ?_⟩
    · rw [List.foldlM_cons, hjoin]
      exact hr
    · rcases List.mem_cons.mp ht' with rfl | ht'
      · exact hconjoins'.keeps _ hbound
      · exact hrest t' ht'

variable {filters : FilterSet} (hplain : filters.Plain) {context : CompileContext}
  {tree : Rule.Tree}

include hplain

theorem addTree_alwaysConjoin (hallowed : Allows allowed (treePaths filters registry e tree))
    {alone : Query}
    (h : addTree filters registry context tree (Query.ofEntity e) = .ok alone) :
    ∃ ps, AlwaysConjoin db registry e allowed (addTree filters registry context tree) ps := by
  unfold addTree at h
  by_cases hneeds : needsJoins filters registry e tree = true
  · rw [show (Query.ofEntity e).entity = e from rfl, if_pos hneeds] at h
    obtain ⟨joined, -, h⟩ := bind_eq_ok h
    obtain ⟨g, hg, -⟩ := bind_eq_ok h
    have htargets := fun t ht => joinTargets_allowed (t := t) hallowed ht
    have hcovers : Covers ⟨registry, context, some (joinTargets filters registry e tree)⟩
        (e.table :: (joinTargets filters registry e tree).values.map JoinTarget.tableAlias)
        (Query.ofEntity e) := by
      refine ⟨List.mem_cons_self, fun path target htarget => List.mem_cons_of_mem _ ?_⟩
      exact List.mem_map_of_mem (Keyed.mem_values_of_get? htarget)
    refine ⟨g.groupPredicate.toList, fun q hq => ?_⟩
    obtain ⟨r, hr, htracked, hjoins, hbound⟩ := joinPaths_conjoins hunique hapart hq
      fun t ht => ⟨(htargets t ht).1, (htargets t ht).2.1, (htargets t ht).2.2.1⟩
    obtain ⟨hput, hconjoins⟩ := putRules_conjoins hplain hg hcovers htracked fun name hname => by
      rcases List.mem_cons.mp hname with rfl | hname
      · exact .inl rfl
      · obtain ⟨t, ht, rfl⟩ := List.mem_map.mp hname
        rw [(htargets t ht).2.2.2]
        exact .inr (hbound t ht)
    have hr : joinAll registry (joinTargets filters registry e tree) q = .ok r := hr
    refine ⟨putRules r g, ?_, hput, hjoins.trans hconjoins⟩
    unfold addTree
    rw [hq.entity_eq, hq.group_eq, if_pos hneeds]
    simp only [bind, Except.bind, hr,
      show compileTree filters _ tree (Query.ofEntity e) = _ from hg]
  · rw [show (Query.ofEntity e).entity = e from rfl, if_neg hneeds] at h
    obtain ⟨g, hg, -⟩ := bind_eq_ok h
    refine ⟨g.groupPredicate.toList, fun q hq => ?_⟩
    obtain ⟨hput, hconjoins⟩ := putRules_conjoins hplain hg covers_of_no_joins hq fun name hname =>
      .inl (List.mem_singleton.mp hname)
    refine ⟨putRules q g, ?_, hput, hconjoins⟩
    unfold addTree
    rw [hq.entity_eq, hq.group_eq, if_neg hneeds]
    simp only [bind, Except.bind, show compileTree filters _ tree (Query.ofEntity e) = _ from hg]

theorem addRules_alwaysConjoin {payload : Json}
    (hallowed : Allows allowed
      ((Rule.Tree.read? payload).toList.flatMap (treePaths filters registry e))) {alone : Query}
    (h : addRules filters registry context payload (Query.ofEntity e) = .ok alone) :
    ∃ ps, AlwaysConjoin db registry e allowed (addRules filters registry context payload) ps := by
  unfold addRules at h ⊢
  cases hread : Rule.Tree.read? payload with
  | none => exact ⟨[], fun q hq => ⟨q, rfl, hq, .refl e q⟩⟩
  | some tree =>
    simp only [hread] at h
    rw [hread, Option.toList_some, List.flatMap_singleton,
      ← Rule.treePaths_fillUser filters registry e context.user] at hallowed
    exact addTree_alwaysConjoin hunique hapart hplain hallowed h

end

/-! ## Requests -/

theorem liftCompile_alwaysConjoin {step : Query → Except CompileError Query}
    {ps : List Predicate} (h : AlwaysConjoin db registry e allowed step ps) :
    AlwaysConjoin db registry e allowed (fun q => Failure.liftCompile (step q)) ps := by
  intro q hq
  obtain ⟨r, hr, htracked⟩ := h q hq
  exact ⟨r, congrArg Failure.liftCompile hr, htracked⟩

section
variable {context : CompileContext} {settings : QuerySettings} {scope : SearchScope}
  {p : Parameters} {alone : Query}

theorem searchGroup_group (env : Environment) (settings : QuerySettings) (p : Parameters)
    (fields : List SearchableColumn) (text : String) (q : Query) :
    searchGroup env settings p fields text q.group = searchGroup env settings p fields text q := by
  unfold searchGroup searchPredicate
  simp only [fieldPredicate_group]
  rfl

/-- A search depends on the query only through its table, and reads nothing but its table. -/
theorem search_alwaysConjoin (hextend : scope.extend = .ok)
    (h : search registry context settings scope p (Query.ofEntity e) = .ok alone) :
    ∃ ps, AlwaysConjoin db registry e allowed (search registry context settings scope p) ps := by
  rcases search_cases h with ⟨htext, -⟩ | ⟨text, fields, g, -, htext, hfields, hg, -, -⟩
  · refine ⟨[], fun q hq => ⟨q, ?_, hq, .refl e q⟩⟩
    unfold search
    rw [htext]
  · refine ⟨g.groupPredicate.toList, fun q hq => ?_⟩
    obtain ⟨hgathers, hgroup⟩ := searchGroup_gathers hg
    have hreads := reads_of_gathers hgathers hgroup List.mem_cons_self
    obtain ⟨htracked, hconjoins⟩ := hq.addPredicate g.groupPredicate fun p hp name hname =>
      .inl (List.mem_singleton.mp (hreads p hp hname))
    refine ⟨q.addPredicate .and g.groupPredicate, ?_, htracked, hconjoins⟩
    have hg : searchGroup ⟨registry, context, none⟩ settings p fields text q = .ok g := by
      rw [← searchGroup_group, hq.group_eq]
      exact hg
    have hfields : activeFields p (scope.searchable.getD q.entity.searchable) = .ok fields := by
      rw [hq.entity_eq]
      exact hfields
    have hclauses := searchGroup_clauses hg
    have hadded : q.group.addGroup .and g = q.group.addPredicate .and g.groupPredicate :=
      Query.addGroup_of_clauses (by rw [hclauses]; rfl) q.group .and
    unfold search
    simp only [htext, hfields, hg, hextend, hadded, bind, Except.bind, Failure.liftCompile]
    exact congrArg Except.ok (absorb_of_unextended hextend (by rw [hextend]))

end

section
variable (hunique : UniqueToOne db registry e) (hapart : AliasesApart e.table allowed)

include hunique hapart

/-- Orders by a column reached through relations join its path. -/
theorem orderByPath_alwaysConjoin {path : FieldPath} {direction : Direction} {start alone : Query}
    (hstart : start.group = Query.ofEntity e) (hrelated : path.isRelated = true)
    (h : orderByPath registry path direction start = .ok alone)
    (hallowed : Allows allowed [path.relations]) :
    AlwaysConjoin db registry e allowed (orderByPath registry path direction) [] := by
  have hentity : start.entity = e := Query.entity_eq_of_group (r := Query.ofEntity e) hstart
  intro q hq
  unfold orderByPath at h ⊢
  rw [hentity] at h
  rw [hq.entity_eq]
  obtain ⟨related, hwalk, h⟩ := bind_eq_ok h
  by_cases hcolumn : (!related.hasColumn path.column) = true
  · rw [if_pos hcolumn] at h
    cases h
  · rw [if_neg hcolumn] at h
    obtain ⟨⟨tableAlias, joined⟩, hpath, -⟩ := bind_eq_ok h
    have htoOne : registry.isToOnePath e path.relations = true := by
      rw [← hentity]
      exact Query.joinPath_isOk_iff.mp (by rw [hpath]; rfl)
    obtain ⟨r, hr, htracked, hconjoins, -⟩ := hq.joinPath hunique hapart
      (by simpa [FieldPath.isRelated] using hrelated) htoOne
      (hallowed path.relations (List.mem_singleton_self _))
    obtain ⟨hordered, hkept⟩ := htracked.keep (r := r.addOrder
      (.column (.field (Text.join "_" path.relations) path.column)) direction) rfl rfl rfl rfl
    refine ⟨_, ?_, hordered, hconjoins.trans hkept⟩
    simp only [hwalk, hr, bind, Except.bind, if_neg hcolumn]

theorem orderBy_alwaysConjoin {sort : SortField} {start alone : Query}
    (hstart : start.group = Query.ofEntity e) (h : orderBy registry sort start = .ok alone)
    (hallowed : Allows allowed (sortPath? registry e sort).toList) :
    AlwaysConjoin db registry e allowed (orderBy registry sort) [] := by
  have hentity : start.entity = e := Query.entity_eq_of_group (r := Query.ofEntity e) hstart
  intro q hq
  unfold orderBy at h ⊢
  unfold sortPath? at hallowed
  simp only [hentity, hq.entity_eq] at h ⊢
  by_cases hown : e.hasColumn (Text.trim sort.field) = true
  · rw [if_pos hown]
    exact ⟨_, rfl, hq.keep rfl rfl rfl rfl⟩
  · rw [if_neg hown] at h ⊢
    by_cases haggregate : namesAggregate (Text.trim sort.field) = true
    · rw [if_pos haggregate]
      exact ⟨_, rfl, hq.keep rfl rfl rfl rfl⟩
    · rw [if_neg haggregate] at h ⊢
      split at h
      next hrelated =>
        simp only [hown, haggregate, hrelated, Bool.or_self, Bool.false_eq_true, if_false, if_true,
          Option.toList_some] at hallowed
        rw [if_pos hrelated]
        exact orderByPath_alwaysConjoin hunique hapart hstart hrelated h hallowed q hq
      next => cases h

/-- Each sort field was followed by itself, on a query of the same table. -/
theorem orderByAll_alwaysConjoin {sorts : List SortField} {start alone : Query}
    (hstart : start.group = Query.ofEntity e) (h : orderByAll registry sorts start = .ok alone)
    (hallowed : Allows allowed (sorts.filterMap (sortPath? registry e))) :
    AlwaysConjoin db registry e allowed (orderByAll registry sorts) [] := by
  have heach := foldlM_each h (fun _ _ q r hstep hgroup =>
    show r.group = Query.ofEntity e from (orderBy_arranges hstep).group_eq.trans hgroup) hstart
  refine foldlM_conjoins_nothing fun sort hsort => ?_
  obtain ⟨q, r, hq, hr⟩ := heach sort hsort
  refine orderBy_alwaysConjoin hunique hapart hq hr fun whole hwhole => ?_
  exact hallowed whole (List.mem_filterMap.mpr ⟨sort, hsort, Option.mem_toList.mp hwhole⟩)

theorem requestOrder_alwaysConjoin {p : Parameters} {start alone : Query}
    (hstart : start.group = Query.ofEntity e) (h : requestOrder registry p start = .ok alone)
    (hallowed : Allows allowed (p.order.filterMap (sortPath? registry e))) :
    AlwaysConjoin db registry e allowed (requestOrder registry p) [] := by
  unfold requestOrder at h ⊢
  split at h
  next hnone =>
    simp only [hnone, if_true]
    exact fun q hq => ⟨q, rfl, hq, .refl e q⟩
  next hsome =>
    simp only [hsome]
    intro q hq
    obtain ⟨hforgot, hkept⟩ := hq.keep (r := q.forgetOrders) rfl rfl rfl rfl
    have hstart : start.forgetOrders.group = Query.ofEntity e := hstart
    obtain ⟨r, hr, htracked, hconjoins⟩ :=
      orderByAll_alwaysConjoin hunique hapart hstart h hallowed _ hforgot
    exact ⟨r, hr, htracked, hkept.trans hconjoins⟩

omit hunique hapart in
theorem requestSelect_alwaysConjoin {p : Parameters} {start alone : Query}
    (hstart : start.entity = e) (h : requestSelect p start = .ok alone) :
    AlwaysConjoin db registry e allowed (requestSelect p) [] := by
  refine .of_keep fun q hq => ?_
  unfold requestSelect at h ⊢
  rw [hstart] at h
  rw [hq]
  split at h
  next hnone =>
    rw [if_pos hnone]
    exact ⟨q, rfl, rfl, rfl, rfl, rfl⟩
  next hsome =>
    split at h
    · cases h
    next hfound =>
      rw [if_neg hsome]
      exact ⟨_, rfl, Query.select_keeps _ (fun _ _ => rfl) ..,
        Query.select_keeps _ (fun _ _ => rfl) .., Query.select_keeps _ (fun _ _ => rfl) ..,
        Query.select_keeps _ (fun _ _ => rfl) ..⟩

omit hunique hapart in
theorem requestLoad_alwaysConjoin {p : Parameters} {start alone : Query}
    (hstart : start.entity = e) (h : requestLoad registry p start = .ok alone) :
    AlwaysConjoin db registry e allowed (requestLoad registry p) [] := by
  refine .of_keep fun q hq => ?_
  unfold requestLoad at h ⊢
  rw [hstart] at h
  obtain ⟨targets, htargets, -⟩ := bind_eq_ok h
  rw [hq, htargets]
  exact ⟨_, rfl, Query.load_keeps _ (fun _ _ => rfl) .., Query.load_keeps _ (fun _ _ => rfl) ..,
    Query.load_keeps _ (fun _ _ => rfl) .., Query.load_keeps _ (fun _ _ => rfl) ..⟩

theorem request_alwaysConjoin {context : CompileContext} {settings : QuerySettings}
    {scope : SearchScope} (hextend : scope.extend = .ok) {p : Parameters} {alone : Query}
    (h : Listing.request registry context settings scope p (Query.ofEntity e) = .ok alone)
    (hallowed : Allows allowed (p.order.filterMap (sortPath? registry e))) :
    ∃ ps, AlwaysConjoin db registry e allowed
      (Listing.request registry context settings scope p) ps := by
  obtain ⟨searched, ordered, selected, loaded, hsearch, horder, hselect, hload, -⟩ :=
    request_parts h
  obtain ⟨ps, hsearches⟩ : ∃ ps, AlwaysConjoin db registry e allowed
      (search registry context settings scope p) ps := search_alwaysConjoin hextend hsearch
  obtain ⟨r, hr, htracked, -⟩ := hsearches (Query.ofEntity e) .ofEntity
  cases hsearch.symm.trans hr
  have hordered : ordered.entity = e :=
    (Query.entity_eq_of_group (requestOrder_arranges horder).group_eq).trans htracked.entity_eq
  have hselected : selected.entity = e :=
    (Query.entity_eq_of_group (requestSelect_arranges hselect).group_eq).trans hordered
  have hparts := liftCompile_alwaysConjoin
    ((requestOrder_alwaysConjoin hunique hapart htracked.group_eq horder hallowed).bind
      ((requestSelect_alwaysConjoin hordered hselect).bind
        (requestLoad_alwaysConjoin hselected hload)))
  have htake : AlwaysConjoin db registry e allowed
      (fun q => (.ok (requestTake settings p q) : Except Failure Query)) [] := by
    refine .of_keep fun q _ => ⟨requestTake settings p q, rfl, ?_⟩
    unfold requestTake
    split <;> exact ⟨rfl, rfl, rfl, rfl⟩
  exact ⟨_, hsearches.bind (hparts.bind htake)⟩

end

/-! ## Exports -/

/-- An export depends on the query only through its table, and reads nothing but its table. -/
theorem export_alwaysConjoin {context : CompileContext} {column : String} {period : Option Period}
    {alone : Query} (h : Listing.export_ context column period (Query.ofEntity e) = .ok alone) :
    ∃ ps, AlwaysConjoin db registry e allowed (Listing.export_ context column period) ps := by
  have horder : ∀ q, Tracked db registry e allowed q →
      Tracked db registry e allowed (q.forgetOrders.orderByColumn column .descending) ∧
        Conjoins e q [] (q.forgetOrders.orderByColumn column .descending) :=
    fun q hq => hq.keep rfl rfl rfl rfl
  obtain ⟨type, bounded, htype, ⟨rfl, -⟩ | ⟨days, rfl, hbounded⟩, -⟩ := export_cases h
  · refine ⟨[], fun q hq => ⟨_, ?_, horder q hq⟩⟩
    have htype : q.entity.columnType? column = some type := hq.entity_eq ▸ htype
    unfold Listing.export_
    rw [htype]
    rfl
  · obtain ⟨start, finish, low, high, hdays, hbounds, -⟩ := addPeriod_cases hbounded
    refine ⟨[.halfOpen (.field e.table column) low high], fun q hq => ?_⟩
    have htype : q.entity.columnType? column = some type := hq.entity_eq ▸ htype
    have hcolumn : q.column column = .field e.table column :=
      congrArg (Column.field · column) hq.qualifier_eq
    obtain ⟨htracked, hconjoins⟩ :=
      hq.addPredicate (some (.halfOpen (.field e.table column) low high)) fun p hp name hname => by
        cases hp
        refine .inl ?_
        simpa [Predicate.halfOpen, Predicate.reads, clausesRead, Test.column, Column.qualifier]
          using hname
    obtain ⟨hordered, hkept⟩ := horder _ htracked
    have hbounded : addPeriod context column type days q =
        .ok (q.addClause .and (.halfOpen (.field e.table column) low high)) := by
      simp only [addPeriod, hdays, hbounds, hcolumn, bind, Except.bind]
    refine ⟨_, ?_, hordered, hconjoins.trans hkept⟩
    simp only [Listing.export_, htype, hbounded, bind, Except.bind]
    rfl

end

end Listing
end Winnow
