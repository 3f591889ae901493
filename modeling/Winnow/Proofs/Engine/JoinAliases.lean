import Winnow.Listing.Rules
import Winnow.Proofs.Query.Closed
import Winnow.Proofs.Sample
import Winnow.Proofs.Text.Cutting

/-!
# What the alias of a joined path stands for

Walking a path of relations joins each of its beginnings once per alias.  So an
alias stands for the first of the walked paths that come to it
(`FirstJoins`, kept by every step: `FirstJoins.step`): as long as the walked
paths have different aliases it is the path's own join, and in every joined
frame it is bound to a row that the path leads to (`FramesFollow`).  Relation
names without underscores give different paths different aliases; with
underscores two paths may share one, and the later path then reads the rows of
the earlier.
-/

namespace Winnow

open Engine Condition

/-! ## Walked paths -/

namespace Query

/-- The paths that a walk goes through after the relations walked already. -/
def stepsFrom (walked : List String) : List String → List (List String)
  | [] => []
  | relation :: rest => (walked ++ [relation]) :: stepsFrom (walked ++ [relation]) rest

/-- The paths that walks along some paths go through, in order. -/
def steps (paths : List (List String)) : List (List String) := paths.flatMap (stepsFrom [])

/-- Joins paths one after another; gives the alias of each. -/
def joinPaths (registry : Registry) :
    List (List String) → Query → Except CompileError (List String × Query)
  | [], q => .ok ([], q)
  | path :: rest, q => do
    let (tableAlias, q) ← q.joinPath registry path
    let (aliases, q) ← joinPaths registry rest q
    .ok (tableAlias :: aliases, q)

/-- The name that the end of a path is read under: that of the table itself for the empty path. -/
def pathName (qualifier : String) (path : List String) : String :=
  if path = [] then qualifier else Text.join "_" path

/-- Whether a join is that of the last relation of a path, from the end of the path before it to
the entity that the path leads to. -/
def IsStep (registry : Registry) (e : Entity) (qualifier : String) (path : List String)
    (join : Join) : Prop :=
  ∃ front relation target found related, path = front ++ [relation] ∧
    registry.walk e front = .ok target ∧
    registry.related target relation = .ok (found, related) ∧ found.isToOne = true ∧
    relationJoin found related relation (pathName qualifier front) (Text.join "_" path) = some join

/-- Whether something of a query and the paths walked on it still holds after one more step, which
comes after the path up to it and adds its join. -/
def KeptByStep (registry : Registry) (keeps : Query → List (List String) → Prop) : Prop :=
  ∀ (q : Query) (walked : List (List String)) (path : List String) (join : Join), keeps q walked →
    IsStep registry q.entity q.qualifier path join → join.tableAlias = Text.join "_" path →
      path.dropLast = [] ∨ path.dropLast ∈ walked → keeps (q.addJoin join) (walked ++ [path])

/-- A query in which the join under an alias is that of the first walked path with this alias. -/
structure FirstJoins (registry : Registry) (q : Query) (walked : List (List String)) : Prop where
  /-- No path is walked before the path up to its last relation. -/
  closed : ∀ front relation, front ++ [relation] ∈ walked → front = [] ∨ front ∈ walked
  nodup : (q.joins.map Join.tableAlias).Nodup
  hasJoin_iff : ∀ a, q.hasJoin a = true ↔ ∃ path ∈ walked, Text.join "_" path = a
  first : ∀ join ∈ q.joins, ∃ path,
    walked.find? (fun path => Text.join "_" path == join.tableAlias) = some path ∧
      IsStep registry q.entity q.qualifier path join

end Query

namespace Engine

/-- Whether a frame binds a path to a row that it leads to from a row of the table, or to no row
where its last relation leads to none. -/
structure Follows (db : Dataset) (registry : Registry) (e : Entity) (qualifier : String) (row : Row)
    (frame : Frame) (path : List String) : Prop where
  reaches : ∀ r, frame.row? (Query.pathName qualifier path) = some r →
    r ∈ reached db registry e path row
  misses : frame.row? (Query.pathName qualifier path) = none → ∀ front relation target before,
    path = front ++ [relation] → registry.walk e front = .ok target →
      frame.row? (Query.pathName qualifier front) = some before →
        reached db registry target [relation] before = []

/-- A query in whose joined frames every walked path is followed from a row of the table. -/
def FramesFollow (db : Dataset) (registry : Registry) (q : Query) (walked : List (List String)) :
    Prop :=
  ∀ frame ∈ joinedFrames db q, ∃ row ∈ db.rows q.entity.table,
    frame.row? q.qualifier = some row ∧
      ∀ path ∈ walked, Follows db registry q.entity q.qualifier row frame path

end Engine

/-! ## One step -/

namespace Query

section
variable {registry : Registry} {q : Query} {walked : List (List String)}

theorem relationJoin_of_isToOne {found : Relation} (h : found.isToOne = true) (related : Entity)
    (relation parent tableAlias : String) :
    ∃ join, relationJoin found related relation parent tableAlias = some join ∧
      join.tableAlias = tableAlias ∧ join.table = related.table := by
  obtain ⟨parentColumn, relatedColumn, hkind⟩ := linkKind_of_isToOne h
  have hlink : (found.link relation parent related.table tableAlias).kind =
      .direct parentColumn relatedColumn := hkind
  unfold relationJoin
  rw [hlink]
  exact ⟨_, rfl, rfl, rfl⟩

theorem pathName_append (qualifier : String) (front : List String) (relation : String) :
    pathName qualifier (front ++ [relation]) = Text.join "_" (front ++ [relation]) :=
  if_neg (by simp)

theorem FirstJoins.ofEntity (e : Entity) : FirstJoins registry (ofEntity e) [] where
  closed := by simp
  nodup := List.nodup_nil
  hasJoin_iff := by simp [Query.hasJoin, Query.ofEntity]
  first := by simp [Query.ofEntity]

/-- A join whose alias is free becomes that of its path; a join whose alias is taken is dropped. -/
theorem FirstJoins.step (registry : Registry) : KeptByStep registry (FirstJoins registry) := by
  intro q walked path join h hstep halias hfront
  have hclosed : ∀ front relation, front ++ [relation] ∈ walked ++ [path] →
      front = [] ∨ front ∈ walked ++ [path] := by
    intro front relation hmem
    rw [List.mem_append]
    rcases List.mem_append.mp hmem with hmem | hmem
    · exact (h.closed front relation hmem).imp id .inl
    · rw [← List.mem_singleton.mp hmem, List.dropLast_concat] at hfront
      exact hfront.imp id .inl
  have hkept : ∀ {other : Join} {first : List String},
      walked.find? (fun path => Text.join "_" path == other.tableAlias) = some first →
        (walked ++ [path]).find? (fun path => Text.join "_" path == other.tableAlias) =
          some first := by
    intro other first hfirst
    rw [List.find?_append, hfirst]
    rfl
  have hhas : ∀ a, (q.addJoin join).hasJoin a = true ↔
      ∃ other ∈ walked ++ [path], Text.join "_" other = a := by
    intro a
    rw [hasJoin_addJoin, h.hasJoin_iff, halias]
    simp only [List.mem_append, List.mem_singleton, or_and_right, exists_or, exists_eq_left]
  by_cases htaken : q.hasJoin join.tableAlias = true
  · have hsame : q.addJoin join = q := if_pos htaken
    rw [hsame] at hhas ⊢
    refine ⟨hclosed, h.nodup, hhas, fun other hother => ?_⟩
    obtain ⟨first, hfirst, hown⟩ := h.first other hother
    exact ⟨first, hkept hfirst, hown⟩
  · have hadded : q.addJoin join = q.withJoins (q.joins ++ [join]) := if_neg htaken
    rw [hadded] at hhas ⊢
    refine ⟨hclosed, aliases_nodup_append h.nodup htaken, hhas, fun other hother => ?_⟩
    rcases List.mem_append.mp hother with hother | hother
    · obtain ⟨first, hfirst, hown⟩ := h.first other hother
      exact ⟨first, hkept hfirst, hown⟩
    · rw [List.mem_singleton.mp hother]
      refine ⟨path, ?_, hstep⟩
      have hnone : walked.find? (fun path => Text.join "_" path == join.tableAlias) = none := by
        refine List.find?_eq_none.mpr fun other hother hsame => htaken ?_
        exact (h.hasJoin_iff _).mpr ⟨other, hother, beq_iff_eq.mp hsame⟩
      rw [List.find?_append, hnone, halias]
      simp

end
end Query

namespace Engine

open Query

section
variable {db : Dataset} {registry : Registry} {q : Query} {walked : List (List String)}

theorem FramesFollow.ofEntity (e : Entity) : FramesFollow db registry (ofEntity e) [] := by
  intro frame hframe
  obtain ⟨row, hrow, rfl⟩ := List.mem_map.mp hframe
  exact ⟨row, hrow, Frame.row?_cons_self .., by simp⟩

section
variable {e : Entity} {qualifier : String}

/-- What a frame binds the end of a followed path to, the empty path included. -/
theorem mem_reached_of_follows {row before : Row} {frame : Frame} {front : List String}
    (hrow : frame.row? qualifier = some row)
    (hfollows : ∀ path ∈ walked, Follows db registry e qualifier row frame path)
    (hfront : front = [] ∨ front ∈ walked)
    (hbefore : frame.row? (pathName qualifier front) = some before) :
    before ∈ reached db registry e front row := by
  rcases hfront with rfl | hfront
  · have hsame : frame.row? (pathName qualifier []) = some row := hrow
    rw [hbefore] at hsame
    rw [Option.some.inj hsame]
    exact List.mem_singleton_self row
  · exact (hfollows front hfront).reaches before hbefore

/-- A binding under another name changes nothing for a path. -/
theorem Follows.cons {row : Row} {frame : Frame} {path : List String}
    (h : Follows db registry e qualifier row frame path) {tableAlias : String} {bound : Option Row}
    (hpath : tableAlias ≠ pathName qualifier path)
    (hfront : ∀ front relation, path = front ++ [relation] →
      tableAlias ≠ pathName qualifier front) :
    Follows db registry e qualifier row ((tableAlias, bound) :: frame) path := by
  refine ⟨fun r hr => ?_, fun hnone front relation target before hsplit hwalk hbefore => ?_⟩
  · rw [Frame.row?_cons_of_ne frame bound hpath] at hr
    exact h.reaches r hr
  · rw [Frame.row?_cons_of_ne frame bound hpath] at hnone
    rw [Frame.row?_cons_of_ne frame bound (hfront front relation hsplit)] at hbefore
    exact h.misses hnone front relation target before hsplit hwalk hbefore

theorem reached_single {target related : Entity} {relation : String} {found : Relation}
    (hrelated : registry.related target relation = .ok (found, related)) (row : Row) :
    reached db registry target [relation] row = reachedBy db found related row := by
  unfold reached
  rw [hrelated]
  simp [reached]

/-- A join under a free alias is followed in every frame that it makes. -/
theorem follows_joinFrame {row : Row} {frame frame' : Frame} {front : List String}
    {relation : String} {target related : Entity} {found : Relation} {join : Join}
    (hwalk : registry.walk e front = .ok target)
    (hrelated : registry.related target relation = .ok (found, related))
    (hfound : found.isToOne = true)
    (hjoin : relationJoin found related relation (pathName qualifier front)
      (Text.join "_" (front ++ [relation])) = some join)
    (hparent : pathName qualifier front ≠ Text.join "_" (front ++ [relation]))
    (hreached : ∀ before, frame.row? (pathName qualifier front) = some before →
      before ∈ reached db registry e front row)
    (hframe : frame' ∈ joinFrame db join frame) :
    ∃ bound, frame' = (Text.join "_" (front ++ [relation]), bound) :: frame ∧
      Follows db registry e qualifier row frame' (front ++ [relation]) := by
  obtain ⟨join', hjoin', -, hextended⟩ :=
    joinFrame_eq db found related relation hfound frame _ _ hparent
  cases hjoin.symm.trans hjoin'
  rw [hextended] at hframe
  have hname := pathName_append qualifier front relation
  split at hframe
  next hnone =>
    rw [List.mem_singleton.mp hframe]
    refine ⟨none, rfl, fun r hr => ?_, fun _ other last target' before hsplit hwalk' hbefore => ?_⟩
    · rw [hname, Frame.row?_cons_self] at hr
      cases hr
    · obtain ⟨rfl, hlast⟩ := List.append_inj' hsplit rfl
      cases List.singleton_inj.mp hlast
      cases hwalk.symm.trans hwalk'
      rw [Frame.row?_cons_of_ne frame none hparent.symm] at hbefore
      rw [hbefore] at hnone
      rw [reached_single hrelated]
      simpa using hnone
  next rows hrows =>
    obtain ⟨r, hr, rfl⟩ := List.mem_map.mp hframe
    refine ⟨some r, rfl, fun r' hr' => ?_, fun hnone => ?_⟩
    · rw [hname, Frame.row?_cons_self] at hr'
      cases hr'
      obtain ⟨before, hbefore, hby⟩ := List.mem_flatMap.mp hr
      rw [reached_append hwalk hrelated]
      exact List.mem_flatMap.mpr ⟨before, hreached before (Option.mem_toList.mp hbefore), hby⟩
    · rw [hname, Frame.row?_cons_self] at hnone
      cases hnone

end

/-- One step: where the walked paths have different aliases, each is still followed. -/
theorem FramesFollow.step (h : FramesFollow db registry q walked)
    (hjoins : FirstJoins registry q walked) {path : List String} {join : Join}
    (hstep : IsStep registry q.entity q.qualifier path join)
    (halias : join.tableAlias = Text.join "_" path)
    (hfront : path.dropLast = [] ∨ path.dropLast ∈ walked)
    (hapart : AliasesApart q.qualifier (· ∈ walked ++ [path])) :
    FramesFollow db registry (q.addJoin join) (walked ++ [path]) := by
  have hpath : path ∈ walked ++ [path] := List.mem_append_right _ (List.mem_singleton_self _)
  unfold addJoin
  split
  next htaken =>
    -- only the path itself can have taken its alias
    obtain ⟨other, hother, hsame⟩ := (hjoins.hasJoin_iff _).mp htaken
    rw [halias] at hsame
    have hsame := (hapart other (List.mem_append_left _ hother)).2 path hpath hsame
    intro frame hframe
    obtain ⟨row, hmem, hrow, hfollows⟩ := h frame hframe
    refine ⟨row, hmem, hrow, fun path hpath => ?_⟩
    rcases List.mem_append.mp hpath with hpath | hpath
    · exact hfollows path hpath
    · rw [List.mem_singleton.mp hpath, ← hsame]
      exact hfollows other hother
  next hfree =>
    obtain ⟨front, relation, target, found, related, rfl, hwalk, hrelated, hfound, hjoin⟩ := hstep
    rw [List.dropLast_concat] at hfront
    have hname : ∀ other, other = [] ∨ other ∈ walked →
        Text.join "_" (front ++ [relation]) ≠ pathName q.qualifier other := by
      intro other hother
      unfold pathName
      split
      · exact (hapart _ hpath).1
      next hne =>
        intro hsame
        refine hfree ((hjoins.hasJoin_iff _).mpr ⟨other, hother.resolve_left hne, ?_⟩)
        rw [halias, hsame]
    intro frame' hframe'
    have hframe' : frame' ∈ (joinedFrames db q).flatMap (joinFrame db join) := by
      rw [← joinedFrames_append]
      exact hframe'
    obtain ⟨frame, hframe, hextends⟩ := List.mem_flatMap.mp hframe'
    obtain ⟨row, hmem, hrow, hfollows⟩ := h frame hframe
    obtain ⟨bound, rfl, hlast⟩ := follows_joinFrame hwalk hrelated hfound hjoin
      (hname front hfront).symm (fun before => mem_reached_of_follows hrow hfollows hfront) hextends
    refine ⟨row, hmem, ?_, fun other hother => ?_⟩
    · exact (Frame.row?_cons_of_ne frame bound (hapart _ hpath).1).trans hrow
    · rcases List.mem_append.mp hother with hother | hother
      · exact (hfollows other hother).cons (hname other (.inr hother)) fun before last hsplit =>
          hname before (hjoins.closed before last (hsplit ▸ hother))
      · rw [List.mem_singleton.mp hother]
        exact hlast

end
end Engine

/-! ## Runs -/

namespace Query

/-- A query with the joins of some walked paths, each followed where their aliases differ. -/
structure Walks (registry : Registry) (q : Query) (walked : List (List String)) : Prop where
  joins : FirstJoins registry q walked
  frames : AliasesApart q.qualifier (· ∈ walked) → ∀ db, FramesFollow db registry q walked

section
variable {registry : Registry}

theorem Walks.ofEntity (e : Entity) : Walks registry (ofEntity e) [] :=
  ⟨.ofEntity e, fun _ _ => .ofEntity e⟩

theorem Walks.step (registry : Registry) : KeptByStep registry (Walks registry) := by
  intro q walked path join h hstep halias hfront
  refine ⟨FirstJoins.step registry q walked path join h.joins hstep halias hfront,
    fun hapart db => ?_⟩
  rw [qualifier_eq_of_group (addJoin_group q join)] at hapart
  refine (h.frames (fun other hother => ?_) db).step h.joins hstep halias hfront hapart
  obtain ⟨hname, hothers⟩ := hapart other (List.mem_append_left _ hother)
  exact ⟨hname, fun another hanother => hothers another (List.mem_append_left _ hanother)⟩

/-- A walk along one path, with what every step of it keeps of the query and the walked paths:
induction on what is left of the path. -/
theorem joinFrom_steps {keeps : Query → List (List String) → Prop}
    (hkeeps : KeptByStep registry keeps)
    {front rest : List String} {target : Entity} {parent tableAlias : String} {q r : Query}
    {walked : List (List String)} (h : keeps q walked)
    (hwalk : registry.walk q.entity front = .ok target)
    (hparent : parent = pathName q.qualifier front) (hfront : front = [] ∨ front ∈ walked)
    (hfrom : joinFrom registry front target parent rest q = .ok (tableAlias, r)) :
    tableAlias = pathName q.qualifier (front ++ rest) ∧ r.group = q.group ∧
      keeps r (walked ++ stepsFrom front rest) := by
  induction rest generalizing front target parent q walked with
  | nil =>
    cases hfrom
    rw [List.append_nil, stepsFrom, List.append_nil]
    exact ⟨hparent, rfl, h⟩
  | cons relation rest ih =>
    unfold joinFrom at hfrom
    cases hrelated : registry.related target relation with
    | error error =>
      rw [hrelated] at hfrom
      cases hfrom
    | ok pair =>
      obtain ⟨found, related⟩ := pair
      rw [hrelated] at hfrom
      simp only at hfrom
      split at hfrom
      · cases hfrom
      next hfound =>
        rw [Bool.not_eq_true, Bool.not_eq_false'] at hfound
        obtain ⟨join, hjoin, halias, -⟩ := relationJoin_of_isToOne hfound related relation parent
          (Text.join "_" (front ++ [relation]))
        rw [hjoin] at hfrom
        have hnext := hkeeps q walked (front ++ [relation]) join h
          ⟨front, relation, target, found, related, rfl, hwalk, hrelated, hfound, hparent ▸ hjoin⟩
          halias (by rwa [List.dropLast_concat])
        have hgroup : (q.addJoin join).group = q.group := addJoin_group q join
        have hwalk' : registry.walk (q.addJoin join).entity (front ++ [relation]) =
            .ok related := by
          rw [entity_eq_of_group hgroup]
          exact Registry.walk_append hwalk hrelated
        obtain ⟨hlast, hsame, hkept⟩ := ih hnext hwalk' (pathName_append ..).symm
          (.inr (List.mem_append_right _ (List.mem_singleton_self _))) hfrom
        rw [qualifier_eq_of_group hgroup] at hlast
        rw [List.append_assoc] at hlast hkept
        exact ⟨hlast, hsame.trans hgroup, hkept⟩

/-- A walk along a path from the table itself. -/
theorem joinPath_steps {keeps : Query → List (List String) → Prop}
    (hkeeps : KeptByStep registry keeps)
    {path : List String} {tableAlias : String} {q r : Query} {walked : List (List String)}
    (h : keeps q walked) (hjoin : q.joinPath registry path = .ok (tableAlias, r)) :
    tableAlias = pathName q.qualifier path ∧ r.group = q.group ∧
      keeps r (walked ++ stepsFrom [] path) :=
  joinFrom_steps hkeeps h rfl rfl (.inl rfl) hjoin

theorem joinPaths_walks {paths : List (List String)} {aliases : List String} {q r : Query}
    {walked : List (List String)} (h : Walks registry q walked)
    (hjoin : joinPaths registry paths q = .ok (aliases, r)) :
    aliases = paths.map (pathName q.qualifier) ∧ r.group = q.group ∧
      Walks registry r (walked ++ steps paths) := by
  induction paths generalizing q walked aliases with
  | nil =>
    cases hjoin
    exact ⟨rfl, rfl, by rwa [steps, List.flatMap_nil, List.append_nil]⟩
  | cons path rest ih =>
    unfold joinPaths at hjoin
    obtain ⟨⟨tableAlias, next⟩, hfirst, hjoin⟩ := bind_eq_ok hjoin
    obtain ⟨⟨others, last⟩, hrest, hjoin⟩ := bind_eq_ok hjoin
    cases hjoin
    obtain ⟨halias, hgroup, hnext⟩ := joinPath_steps (Walks.step registry) h hfirst
    obtain ⟨haliases, hsame, hlast⟩ := ih hnext hrest
    rw [qualifier_eq_of_group hgroup] at haliases
    refine ⟨?_, hsame.trans hgroup, ?_⟩
    · rw [List.map_cons, halias, haliases]
    · rw [List.append_assoc] at hlast
      exact hlast

end

theorem mem_stepsFrom {front rest path : List String} (h : path ∈ stepsFrom front rest) :
    path ≠ [] ∧ path <+: front ++ rest := by
  induction rest generalizing front with
  | nil => cases h
  | cons relation rest ih =>
    have hsplit : front ++ relation :: rest = (front ++ [relation]) ++ rest := by simp
    rw [hsplit]
    rcases List.mem_cons.mp h with rfl | h
    · exact ⟨by simp, List.prefix_append ..⟩
    · exact ih h

/-- A walk goes through every path on its way. -/
theorem mem_stepsFrom_of_start (front : List String) {rest path : List String} (hne : path ≠ [])
    (h : path <+: rest) : front ++ path ∈ stepsFrom front rest := by
  induction rest generalizing front path with
  | nil => exact absurd (List.prefix_nil.mp h) hne
  | cons relation rest ih =>
    cases path with
    | nil => exact absurd rfl hne
    | cons first others =>
      obtain ⟨rfl, hrest⟩ := List.cons_prefix_cons.mp h
      cases others with
      | nil => exact List.mem_cons_self
      | cons second others =>
        rw [List.append_cons]
        exact List.mem_cons_of_mem _ (ih _ (List.cons_ne_nil second others) hrest)

/-- Paths whose relations have no underscores in their names have different aliases. -/
theorem aliasesApart_of_plain {qualifier : String} {paths : List (List String)}
    (hplain : ∀ path ∈ paths, ∀ relation ∈ path, '_' ∉ relation.toList)
    (hqualifier : ∀ path ∈ steps paths, Text.join "_" path ≠ qualifier) :
    AliasesApart qualifier (· ∈ steps paths) := by
  have hwalked : ∀ path ∈ steps paths, path ≠ [] ∧ ∀ relation ∈ path, '_' ∉ relation.toList := by
    intro path hpath
    obtain ⟨whole, hwhole, hpath⟩ := List.mem_flatMap.mp hpath
    obtain ⟨hne, hbegin⟩ := mem_stepsFrom hpath
    exact ⟨hne, fun relation hrelation => hplain whole hwhole relation (hbegin.subset hrelation)⟩
  intro path hpath
  refine ⟨hqualifier path hpath, fun other hother hsame => ?_⟩
  obtain ⟨hne, hpath⟩ := hwalked path hpath
  obtain ⟨hne', hother⟩ := hwalked other hother
  exact Text.join_injective hne hne' hpath hother hsame

theorem FirstJoins.own {registry : Registry} {q : Query} {walked : List (List String)}
    (h : FirstJoins registry q walked) {path : List String} (hpath : path ∈ walked) :
    ∃ first join,
      walked.find? (fun other => Text.join "_" other == Text.join "_" path) = some first ∧
        join ∈ q.joins ∧ join.tableAlias = Text.join "_" path ∧
          IsStep registry q.entity q.qualifier first join := by
  obtain ⟨join, hjoin, hsame⟩ := List.any_eq_true.mp ((h.hasJoin_iff _).mpr ⟨path, hpath, rfl⟩)
  have halias : join.tableAlias = Text.join "_" path := beq_iff_eq.mp hsame
  obtain ⟨first, hfirst, hstep⟩ := h.first join hjoin
  rw [halias] at hfirst
  exact ⟨first, join, hfirst, hjoin, halias, hstep⟩

/-- The join of a path is with the table of the entity that the path leads to. -/
theorem IsStep.table {registry : Registry} {e : Entity} {qualifier : String} {path : List String}
    {join : Join} (h : IsStep registry e qualifier path join) :
    ∃ target, registry.walk e path = .ok target ∧ join.table = target.table := by
  obtain ⟨front, relation, target, found, related, rfl, hwalk, hrelated, hfound, hjoin⟩ := h
  obtain ⟨join', hjoin', -, htable⟩ := relationJoin_of_isToOne hfound related relation
    (pathName qualifier front) (Text.join "_" (front ++ [relation]))
  cases hjoin.symm.trans hjoin'
  exact ⟨related, Registry.walk_append hwalk hrelated, htable⟩

end Query

/-! ## Deals and teams

A deal has a company and a company owner, and a team is reached through either:
the owner team of the company, and the team of the company owner. -/

namespace Teams

def team : Entity := (Entity.make "teams" "teams").addColumn "name" .text

def user : Entity :=
  ((Entity.make "users" "users").addColumn "team_id" .integer).addRelation "team"
    (Relation.belongsTo "teams" "team_id")

def company : Entity :=
  ((Entity.make "companies" "companies").addColumn "owner_team_id" .integer).addRelation
    "owner_team" (Relation.belongsTo "teams" "owner_team_id")

def deal : Entity :=
  ((((Entity.make "deals" "deals").addColumn "company_id" .integer).addColumn "company_owner_id"
    .integer).addRelation "company" (Relation.belongsTo "companies" "company_id")).addRelation
      "company_owner" (Relation.belongsTo "users" "company_owner_id")

def registry : Registry :=
  ⟨[("companies", company), ("deals", deal), ("teams", team), ("users", user)]⟩

/-- One deal: the team of its company is Red, that of its owner Blue. -/
def dataset : Dataset :=
  ⟨[("companies", [[("id", .integer 1), ("owner_team_id", .integer 1)]]),
    ("deals", [[("company_id", .integer 1), ("company_owner_id", .integer 1), ("id", .integer 1)]]),
    ("teams", [[("id", .integer 1), ("name", .text "Red")],
      [("id", .integer 2), ("name", .text "Blue")]]),
    ("users", [[("id", .integer 1), ("team_id", .integer 2)]])]⟩

/-- Filters on the names of both teams. -/
def filters : FilterSet :=
  ⟨[{ Filter.plain .text "company_team" "Team of the company" with
        column := some "company.owner_team.name" },
    { Filter.plain .text "owner_team" "Team of the owner" with
        column := some "company_owner.team.name" }]⟩

/-- Deals of a Red company whose owner is in a Blue team. -/
def tree : Rule.Tree :=
  ⟨.and, [Sample.rule "company_team" "equal" (.string "Red"),
    Sample.rule "owner_team" "equal" (.string "Blue")], by simp⟩

end Teams

namespace Engine

open Query

/-- Paths joined to a query of an entity, one after another.  Each gets the alias of its relations
joined with underscores, and under every alias there is one join: that of the first walked path with
this alias.  Walked paths whose relations have no underscores in their names have different aliases.
Where the walked paths have different aliases and none has the name of the table, the alias of each
names a join of its own with the entity that it leads to, and in every joined frame it is bound to a
row that the path reaches from the row of the table, or to no row where its last relation leads to
none. -/
theorem joined_paths_read (registry : Registry) (e : Entity) (paths : List (List String))
    (aliases : List String) (r : Query)
    (h : joinPaths registry paths (ofEntity e) = .ok (aliases, r)) :
    aliases = paths.map (pathName e.table) ∧
    (r.joins.map Join.tableAlias).Nodup ∧
    (∀ path ∈ steps paths, ∃ first join,
      (steps paths).find? (fun other => Text.join "_" other == Text.join "_" path) = some first ∧
        join ∈ r.joins ∧ join.tableAlias = Text.join "_" path ∧
          IsStep registry e e.table first join) ∧
    ((∀ path ∈ paths, ∀ relation ∈ path, '_' ∉ relation.toList) →
      (∀ path ∈ steps paths, Text.join "_" path ≠ e.table) →
        AliasesApart e.table (· ∈ steps paths)) ∧
    (AliasesApart e.table (· ∈ steps paths) →
      (∀ path ∈ steps paths, ∃ join ∈ r.joins, ∃ target, join.tableAlias = Text.join "_" path ∧
        IsStep registry e e.table path join ∧ registry.walk e path = .ok target ∧
          join.table = target.table) ∧
      ∀ db, ∀ frame ∈ joinedFrames db r, ∃ row ∈ db.rows e.table, frame.row? e.table = some row ∧
        ∀ path ∈ steps paths, Follows db registry e e.table row frame path) := by
  obtain ⟨haliases, hgroup, hwalks⟩ := joinPaths_walks (.ofEntity e) h
  rw [List.nil_append] at hwalks
  have hentity : r.entity = e := entity_eq_of_group hgroup
  have hqualifier : r.qualifier = e.table := qualifier_eq_of_group hgroup
  have hown := fun path (hpath : path ∈ steps paths) => hwalks.joins.own hpath
  rw [hentity, hqualifier] at hown
  refine ⟨haliases, hwalks.joins.nodup, hown, aliasesApart_of_plain, fun hapart => ⟨?_, ?_⟩⟩
  · intro path hpath
    obtain ⟨first, join, hfirst, hjoin, halias, hstep⟩ := hown path hpath
    have hfound := List.find?_some hfirst
    rw [beq_iff_eq] at hfound
    have hsame := (hapart first (List.mem_of_find?_eq_some hfirst)).2 path hpath hfound
    subst hsame
    obtain ⟨target, hwalk, htable⟩ := hstep.table
    exact ⟨join, hjoin, target, halias, hstep, hwalk, htable⟩
  · intro db
    have hframes := hwalks.frames (by rwa [hqualifier]) db
    unfold FramesFollow at hframes
    rw [hentity, hqualifier] at hframes
    exact hframes

/-- The company and the owner of a deal, and the team of the owner, have aliases of their own. -/
theorem joined_paths_read_sample :
    let paths := [["company"], ["company_owner", "team"]]
    ∃ aliases r,
      joinPaths Teams.registry paths (ofEntity Teams.deal) = .ok (aliases, r) ∧
        aliases = ["company", "company_owner_team"] ∧
        (∃ join ∈ r.joins, join.tableAlias = "company_owner_team" ∧ join.table = "teams") ∧
        ∀ frame ∈ joinedFrames Teams.dataset r, ∃ row ∈ Teams.dataset.rows "deals",
          Follows Teams.dataset Teams.registry Teams.deal "deals" row frame
            ["company_owner", "team"] := by
  intro paths
  obtain ⟨aliases, r, hjoin⟩ : ∃ aliases r,
      joinPaths Teams.registry paths (ofEntity Teams.deal) = .ok (aliases, r) := ⟨_, _, rfl⟩
  obtain ⟨haliases, -, -, -, hread⟩ := joined_paths_read Teams.registry Teams.deal paths aliases r
    hjoin
  have hsteps : steps paths = [["company"], ["company_owner"], ["company_owner", "team"]] := rfl
  have hapart : AliasesApart Teams.deal.table (· ∈ steps paths) := by
    rw [hsteps]
    unfold AliasesApart
    decide
  obtain ⟨hjoins, hframes⟩ := hread hapart
  have hpath : ["company_owner", "team"] ∈ steps paths := by
    rw [hsteps]
    decide
  refine ⟨aliases, r, hjoin, haliases, ?_, fun frame hframe => ?_⟩
  · obtain ⟨join, hmem, target, halias, -, hwalk, htable⟩ := hjoins _ hpath
    cases hwalk
    exact ⟨join, hmem, halias, htable⟩
  · obtain ⟨row, hrow, -, hfollows⟩ := hframes Teams.dataset frame hframe
    exact ⟨row, hrow, hfollows _ hpath⟩

/-- The teams of the company and of the owner get one alias and one join, which is to the team of
the company.  So rules on both teams select no deal, though the company of the only deal is Red and
its owner Blue. -/
theorem shared_alias_misreads :
    (Query.joinPaths Teams.registry [["company", "owner_team"], ["company_owner", "team"]]
      (Query.ofEntity Teams.deal)).toOption.map (fun joined =>
        (joined.1, joined.2.joins.map fun join => (join.table, join.tableAlias))) =
      some (["company_owner_team", "company_owner_team"],
        [("companies", "company"), ("teams", "company_owner_team"), ("users", "company_owner")]) ∧
    (Teams.dataset.rows "deals").flatMap (fun row =>
      (reached Teams.dataset Teams.registry Teams.deal ["company", "owner_team"] row ++
        reached Teams.dataset Teams.registry Teams.deal ["company_owner", "team"] row).map
          (Row.value · "name")) = [.text "Red", .text "Blue"] ∧
    (Listing.addTree Teams.filters Teams.registry Sample.context Teams.tree
      (Query.ofEntity Teams.deal)).toOption.map (ids Teams.dataset) = some [] := by
  decide +kernel

end Engine
end Winnow
