import Winnow.Proofs.Listing.Tables

/-!
# Refinements intersect

The query that refinements give one after another matches the rows that each of
them selects alone, in whatever order they come and however often
(`refine_intersects`): every step conjoins the same predicates wherever it comes
in the run, and joins neither drop nor multiply rows.
-/

namespace Winnow.Listing

open Engine Condition

/-! ## Refinements -/

/-- The paths of relations that a refinement joins to the query of an entity. -/
def Refinement.paths (registry : Registry) (e : Entity) : Refinement → List (List String)
  | .criteria (.rules filters payload) =>
    (Rule.Tree.read? payload).toList.flatMap (treePaths filters registry e)
  | .criteria (.request _ _ parameters) => parameters.order.filterMap (sortPath? registry e)
  | .criteria (.export_ ..) => []
  | .table columns order defaultOrder => tablePaths registry e columns order defaultOrder
  | .tree filters t joined => if joined then treePaths filters registry e t else []
/-- Whether a refinement puts what it asks of rows into one AND clause: every one does but a tree
that is compiled into the query itself. -/
def Refinement.IsGrouped : Refinement → Prop
  | .tree .. => False
  | .criteria _ | .table .. => True

section
variable {db : Dataset} {registry : Registry} {e : Entity} {allowed : List String → Prop}

/-- A refinement that can be put into the query of an entity can be put into every query of it to
which paths were joined, and always appends the same predicates. -/
theorem Refinement.alwaysConjoin (hunique : UniqueToOne db registry e)
    (hapart : AliasesApart e.table allowed) {refinement : Refinement} (hplain : refinement.Plain)
    (hgrouped : refinement.IsGrouped) (hallowed : Allows allowed (refinement.paths registry e))
    {context : CompileContext} {alone : Query}
    (h : refinement.apply registry context (Query.ofEntity e) = .ok alone) :
    ∃ ps, AlwaysConjoin db registry e allowed (refinement.apply registry context) ps := by
  cases refinement with
  | criteria criteria =>
    cases criteria with
    | rules filters payload =>
      obtain ⟨ps, hps⟩ :=
        addRules_alwaysConjoin hunique hapart hplain hallowed (liftCompile_eq_ok h)
      exact ⟨ps, liftCompile_alwaysConjoin hps⟩
    | request settings scope parameters =>
      exact request_alwaysConjoin hunique hapart hplain h hallowed
    | export_ column period =>
      obtain ⟨ps, hps⟩ := export_alwaysConjoin (liftCompile_eq_ok h)
      exact ⟨ps, liftCompile_alwaysConjoin hps⟩
  | table columns order defaultOrder =>
    have h := liftCompile_eq_ok h
    obtain ⟨counted, hcounted, -⟩ := bind_eq_ok h
    exact ⟨[], liftCompile_alwaysConjoin
      (orderTable_alwaysConjoin hunique hapart (addCounts_related hcounted) hallowed h)⟩
  | tree => exact hgrouped.elim

end

/-! ## Runs -/

/-- The rows that a step selects alone; none when it cannot be put into the query of the entity. -/
def Step.selects (db : Dataset) (e : Entity) (step : Step) : List Row :=
  match step.refinement.apply step.registry step.context (Query.ofEntity e) with
  | .ok alone => matchedRows db alone
  | .error _ => []

/-- Whether some step joins a path, or passes along it. -/
def JoinedBy (registry : Registry) (e : Entity) (steps : List Step) (path : List String) : Prop :=
  path ≠ [] ∧ ∃ step ∈ steps, ∃ whole ∈ step.refinement.paths registry e, path <+: whole

section
variable {db : Dataset} {registry : Registry} {e : Entity} {steps : List Step}
  (hsteps : ∀ step ∈ steps, step.registry = registry ∧ step.refinement.Plain ∧
    step.refinement.IsGrouped ∧ ∃ alone,
      step.refinement.apply registry step.context (Query.ofEntity e) = .ok alone)
  (hunique : UniqueToOne db registry e)
  (hapart : AliasesApart e.table (JoinedBy registry e steps))

include hsteps hunique hapart

/-- Every step conjoins predicates of its own. -/
theorem Step.alwaysConjoin {step : Step} (hstep : step ∈ steps) :
    ∃ ps, AlwaysConjoin db registry e (JoinedBy registry e steps)
      (step.refinement.apply step.registry step.context) ps := by
  obtain ⟨rfl, hplain, hgrouped, alone, halone⟩ := hsteps step hstep
  refine Refinement.alwaysConjoin hunique hapart hplain hgrouped ?_ halone
  exact fun whole hwhole path hne hstart => ⟨hne, step, hstep, whole, hwhole, hstart⟩

/-- In whatever order steps refine the query of an entity, and however often each of them does, as
long as each can be put in alone and to-one relations lead to one row at most under aliases that are
told apart: the run succeeds, and of the rows of the table it matches those that the scopes show and
every step selects alone.  A row is matched once for every time it is in the table, by the run as by
each step alone, so its joins have neither dropped nor multiplied rows. -/
theorem refine_intersects :
    (∀ step ∈ steps, step.selects db e =
      (db.rows e.table).filter fun row => decide (row ∈ step.selects db e)) ∧
    ∀ other : List Step, (∀ step, step ∈ other ↔ step ∈ steps) →
      ∃ r, refine other (Query.ofEntity e) = .ok r ∧
        matchedRows db r = (db.rows e.table).filter (fun row =>
          e.shows row && steps.all fun step => decide (row ∈ step.selects db e)) ∧
        count db r = (matchedRows db r).length := by
  have hconjoin : ∀ step, ∃ ps, step ∈ steps →
      AlwaysConjoin db registry e (JoinedBy registry e steps)
        (step.refinement.apply step.registry step.context) ps := by
    intro step
    by_cases hstep : step ∈ steps
    · obtain ⟨ps, hps⟩ := Step.alwaysConjoin hsteps hunique hapart hstep
      exact ⟨ps, fun _ => hps⟩
    · exact ⟨[], fun h => absurd h hstep⟩
  choose ps hps using hconjoin
  -- alone a step matches the rows that its own predicates hold of
  have halone : ∀ step ∈ steps, ∃ alone frameOf,
      Tracked db registry e (JoinedBy registry e steps) alone ∧
      Conjoins e (Query.ofEntity e) (ps step) alone ∧
      BindsPaths db registry e (JoinedBy registry e steps) alone frameOf ∧
      step.selects db e = (db.rows e.table).filter fun row =>
        e.shows row && allHold db (frameOf row) (ps step) := by
    intro step hstep
    obtain ⟨alone, hrun, htracked, hconjoins⟩ := hps step hstep _ .ofEntity
    obtain ⟨frameOf, hframes, hrows, -⟩ := hconjoins.matchedRows_eq htracked
    refine ⟨alone, frameOf, htracked, hconjoins, hframes, ?_⟩
    unfold Step.selects
    rw [hrun]
    exact hrows
  refine ⟨fun step hstep => ?_, fun other hsame => ?_⟩
  · obtain ⟨-, frameOf, -, -, -, hrows⟩ := halone step hstep
    rw [hrows]
    refine List.filter_congr fun row hrow => ?_
    rw [Bool.eq_iff_iff, decide_eq_true_iff, List.mem_filter, and_iff_right hrow]
  · have hrun := foldlM_alwaysConjoin fun step hstep => hps step ((hsame step).mp hstep)
    obtain ⟨r, hr, htracked, hconjoins⟩ := hrun _ .ofEntity
    obtain ⟨frameOf, hframes, hrows, hcount⟩ := hconjoins.matchedRows_eq htracked
    refine ⟨r, hr, ?_, hcount⟩
    rw [hrows]
    refine List.filter_congr fun row hrow => ?_
    have hselects : ∀ step ∈ steps, (row ∈ step.selects db e ↔
        e.shows row = true ∧ allHold db (frameOf row) (ps step) = true) := by
      intro step hstep
      obtain ⟨alone, frameOf', htracked', hconjoins', hframes', hselects⟩ := halone step hstep
      have hsub : ps step ⊆ other.flatMap ps := fun p hp =>
        List.mem_flatMap.mpr ⟨step, (hsame step).mpr hstep, hp⟩
      rw [hselects, List.mem_filter, and_iff_right hrow, Bool.and_eq_true,
        hconjoins'.holds_alike htracked' hapart htracked hconjoins hsub hframes' hframes hrow]
    have hall : allHold db (frameOf row) (other.flatMap ps) =
        other.all fun step => allHold db (frameOf row) (ps step) := List.all_flatMap
    rw [hall, Bool.eq_iff_iff, Bool.and_eq_true, Bool.and_eq_true, List.all_eq_true,
      List.all_eq_true]
    refine and_congr_right fun hshows => ?_
    simp only [decide_eq_true_iff]
    constructor
    · intro hholds step hstep
      exact (hselects step hstep).mpr ⟨hshows, hholds step ((hsame step).mpr hstep)⟩
    · intro hin step hstep
      have hstep := (hsame step).mp hstep
      exact ((hselects step hstep).mp (hin step hstep)).2

end

/-! ## A sample -/

/-- Contacts of companies of a certain name; those with an N in their name, by the name of their
company; the newest first; and a table that is sorted by the name of the company. -/
def combinedSteps : List Step :=
  [.criteria (.rules Sample.filters Sample.ofCompany.toJson),
    .criteria (.request {} { searchable := some [⟨"name", .like⟩] }
      { text := some "n", order := [⟨"company.name", .ascending⟩] }),
    .criteria (.export_ "id" none),
    .table [TableColumn.related "company" "company" "name"] [⟨"company", .descending⟩] []].map
      fun refinement => ⟨Sample.registry, Sample.context, refinement⟩

theorem combinedSteps_alone : ∀ step ∈ combinedSteps,
    step.registry = Sample.registry ∧ step.refinement.Plain ∧ step.refinement.IsGrouped ∧
      ∃ alone, step.refinement.apply Sample.registry step.context
        (Query.ofEntity Sample.contact) = .ok alone := by
  have hruns : ∀ step ∈ combinedSteps, (step.refinement.apply Sample.registry step.context
      (Query.ofEntity Sample.contact)).toOption.isSome = true := by
    decide +kernel
  intro step hstep
  obtain ⟨alone, halone⟩ := Option.isSome_iff_exists.mp (hruns step hstep)
  simp only [combinedSteps, List.map_cons, List.map_nil, List.mem_cons, List.not_mem_nil,
    or_false] at hstep
  have halone := ok_of_toOption halone
  obtain rfl | rfl | rfl | rfl := hstep
  · exact ⟨rfl, Sample.filters_plain, trivial, alone, halone⟩
  · exact ⟨rfl, rfl, trivial, alone, halone⟩
  · exact ⟨rfl, trivial, trivial, alone, halone⟩
  · exact ⟨rfl, trivial, trivial, alone, halone⟩

/-- Only the company of a contact is joined. -/
theorem combinedSteps_apart :
    AliasesApart Sample.contact.table (JoinedBy Sample.registry Sample.contact combinedSteps) := by
  have hpaths : ∀ step ∈ combinedSteps,
      ∀ whole ∈ step.refinement.paths Sample.registry Sample.contact, whole = ["company"] := by
    decide +kernel
  have hjoined : ∀ path, JoinedBy Sample.registry Sample.contact combinedSteps path →
      path = ["company"] := by
    rintro path ⟨hne, step, hstep, whole, hwhole, hstart⟩
    rw [hpaths step hstep whole hwhole] at hstart
    rcases List.prefix_cons_iff.mp hstart with rfl | ⟨rest, rfl, hrest⟩
    · exact absurd rfl hne
    · rw [List.prefix_nil.mp hrest]
  intro path hpath
  rw [hjoined path hpath]
  exact ⟨by decide, fun other hother _ => (hjoined other hother).symm⟩

/-- Alone the four steps select two, two, three and three of the contacts, in any order and however
often the one that all of them select. -/
theorem refine_intersects_sample :
    (combinedSteps.map fun step => (step.selects Sample.dataset Sample.contact).map
      fun row => row.value "name") =
        [[.text "Ann", .text "Cid"], [.text "Ann", .text "Ben"],
          [.text "Ann", .text "Ben", .text "Cid"], [.text "Ann", .text "Ben", .text "Cid"]] ∧
    ∀ other : List Step, (∀ step, step ∈ other ↔ step ∈ combinedSteps) →
      ∃ r, refine other (Query.ofEntity Sample.contact) = .ok r ∧
        matchedRows Sample.dataset r = [Sample.contactRow 1 "Ann" (.integer 1)] ∧
        count Sample.dataset r = 1 := by
  refine ⟨by decide +kernel, fun other hsame => ?_⟩
  obtain ⟨r, hr, hrows, hcount⟩ := (refine_intersects combinedSteps_alone Sample.uniqueToOne
    combinedSteps_apart).2 other hsame
  have hann : (Sample.dataset.rows Sample.contact.table).filter (fun row =>
      Sample.contact.shows row && combinedSteps.all fun step =>
        decide (row ∈ step.selects Sample.dataset Sample.contact)) =
      [Sample.contactRow 1 "Ann" (.integer 1)] := by
    decide +kernel
  rw [hann] at hrows
  exact ⟨r, hr, hrows, by rw [hcount, hrows]; rfl⟩

end Winnow.Listing
