import Winnow.Proofs.Engine.Kleene
import Winnow.Proofs.Keyed
import Winnow.Proofs.Listing.Closed

/-!
# Listings in three-valued logic

The query of a listing selects the same rows whether what compares with null
does not hold or is unknown (`refine_three_valued`).  Its tests bind values of
one type and never null, and its names stand for rows of known tables; so what
the declared types say of the rows decides every test in both logics alike.
Questions follow by induction on how they are nested.
-/

namespace Winnow

open Engine

/-! ## Definitions -/

/-- Whether the columns of declared entities hold values of their types, or null. -/
def Dataset.Typed (declared : List Entity) (db : Dataset) : Prop :=
  ∀ e ∈ declared, ∀ row ∈ db.rows e.table, ∀ name type, e.columnType? name = some type →
    (row.value name).isNull = true ∨ (row.value name).isOf type = true

/-- The tables that the names of a query stand for. -/
def Query.tables (q : Query) : List (String × String) :=
  (q.qualifier, q.entity.table) :: q.joins.map fun j => (j.tableAlias, j.table)

/-- A test that binds numbers only where it binds a number, and asks for emptiness in columns only
that are declared as texts, whichever table the name stands for. -/
structure Test.Sharp (declared : List Entity) (tables : List (String × String)) (t : Test) :
    Prop where
  numbers : ∀ v ∈ t.values, v.isNaN = false
  texts : t.asksEmptiness = true → ∃ qualifier name, t.column = .field qualifier name ∧
    ∀ table, (qualifier, table) ∈ tables →
      ∃ e ∈ declared, e.table = table ∧ e.columnType? name = some .text

/-- Whether the tests of a query are sharp, at any depth. -/
def Query.Sharp (declared : List Entity) (q : Query) : Prop :=
  ∀ sub : Query, sub.Within q → ∀ t ∈ clausesTests sub.clauses, t.Sharp declared sub.tables

/-- The columns of an entity are all there is to check. -/
theorem Dataset.typed_of_columns {declared : List Entity} {db : Dataset}
    (h : ∀ e ∈ declared, ∀ row ∈ db.rows e.table, ∀ column ∈ e.columns,
      (row.value column.1).isNull = true ∨ (row.value column.1).isOf column.2 = true) :
    db.Typed declared :=
  fun e he row hrow name type htype => h e he row hrow (name, type) (Keyed.mem_of_get? htype)

/-- A query is sharp when its own tests and the queries of its questions are. -/
theorem Query.sharp_of_questions {declared : List Entity} {q : Query}
    (htests : ∀ t ∈ clausesTests q.clauses, t.Sharp declared q.tables)
    (hquestions : ∀ asked ∈ q.questions, asked.2.Sharp declared) : q.Sharp declared := by
  intro sub hsub
  cases hsub with
  | self => exact htests
  | asked hasked hwithin => exact hquestions _ hasked sub hwithin

namespace Kleene

/-- Whether a frame binds a qualifier to a row of a table that it stands for, or to none. -/
def Bound (db : Dataset) (tables : List (String × String)) (frame : Frame) (qualifier : String) :
    Prop :=
  ∀ row, frame.row? qualifier = some row → ∃ table, (qualifier, table) ∈ tables ∧ row ∈ db.rows table

section
variable {declared : List Entity} {db : Dataset} (hdb : db.Typed declared)

include hdb

/-! ## Tests and questions -/

theorem testTruth_of_sharp {tables : List (String × String)} {frame : Frame} {t : Test}
    (htyped : t.Typed) (hsharp : t.Sharp declared tables)
    (hbound : Bound db tables frame t.column.qualifier) :
    (testTruth frame t).isYes = testHolds frame t := by
  refine testTruth_isYes htyped hsharp.numbers fun hempty => ?_
  obtain ⟨qualifier, name, hcolumn, htables⟩ := hsharp.texts hempty
  rw [hcolumn] at hbound ⊢
  simp only [Engine.read]
  cases hrow : frame.row? qualifier with
  | none => exact .inl rfl
  | some row =>
    obtain ⟨table, hmem, hrows⟩ := hbound row hrow
    obtain ⟨e, he, rfl, htype⟩ := htables table hmem
    exact hdb e he row hrows name .text htype

/-- Induction over the questions inside a question: each is about rows of the table of its query,
which is all that its tests read. -/
theorem alike_of_resolves {own : String} {asked : Link × Query} (h : Resolves Test.Typed own asked)
    (hsharp : asked.2.Sharp declared) (frame : Frame) : Alike db frame asked := by
  induction h generalizing frame with
  | @intro own link sub hparent hrelated hne htable hjoins haggregates htests hquestions ih =>
    intro row hrow
    rw [relatedTruth_eq, relatedHolds_eq, Truth.and_isYes, scopesTruth_isYes]
    refine congrArg _ (clausesTruth_isYes sub.clauses (fun t ht => ?_) fun asked hasked => ?_)
    · obtain ⟨hqualifier, htyped⟩ := htests t ht
      refine testTruth_of_sharp hdb htyped (hsharp sub (.self sub) t ht) ?_
      rw [hqualifier]
      intro bound hbound
      rw [Frame.row?_cons_self] at hbound
      cases hbound
      exact ⟨sub.entity.table, List.mem_cons_self, htable ▸ Condition.mem_rows_of_candidates hrow⟩
    · have hmem : asked ∈ sub.questions := Query.mem_questions.mpr (.inr hasked)
      exact ih asked hasked (fun inner hinner => hsharp inner (.asked hmem hinner)) _

/-! ## Queries -/

theorem queryTruth_isYes {q : Query} (hq : q.Closed Test.Typed) (hsharp : q.Sharp declared)
    {frame : Frame} (hbound : ∀ qualifier, Bound db q.tables frame qualifier) :
    (queryTruth db frame q).isYes = queryHolds db frame q := by
  unfold queryTruth queryHolds
  rw [Truth.and_isYes, scopesTruth_isYes]
  refine congrArg _ (clausesTruth_isYes q.clauses (fun t ht => ?_) fun asked hasked => ?_)
  · exact testTruth_of_sharp hdb (hq.tests t ht).2 (hsharp q (.self q) t ht) (hbound _)
  · have hmem : asked ∈ q.questions := Query.mem_questions.mpr (.inr hasked)
    exact alike_of_resolves hdb (hq.questions asked hmem)
      (fun inner hinner => hsharp inner (.asked hmem hinner)) frame

end

/-! ## Joins -/

section
variable {db : Dataset}

/-- The conditions of a join are global scopes. -/
theorem joinTruth_isYes {names : List String} {join : Join} (h : join.ResolvesIn names)
    (frame : Frame) : (joinTruth db frame join).isYes = joinHolds db frame join := by
  unfold joinTruth joinHolds
  rw [Truth.and_isYes, Value.equals_isYes, Truth.all_isYes, List.all_map]
  refine congrArg _ ?_
  rw [Bool.eq_iff_iff, List.all_eq_true, List.all_eq_true]
  refine forall₂_congr fun p hp => ?_
  obtain ⟨scope, e, rfl⟩ := h.conditions p hp
  rw [Function.comp_apply, predicateTruth, predicateHolds, testTruth_scope]

theorem joinFrame_eq {names : List String} {join : Join} (h : join.ResolvesIn names) :
    joinFrame db join = Engine.joinFrame db join := by
  funext frame
  unfold joinFrame Engine.joinFrame
  simp only [joinTruth_isYes h]

theorem joinedFrames_eq {q : Query} (h : q.Closed Test.Typed) :
    joinedFrames db q = Engine.joinedFrames db q := by
  unfold joinedFrames Engine.joinedFrames
  refine List.foldl_ext _ _ _ fun frames j hj => ?_
  obtain ⟨front, back, hsplit⟩ := List.append_of_mem hj
  rw [joinFrame_eq (h.joins front j back hsplit)]

/-- Joins bind their aliases to rows of their tables. -/
theorem bound_of_mem_framesOf {tables : List (String × String)} {joins : List Join}
    (hjoins : ∀ j ∈ joins, (j.tableAlias, j.table) ∈ tables) {frame extended : Frame}
    (hframe : ∀ qualifier, Bound db tables frame qualifier)
    (hmem : extended ∈ framesOf db joins frame) (qualifier : String) :
    Bound db tables extended qualifier := by
  induction joins generalizing frame with
  | nil =>
    rw [List.mem_singleton.mp hmem]
    exact hframe qualifier
  | cons join joins ih =>
    unfold framesOf at hmem
    rw [List.foldl_cons, List.flatMap_singleton, foldl_joinFrame] at hmem
    obtain ⟨joined, hjoined, hmem⟩ := List.mem_flatMap.mp hmem
    refine ih (fun j hj => hjoins j (List.mem_cons_of_mem join hj)) (fun other => ?_) hmem
    obtain ⟨found, rfl, hfound⟩ := mem_joinFrame db hjoined
    intro row hrow
    by_cases hsame : join.tableAlias = other
    · rw [hsame, Frame.row?_cons_self] at hrow
      exact ⟨join.table, hsame ▸ hjoins join List.mem_cons_self, hfound row hrow⟩
    · rw [Frame.row?_cons_of_ne frame found hsame] at hrow
      exact hframe other row hrow

theorem bound_of_mem_joinedFrames {q : Query} {frame : Frame}
    (hframe : frame ∈ Engine.joinedFrames db q) (qualifier : String) :
    Bound db q.tables frame qualifier := by
  rw [Engine.joinedFrames_eq] at hframe
  obtain ⟨row, hrow, hframe⟩ := List.mem_flatMap.mp hframe
  refine bound_of_mem_framesOf (fun j hj => ?_) (fun other found hfound => ?_) hframe qualifier
  · exact List.mem_cons_of_mem _ (List.mem_map.mpr ⟨j, hj, rfl⟩)
  · by_cases hsame : q.qualifier = other
    · rw [hsame, Frame.row?_cons_self] at hfound
      cases hfound
      exact ⟨q.entity.table, hsame ▸ List.mem_cons_self, hrow⟩
    · rw [Frame.row?_cons_of_ne [] _ hsame] at hfound
      cases hfound

/-- A closed query selects the same rows in both logics. -/
theorem matchingFrames_eq {declared : List Entity} (hdb : db.Typed declared) {q : Query}
    (hq : q.Closed Test.Typed) (hsharp : q.Sharp declared) :
    matchingFrames db q = Engine.matchingFrames db q := by
  unfold matchingFrames Engine.matchingFrames
  rw [joinedFrames_eq hq]
  exact List.filter_congr fun frame hframe =>
    queryTruth_isYes hdb hq hsharp (bound_of_mem_joinedFrames hframe)

end

end Kleene

/-! ## Listings -/

namespace Listing

/-- However the query of a listing is put together, its tests, at any depth, bind values of one type
and never null, and of the values of that type each of them is known to hold or not; and it selects
the same rows in three-valued logic, where a comparison with null is unknown and only what is true
selects a row, as where such a comparison does not hold, in every data set of the declared types. -/
theorem refine_three_valued (steps : List Step) (e : Entity) (r : Query)
    (hplain : ∀ step ∈ steps, step.refinement.Plain)
    (h : refine steps (Query.ofEntity e) = .ok r) :
    (∀ sub : Query, sub.Within r → ∀ t ∈ clausesTests sub.clauses,
      (∀ w ∈ t.values, w.isNull = false) ∧
        ((∀ w ∈ t.values, w.isNaN = false) → ∃ type, (∀ w ∈ t.values, w.isOf type = true) ∧
          ∀ v : Value, v.isOf type = true → v.isNaN = false → t.truth v ≠ .unknown)) ∧
    ∀ (declared : List Entity) (db : Dataset), db.Typed declared → r.Sharp declared →
      Kleene.matchingFrames db r = matchingFrames db r := by
  have hclosed := refine_closed hplain h
  refine ⟨fun sub hsub t ht => ?_, fun declared db hdb hsharp => ?_⟩
  · have htyped := hclosed.kind_of_within hsub ht
    exact ⟨fun w hw => htyped.isNull hw, Test.truth_ne_unknown htyped⟩
  · exact Kleene.matchingFrames_eq hdb hclosed hsharp

/-! ## A sample -/

/-- Contacts that have a name, and a company with a name other than a certain one or with none. -/
def namedSteps : List Step :=
  [⟨Sample.registry, Sample.context, .tree Sample.filters
    ⟨.and, [Sample.rule "name" "is_not_empty" .null,
      .group .or [Sample.rule "company" "is_null" .null,
        Sample.rule "company" "not_equal" (.string "Initech")]], by simp⟩ false⟩]

/-- The second company has no name, the second contact no company, and the third the empty name. -/
def missingNames : Dataset :=
  ⟨[("companies", [[("id", .integer 1), ("name", .text "Globex")],
      [("id", .integer 2), ("name", .null)]]),
    ("contacts", [Sample.contactRow 1 "Ann" (.integer 1), Sample.contactRow 2 "Ben" .null,
      Sample.contactRow 3 "" (.integer 1), Sample.contactRow 4 "Dee" (.integer 2)])]⟩

theorem namedSteps_plain : ∀ step ∈ namedSteps, step.refinement.Plain := by
  intro step hstep
  rw [List.mem_singleton.mp hstep]
  exact Sample.filters_plain

theorem missingNames_typed : missingNames.Typed [Sample.company, Sample.contact] :=
  Dataset.typed_of_columns (by decide +kernel)

/-- A company without name is not known to have a name other than a certain one, but is known to
have none; a contact without company is known to have no such company. -/
theorem refine_three_valued_sample :
    ∃ r, refine namedSteps (Query.ofEntity Sample.contact) = .ok r ∧
      r.Sharp [Sample.company, Sample.contact] ∧
      (∀ t ∈ clausesTests r.clauses, ∀ w ∈ t.values, w.isNull = false) ∧
      ids missingNames r = [1, 4] ∧
      Kleene.matchingFrames missingNames r = matchingFrames missingNames r := by
  have hrun : (refine namedSteps (Query.ofEntity Sample.contact)).toOption.map (fun r =>
      (clausesTests r.clauses, r.tables, r.questions.map fun (asked : Link × Query) =>
        (clausesTests asked.2.clauses, asked.2.questions.length))) =
      some ([.empty (.field "contacts" "name") true], [("contacts", "contacts")],
        [([.null (.field "companies" "name") false], 0),
          ([.compare (.field "companies" "name") .ne (.text "Initech")], 0)]) := by
    decide +kernel
  have hids : (refine namedSteps (Query.ofEntity Sample.contact)).toOption.map
      (ids missingNames) = some [1, 4] := by
    decide +kernel
  cases h : refine namedSteps (Query.ofEntity Sample.contact) with
  | error error =>
    rw [h] at hrun
    cases hrun
  | ok r =>
    rw [h] at hrun hids
    obtain ⟨htests, hrun⟩ := Prod.mk.inj (Option.some.inj hrun)
    obtain ⟨htables, hquestions⟩ := Prod.mk.inj hrun
    have hsharp : r.Sharp [Sample.company, Sample.contact] := by
      refine Query.sharp_of_questions (fun t ht => ?_) fun asked hasked => ?_
      · rw [htests, List.mem_singleton] at ht
        rw [ht, htables]
        refine ⟨by simp [Test.values], fun _ => ⟨"contacts", "name", rfl, fun table htable => ?_⟩⟩
        cases List.mem_singleton.mp htable
        exact ⟨Sample.contact, by simp, rfl, rfl⟩
      · have hasked := hquestions ▸ List.mem_map_of_mem
          (f := fun (asked : Link × Query) =>
            (clausesTests asked.2.clauses, asked.2.questions.length)) hasked
        simp only [List.mem_cons, Prod.mk.injEq, List.length_eq_zero_iff, List.not_mem_nil,
          or_false] at hasked
        refine Query.sharp_of_questions (fun t ht => ?_) fun inner hinner => ?_
        · rcases hasked with ⟨hsub, -⟩ | ⟨hsub, -⟩
          all_goals
            rw [hsub, List.mem_singleton] at ht
            rw [ht]
            exact ⟨by simp [Test.values, Value.isNaN], fun hempty => by cases hempty⟩
        · rcases hasked with ⟨-, hnone⟩ | ⟨-, hnone⟩ <;> simp [hnone] at hinner
    obtain ⟨hbinds, hsame⟩ :=
      refine_three_valued namedSteps Sample.contact r namedSteps_plain h
    exact ⟨r, rfl, hsharp, fun t ht => (hbinds r (.self r) t ht).1, Option.some.inj hids,
      hsame _ _ missingNames_typed hsharp⟩

end Listing
end Winnow
