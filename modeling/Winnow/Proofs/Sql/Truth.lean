import Winnow.Proofs.Engine.Reading
import Winnow.Proofs.Sql.Sample
import Winnow.Proofs.Sql.Statements

/-!
# Rendered conditions keep their truth

An atomic condition of a text is a test, an equality of two columns, or a
question about the rows of a sub-query.  Whatever truth values these have, the
condition that is read from the text of a query has the truth value that the
query has by itself: its active scopes and its clauses, AND binding tighter
than OR (`queryValue`).  The engine reads queries just so (`queryHolds_eq_value`).

The same is said of every condition in a text: those of joins, and those of the
sub-queries at every depth, in which the conditions of the link come first
(`BodyAgrees`).
-/

namespace Winnow.Sql

open Engine

/-! ## Truth of what is read -/

/-- Truth values of the atomic conditions of a text. -/
structure Assignment where
  test : Test → Bool
  equal : Column → Column → Bool
  /-- Whether a sub-query has rows. -/
  hasRows : Subquery → Bool
  /-- Whether the number of rows of a sub-query compares with a bound. -/
  counted : Subquery → Comparison → Int → Bool

/-- The truth value of a formula. -/
def Formula.value (v : Assignment) : Formula → Bool
  | .constant value => value
  | .test t => v.test t
  | .equal left right => v.equal left right
  | .both left right => left.value v && right.value v
  | .either left right => left.value v || right.value v
  | .exists_ body negated => v.hasRows body != negated
  | .counted body op bound => v.counted body op bound

mutual

/-- The sub-queries of a formula, at every depth. -/
def Formula.bodies : Formula → List Subquery
  | .constant _ | .test _ | .equal _ _ => []
  | .both left right | .either left right => left.bodies ++ right.bodies
  | .exists_ body _ | .counted body _ _ => body :: body.bodies

/-- The sub-queries inside a sub-query. -/
def Subquery.bodies : Subquery → List Subquery
  | ⟨_, joins, condition⟩ => joinBodies joins ++ condition.bodies

/-- The sub-queries in the conditions of joined tables. -/
def joinBodies : List JoinedTable → List Subquery
  | [] => []
  | ⟨_, _, on⟩ :: rest => on.bodies ++ joinBodies rest

end

/-- The sub-queries of an output. -/
def Output.bodies : Output → List Subquery
  | .all _ | .column _ => []
  | .aggregate _ _ body _ => body :: body.bodies

/-- The sub-queries of a statement, at every depth. -/
def Select.bodies (s : Select) : List Subquery :=
  s.outputs.flatMap Output.bodies ++ joinBodies s.joins ++ s.condition.bodies

/-! ## Truth of queries -/

/-- Truth values of what a query asks of a row. -/
structure Answers where
  test : Test → Bool
  related : Link → Query → Bool
  counted : Link → Query → Comparison → Int → Bool

mutual

/-- The truth value of a predicate. -/
def predicateValue (a : Answers) : Predicate → Bool
  | .test t => a.test t
  | .nested clauses => clausesValue a clauses
  | .related link query negated => a.related link query != negated
  | .counted link query op bound => a.counted link query op bound
  | .const value => value

/-- The truth value of clauses, AND binding tighter than OR; no clauses are true. -/
def clausesValue (a : Answers) : List Clause → Bool
  | [] => true
  | ⟨_, p⟩ :: rest => clausesValueAfter a (predicateValue a p) rest

/-- The truth value of clauses behind the beginning of an alternative. -/
def clausesValueAfter (a : Answers) (group : Bool) : List Clause → Bool
  | [] => group
  | ⟨.and, p⟩ :: rest => clausesValueAfter a (group && predicateValue a p) rest
  | ⟨.or, p⟩ :: rest => group || clausesValueAfter a (predicateValue a p) rest

end

/-- The truth value of a query: all active scopes and the clauses. -/
def queryValue (a : Answers) (q : Query) : Bool :=
  q.scopeTests.all a.test && clausesValue a q.clauses

mutual

/-- The questions about related rows in a predicate, at every depth. -/
def predicateAsks : Predicate → List (Link × Query)
  | .test _ | .const _ => []
  | .nested clauses => clausesAsk clauses
  | .related link query _ | .counted link query _ _ => (link, query) :: queryAsks query

/-- The questions about related rows in clauses, at every depth. -/
def clausesAsk : List Clause → List (Link × Query)
  | [] => []
  | ⟨_, p⟩ :: rest => predicateAsks p ++ clausesAsk rest

/-- The questions about related rows in the clauses of a query, at every depth. -/
def queryAsks : Query → List (Link × Query)
  | ⟨_, _, _, clauses, _, _, _, _, _, _, _, _⟩ => clausesAsk clauses

end

/-- The questions about related rows in a query and in what it projects and joins. -/
def selectAsks (q : Query) : List (Link × Query) :=
  q.aggregates.flatMap (fun a => (a.link, a.query) :: queryAsks a.query) ++
    q.joins.flatMap (fun j => j.conditions.flatMap predicateAsks) ++ queryAsks q

/-! ## What an assignment answers -/

/-- What an assignment answers to a query, whose questions are those about its sub-queries. -/
def Assignment.answers (v : Assignment) : Answers where
  test t := (testFormula t).value v
  related link query := v.hasRows (subqueryOf link query)
  counted link query := v.counted (subqueryOf link query)

/-- Whether the condition of a sub-query is true just when the link relates the rows and the query
is true of them. -/
def BodyAgrees (v : Assignment) (asked : Link × Query) (body : Subquery) : Prop :=
  body.condition.value v =
    ((linkFormulas asked.1).all (Formula.value v) && queryValue v.answers asked.2)

/-- Whether the condition of a joined table is true just when the keys of the join are equal and its
conditions are true. -/
def JoinAgrees (v : Assignment) (j : Join) (joined : JoinedTable) : Prop :=
  joined.on.value v =
    (v.equal j.first j.second && j.conditions.all (predicateValue v.answers))

/-! ## Formulas of queries -/

section
variable {v : Assignment}

theorem allOf_value (fs : List Formula) : (allOf fs).value v = fs.all (Formula.value v) := by
  induction fs with
  | nil => rfl
  | cons f rest ih =>
    cases rest with
    | nil => simp [allOf]
    | cons g rest =>
      rw [allOf, Formula.value, ih]
      simp

/-- The truth value of the alternatives behind the first. -/
def othersValue (v : Assignment) (parts : Formula × Option Formula) : Bool :=
  (parts.2.map (Formula.value v)).getD false

theorem alternativesOf_value (parts : Formula × Option Formula) :
    (alternativesOf parts).value v = (parts.1.value v || othersValue v parts) := by
  obtain ⟨f, others⟩ := parts
  cases others with
  | none => simp [alternativesOf, othersValue]
  | some others => rfl

mutual

/-- The formula of a predicate has its truth value: induction over predicates and clauses. -/
theorem predicateFormula_value : (p : Predicate) →
    (predicateFormula p).value v = predicateValue v.answers p
  | .test t => by
    rw [predicateFormula, predicateValue]
    rfl
  | .nested clauses => by
    rw [predicateFormula, predicateValue]
    exact clausesFormula_value clauses
  | .related link query negated => by
    rw [predicateFormula, predicateValue]
    rfl
  | .counted link query op bound => by
    rw [predicateFormula, predicateValue]
    rfl
  | .const value => by
    rw [predicateFormula, predicateValue]
    rfl

theorem clausesFormula_value : (clauses : List Clause) →
    (clausesFormula clauses).value v = clausesValue v.answers clauses
  | [] => by
    rw [clausesFormula, clausesValue]
    rfl
  | ⟨_, p⟩ :: rest => by
    have hrest := clauseParts_value true (predicateFormula p) rest
    simp only [Bool.true_and] at hrest
    rw [clausesFormula, clausesValue, alternativesOf_value, hrest, predicateFormula_value p]

/-- Clauses behind a formula go on with its alternative; what comes before in it is joined by
AND. -/
theorem clauseParts_value (before : Bool) (first : Formula) : (clauses : List Clause) →
    ((before && (clauseParts first clauses).1.value v) ||
        othersValue v (clauseParts first clauses)) =
      clausesValueAfter v.answers (before && first.value v) clauses
  | [] => by
    rw [clauseParts, clausesValueAfter]
    simp [othersValue]
  | ⟨.and, p⟩ :: rest => by
    have hrest := clauseParts_value (before && first.value v) (predicateFormula p) rest
    rw [clauseParts, clausesValueAfter, ← predicateFormula_value p, ← hrest]
    simp [Formula.value, othersValue, Bool.and_assoc]
  | ⟨.or, p⟩ :: rest => by
    have hrest := clauseParts_value true (predicateFormula p) rest
    simp only [Bool.true_and] at hrest
    rw [clauseParts, clausesValueAfter, ← predicateFormula_value p, ← hrest]
    simp [othersValue, alternativesOf_value]

end

/-- Scopes and clauses have the truth value of their query. -/
theorem constraints_value (q : Query) :
    (q.scopeTests.map testFormula ++
        if q.clauses.isEmpty then [] else [clausesFormula q.clauses]).all (Formula.value v) =
      queryValue v.answers q := by
  have hscopes : (q.scopeTests.map testFormula).all (Formula.value v) =
      q.scopeTests.all v.answers.test := by
    rw [List.all_map]
    rfl
  rw [List.all_append, hscopes, queryValue]
  cases hclauses : q.clauses with
  | nil => simp [clausesValue]
  | cons clause rest =>
    rw [← clausesFormula_value]
    simp

theorem formulaOf_value (q : Query) : (formulaOf q).value v = queryValue v.answers q := by
  rw [formulaOf, allOf_value, constraints_value]

theorem subqueryOf_agrees (link : Link) (q : Query) :
    BodyAgrees v (link, q) (subqueryOf link q) := by
  unfold BodyAgrees
  rw [subqueryOf_eq, allOf_value, List.append_assoc, List.all_append, constraints_value]

theorem joinOf_agrees (j : Join) : JoinAgrees v j (joinOf j) := by
  have hconditions : (j.conditions.map predicateFormula).all (Formula.value v) =
      j.conditions.all (predicateValue v.answers) := by
    rw [List.all_map]
    exact congrArg j.conditions.all (funext fun p => predicateFormula_value p)
  unfold JoinAgrees joinOf
  rw [allOf_value, List.all_cons, hconditions]
  rfl

end

/-! ## Sub-queries of queries -/

/-- The sub-queries of questions about related rows. -/
def subqueriesOf (asked : List (Link × Query)) : List Subquery :=
  asked.map fun (link, query) => subqueryOf link query

theorem allOf_bodies (fs : List Formula) : (allOf fs).bodies = fs.flatMap Formula.bodies := by
  induction fs with
  | nil => rfl
  | cons f rest ih =>
    cases rest with
    | nil => simp [allOf]
    | cons g rest =>
      rw [allOf, Formula.bodies, ih]
      rfl

theorem testFormula_bodies (t : Test) : (testFormula t).bodies = [] := by
  cases t with
  | compare | like | null | between => rfl
  | member c values negated =>
    rw [testFormula]
    split <;> rfl
  | empty c negated => cases negated <;> rfl

theorem scopes_bodies (q : Query) : (q.scopeTests.map testFormula).flatMap Formula.bodies = [] := by
  rw [List.flatMap_map]
  exact List.flatMap_eq_nil_iff.mpr fun t _ => testFormula_bodies t

theorem linkFormulas_bodies (link : Link) : (linkFormulas link).flatMap Formula.bodies = [] := by
  unfold linkFormulas
  cases link.kind with
  | direct => rfl
  | pivot _ _ _ _ _ morph => cases morph <;> rfl

theorem linkJoins_bodies (link : Link) : joinBodies (linkJoins link) = [] := by
  unfold linkJoins
  cases link.kind <;> rfl

mutual

/-- A formula asks what its predicate asks: induction over predicates, clauses and sub-queries. -/
theorem predicateFormula_bodies : (p : Predicate) →
    (predicateFormula p).bodies = subqueriesOf (predicateAsks p)
  | .test t => by
    rw [predicateFormula, predicateAsks]
    exact testFormula_bodies t
  | .nested clauses => by
    rw [predicateFormula, predicateAsks]
    exact clausesFormula_bodies clauses
  | .related link query negated => by
    rw [predicateFormula, predicateAsks, Formula.bodies, subqueryOf_bodies link query]
    rfl
  | .counted link query op bound => by
    rw [predicateFormula, predicateAsks, Formula.bodies, subqueryOf_bodies link query]
    rfl
  | .const value => by
    rw [predicateFormula, predicateAsks]
    rfl

theorem clausesFormula_bodies : (clauses : List Clause) →
    (clausesFormula clauses).bodies = subqueriesOf (clausesAsk clauses)
  | [] => by
    rw [clausesFormula, clausesAsk]
    rfl
  | ⟨_, p⟩ :: rest => by
    rw [clausesFormula, clausesAsk, clauseParts_bodies (predicateFormula p) rest,
      predicateFormula_bodies p]
    simp [subqueriesOf]

theorem clauseParts_bodies (first : Formula) : (clauses : List Clause) →
    (alternativesOf (clauseParts first clauses)).bodies =
      first.bodies ++ subqueriesOf (clausesAsk clauses)
  | [] => by
    rw [clauseParts, clausesAsk]
    simp [alternativesOf, subqueriesOf]
  | ⟨.and, p⟩ :: rest => by
    have hrest := clauseParts_bodies (predicateFormula p) rest
    rw [predicateFormula_bodies p] at hrest
    rw [clauseParts, clausesAsk]
    revert hrest
    obtain ⟨f, others⟩ := clauseParts (predicateFormula p) rest
    cases others with
    | none =>
      intro hrest
      simp_all [alternativesOf, Formula.bodies, subqueriesOf]
    | some others =>
      intro hrest
      simp_all [alternativesOf, Formula.bodies, subqueriesOf]
  | ⟨.or, p⟩ :: rest => by
    have hrest := clauseParts_bodies (predicateFormula p) rest
    rw [predicateFormula_bodies p] at hrest
    rw [clauseParts, clausesAsk]
    show first.bodies ++ (alternativesOf (clauseParts (predicateFormula p) rest)).bodies = _
    rw [hrest]
    simp [subqueriesOf]

theorem subqueryOf_bodies (link : Link) : (q : Query) →
    (subqueryOf link q).bodies = subqueriesOf (queryAsks q)
  | ⟨entity, tableAlias, depth, clauses, joins, orders, selects, eager, aggregates, limit, offset,
      removed⟩ => by
    have hclauses := clausesFormula_bodies clauses
    rw [subqueryOf_eq, Subquery.bodies, linkJoins_bodies, allOf_bodies, List.flatMap_append,
      List.flatMap_append, linkFormulas_bodies, scopes_bodies, queryAsks]
    cases clauses with
    | nil => rfl
    | cons clause rest => simpa using hclauses

end

theorem formulaOf_bodies (q : Query) : (formulaOf q).bodies = subqueriesOf (queryAsks q) := by
  have hclauses := clausesFormula_bodies q.clauses
  have hasks : queryAsks q = clausesAsk q.clauses := by
    cases q
    rfl
  rw [formulaOf, allOf_bodies, List.flatMap_append, scopes_bodies, hasks]
  cases hempty : q.clauses with
  | nil => rfl
  | cons clause rest =>
    rw [hempty] at hclauses
    simpa using hclauses

theorem joins_bodies (joins : List Join) :
    joinBodies (joins.map joinOf) =
      subqueriesOf (joins.flatMap fun j => j.conditions.flatMap predicateAsks) := by
  induction joins with
  | nil => rfl
  | cons j joins ih =>
    have hconditions : (j.conditions.map predicateFormula).flatMap Formula.bodies =
        subqueriesOf (j.conditions.flatMap predicateAsks) := by
      simp only [subqueriesOf, List.flatMap_map, List.map_flatMap, predicateFormula_bodies]
    rw [List.map_cons, joinOf, joinBodies, allOf_bodies, List.flatMap_cons, hconditions, ih]
    simp [Formula.bodies, subqueriesOf]

theorem outputs_bodies (q : Query) :
    (outputsOf q).flatMap Output.bodies =
      subqueriesOf (q.aggregates.flatMap fun a => (a.link, a.query) :: queryAsks a.query) := by
  have hcolumns : (if q.selects.isEmpty then [.all q.qualifier]
      else q.selects.map Output.column).flatMap Output.bodies = [] := by
    split
    · rfl
    · rw [List.flatMap_map]
      exact List.flatMap_eq_nil_iff.mpr fun _ _ => rfl
  rw [outputsOf, List.flatMap_append, hcolumns]
  simp only [subqueriesOf, List.flatMap_map, List.map_flatMap, List.nil_append]
  refine List.flatMap_congr fun a _ => ?_
  show subqueryOf a.link a.query :: (subqueryOf a.link a.query).bodies = _
  rw [subqueryOf_bodies]
  rfl

theorem selectOf_bodies (d : Dialect) (q : Query) :
    (selectOf d q).bodies = subqueriesOf (selectAsks q) := by
  unfold Select.bodies selectOf selectAsks
  simp only [outputs_bodies, joins_bodies, formulaOf_bodies]
  simp [subqueriesOf]

theorem subqueriesOf_agree (v : Assignment) (asked : List (Link × Query)) :
    List.Forall₂ (BodyAgrees v) asked (subqueriesOf asked) := by
  induction asked with
  | nil => exact .nil
  | cons ask asked ih => exact .cons (subqueryOf_agrees ask.1 ask.2) ih

/-! ## The engine -/

/-- What a frame answers to a query. -/
def engineAnswers (db : Dataset) (frame : Frame) : Answers where
  test := testHolds frame
  related link query := (candidates db frame link).any fun row => relatedHolds db frame row query
  counted link query op bound :=
    op.holds (compare
      (((candidates db frame link).countP fun row => relatedHolds db frame row query : Nat) : Int)
      bound)

section
variable (db : Dataset) (frame : Frame)

mutual

/-- The engine reads predicates by the answers of their frame. -/
theorem predicateHolds_eq_value : (p : Predicate) →
    predicateHolds db frame p = predicateValue (engineAnswers db frame) p
  | .test t => by rw [predicateHolds, predicateValue]; rfl
  | .nested clauses => by
    rw [predicateHolds, predicateValue, clausesHold_eq_value clauses]
  | .related link query negated => by rw [predicateHolds, predicateValue]; rfl
  | .counted link query op bound => by rw [predicateHolds, predicateValue]; rfl
  | .const value => by rw [predicateHolds, predicateValue]

theorem clausesHold_eq_value : (clauses : List Clause) →
    clausesHold db frame clauses = clausesValue (engineAnswers db frame) clauses
  | [] => by rw [clausesHold, clausesValue]
  | ⟨_, p⟩ :: rest => by
    rw [clausesHold, clausesValue, predicateHolds_eq_value p, clausesHoldAfter_eq_value _ rest]

theorem clausesHoldAfter_eq_value (group : Bool) : (clauses : List Clause) →
    clausesHoldAfter db frame group clauses =
      clausesValueAfter (engineAnswers db frame) group clauses
  | [] => by rw [clausesHoldAfter, clausesValueAfter]
  | ⟨.and, p⟩ :: rest => by
    rw [clausesHoldAfter, clausesValueAfter, predicateHolds_eq_value p,
      clausesHoldAfter_eq_value _ rest]
  | ⟨.or, p⟩ :: rest => by
    rw [clausesHoldAfter, clausesValueAfter, predicateHolds_eq_value p,
      clausesHoldAfter_eq_value _ rest]

end

theorem queryHolds_eq_value (q : Query) :
    queryHolds db frame q = queryValue (engineAnswers db frame) q := by
  rw [queryHolds, clausesHold_eq_value]
  rfl

theorem relatedHolds_eq_value (row : Row) (q : Query) :
    relatedHolds db frame row q =
      queryValue (engineAnswers db ((q.qualifier, some row) :: frame)) q := by
  rw [relatedHolds_eq, clausesHold_eq_value]
  rfl

theorem joinHolds_eq_value (j : Join) :
    joinHolds db frame j = ((read frame j.first).equals (read frame j.second) &&
      j.conditions.all (predicateValue (engineAnswers db frame))) := by
  rw [joinHolds]
  congr 2
  exact funext fun p => predicateHolds_eq_value db frame p

end

/-! ## Texts and queries -/

/-- Rendering keeps truth: whatever truth values the atomic conditions have, the conditions read
from a text, those of its joins and those of its sub-queries at every depth have the truth values
that the engine reads from the query, its joins and the queries of its questions. -/
theorem rendered_truth (d : Dialect) (q : Query) (v : Assignment) :
    (∀ r, renderCondition d q = .ok r → ∃ f, readCondition d r = some f ∧
      f.value v = queryValue v.answers q ∧
      List.Forall₂ (BodyAgrees v) (queryAsks q) f.bodies) ∧
    (∀ r, renderSelect d q = .ok r → ∃ s, readSelect d r = some s ∧
      s.condition.value v = queryValue v.answers q ∧
      List.Forall₂ (JoinAgrees v) q.joins s.joins ∧
      List.Forall₂ (BodyAgrees v) (selectAsks q) s.bodies) ∧
    ∀ db frame, queryHolds db frame q = queryValue (engineAnswers db frame) q ∧
      (∀ j ∈ q.joins, joinHolds db frame j = ((read frame j.first).equals (read frame j.second) &&
        j.conditions.all (predicateValue (engineAnswers db frame)))) ∧
      ∀ asked ∈ selectAsks q, ∀ row, relatedHolds db frame row asked.2 =
        queryValue (engineAnswers db ((asked.2.qualifier, some row) :: frame)) asked.2 := by
  refine ⟨fun r hr => ?_, fun r hr => ?_, fun db frame => ?_⟩
  · refine ⟨formulaOf q, readCondition_rendered hr, formulaOf_value q, ?_⟩
    rw [formulaOf_bodies]
    exact subqueriesOf_agree v (queryAsks q)
  · refine ⟨selectOf d q, readSelect_rendered hr, formulaOf_value q, ?_, ?_⟩
    · show List.Forall₂ (JoinAgrees v) q.joins (q.joins.map joinOf)
      rw [List.forall₂_map_right_iff]
      exact List.forall₂_same.mpr fun j _ => joinOf_agrees j
    · rw [selectOf_bodies]
      exact subqueriesOf_agree v (selectAsks q)
  · exact ⟨queryHolds_eq_value db frame q, fun j _ => joinHolds_eq_value db frame j,
      fun asked _ row => relatedHolds_eq_value db frame row asked.2⟩

/-- No test is true, and every question about rows is. -/
def onlyRows : Assignment where
  test _ := false
  equal _ _ := true
  hasRows _ := true
  counted _ _ _ := true

/-- The scope of the sample covers both of its alternatives. -/
theorem rendered_truth_sample :
    (∃ r f, renderCondition .sqlServer Sample.query = .ok r ∧
      readCondition .sqlServer r = some f ∧ f.value onlyRows = false) ∧
    ∃ r s, renderSelect .mysql Sample.query = .ok r ∧ readSelect .mysql r = some s ∧
      s.condition.value onlyRows = false ∧
      List.Forall₂ (BodyAgrees onlyRows) (selectAsks Sample.query) s.bodies := by
  obtain ⟨hcondition, -⟩ := rendered_truth .sqlServer Sample.query onlyRows
  have hvalue : queryValue onlyRows.answers Sample.query = false := rfl
  constructor
  · obtain ⟨r, hr⟩ : ∃ r, renderCondition .sqlServer Sample.query = .ok r := ⟨_, rfl⟩
    obtain ⟨f, hread, htruth, -⟩ := hcondition r hr
    exact ⟨r, f, hr, hread, htruth.trans hvalue⟩
  · obtain ⟨r, hr⟩ : ∃ r, renderSelect .mysql Sample.query = .ok r := ⟨_, rfl⟩
    obtain ⟨-, hselect, -⟩ := rendered_truth .mysql Sample.query onlyRows
    obtain ⟨s, hread, htruth, -, hbodies⟩ := hselect r hr
    exact ⟨r, s, hr, hread, htruth.trans hvalue, hbodies⟩

end Winnow.Sql
