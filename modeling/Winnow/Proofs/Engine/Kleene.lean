import Winnow.Proofs.Compile.Typed
import Winnow.Proofs.Decimal.Reading
import Winnow.Proofs.Engine.Matching

/-!
# Three-valued evaluation

A database evaluates conditions in Kleene's logic: what compares with null is
unknown, connectives and negations carry that on, and a row is selected only
when its condition is true.  `Kleene` evaluates queries in this way, the link of
a question and the condition of a join included.  A test that binds values of
one type is true just when it holds (`testTruth_isYes`), and knows whether it
holds of every value of that type (`Test.truth_ne_unknown`).  Being true
commutes with AND and OR, and negation stands at tests and questions only; so
clauses are true when they hold, as soon as that is so of their tests and
questions (`clausesTruth_isYes`).
-/

namespace Winnow

open Engine

/-! ## Truth values -/

/-- Whether a condition holds, as far as it is known. -/
inductive Truth where
  | no
  | unknown
  | yes
  deriving DecidableEq, Repr

namespace Truth

/-- What is known to hold or not. -/
def ofBool (b : Bool) : Truth := if b then yes else no

/-- Whether a condition is known to hold. -/
def isYes : Truth → Bool
  | yes => true
  | no | unknown => false

def not : Truth → Truth
  | no => yes
  | unknown => unknown
  | yes => no

/-- The negation, if there is one. -/
def negate (negated : Bool) (t : Truth) : Truth := if negated then t.not else t

def and : Truth → Truth → Truth
  | no, _ | _, no => no
  | yes, yes => yes
  | _, _ => unknown

def or : Truth → Truth → Truth
  | yes, _ | _, yes => yes
  | no, no => no
  | _, _ => unknown

/-- The conjunction of several conditions. -/
def all (ts : List Truth) : Truth := ts.foldr and yes

@[simp] theorem ofBool_isYes (b : Bool) : (ofBool b).isYes = b := by cases b <;> rfl

@[simp] theorem and_isYes (a b : Truth) : (a.and b).isYes = (a.isYes && b.isYes) := by
  cases a <;> cases b <;> rfl

@[simp] theorem or_isYes (a b : Truth) : (a.or b).isYes = (a.isYes || b.isYes) := by
  cases a <;> cases b <;> rfl

theorem negate_ofBool_isYes (negated b : Bool) :
    (negate negated (ofBool b)).isYes = (b != negated) := by
  cases negated <;> cases b <;> rfl

theorem ofBool_ne_unknown (b : Bool) : ofBool b ≠ unknown := by cases b <;> simp [ofBool]

theorem negate_ne_unknown {t : Truth} (h : t ≠ unknown) (negated : Bool) :
    negate negated t ≠ unknown := by
  cases negated <;> cases t <;> simp_all [negate, not]

theorem and_ne_unknown {a b : Truth} (ha : a ≠ unknown) (hb : b ≠ unknown) : a.and b ≠ unknown := by
  cases a <;> cases b <;> simp_all [and]

theorem or_ne_unknown {a b : Truth} (ha : a ≠ unknown) (hb : b ≠ unknown) : a.or b ≠ unknown := by
  cases a <;> cases b <;> simp_all [or]

theorem all_isYes (ts : List Truth) : (all ts).isYes = ts.all isYes := by
  induction ts with
  | nil => rfl
  | cons t ts ih => rw [all, List.foldr_cons, and_isYes, List.all_cons, ← ih, all]

end Truth

/-! ## Tests -/

/-- The truth of a comparison of two values: unknown where one of them is null, and where they have
no order. -/
def Value.comparisonTruth (op : Comparison) (a b : Value) : Truth :=
  if a.isNull || b.isNull then .unknown
  else match a.compare? b with
    | some o => .ofBool (op.holds o)
    | none => .unknown

/-- The truth of a value being among others: where none of them equals it, unknown when it or one of
them is null. -/
def Value.membershipTruth (values : List Value) (v : Value) : Truth :=
  if values.any v.equals then .yes
  else if values.isEmpty then .no
  else if v.isNull || values.any Value.isNull then .unknown
  else .no

/-- The truth of a test of a value. -/
def Test.truth (v : Value) : Test → Truth
  | .compare _ op value => v.comparisonTruth op value
  | .like _ pattern negated =>
    match v.text? with
    | some text => Truth.negate negated (.ofBool (Engine.like text pattern))
    | none => .unknown
  | .member _ values negated => Truth.negate negated (v.membershipTruth values)
  | .null _ negated => Truth.negate negated (.ofBool v.isNull)
  | .empty _ false => (Truth.ofBool v.isNull).or (v.comparisonTruth .eq (.text ""))
  | .empty _ true => (Truth.ofBool !v.isNull).and (v.comparisonTruth .ne (.text ""))
  | .between _ low high negated =>
    Truth.negate negated ((v.comparisonTruth .ge low).and (v.comparisonTruth .le high))

namespace Kleene

/-- The truth of a test of a frame. -/
def testTruth (frame : Frame) (t : Test) : Truth := t.truth (read frame t.column)

/-! ## Related rows -/

/-- Whether a row is known to hold a value equal to a key in a column. -/
def holdsKey (column : String) (key : Value) (row : Row) : Bool :=
  ((row.value column).comparisonTruth .eq key).isYes

/-- The rows that a link relates to the row under its parent: those with its keys, once for every
row of the pivot if there is one. -/
def linkedRows (db : Dataset) (frame : Frame) (link : Link) : List Row :=
  let parent (column : String) : Value := read frame (.field link.parent column)
  match link.kind with
  | .direct parentColumn relatedColumn =>
    (db.rows link.relatedTable).filter (holdsKey relatedColumn (parent parentColumn))
  | .pivot table parentPivotColumn relatedPivotColumn parentColumn relatedColumn morph =>
    let pivots := (db.rows table).filter fun pivot =>
      holdsKey parentPivotColumn (parent parentColumn) pivot &&
        morph.all fun m => holdsKey m.column (.text m.value) pivot
    pivots.flatMap fun pivot =>
      (db.rows link.relatedTable).filter (holdsKey relatedColumn (pivot.value relatedPivotColumn))

/-! ## Predicates -/

/-- The truth of the tests of all global scopes of a query. -/
def scopesTruth (frame : Frame) (q : Query) : Truth := Truth.all (q.scopeTests.map (testTruth frame))

mutual

/-- The truth of a predicate.  Whether related rows exist, and how many do, is always known: those
count whose condition is true. -/
def predicateTruth (db : Dataset) (frame : Frame) : Predicate → Truth
  | .test t => testTruth frame t
  | .nested clauses => clausesTruth db frame clauses
  | .related link query negated =>
    Truth.negate negated
      (.ofBool ((linkedRows db frame link).any fun row => (relatedTruth db frame row query).isYes))
  | .counted link query op bound =>
    let n := (linkedRows db frame link).countP fun row => (relatedTruth db frame row query).isYes
    .ofBool (op.holds (compare (n : Int) bound))
  | .const value => .ofBool value

/-- The truth of clauses, AND binding tighter than OR. -/
def clausesTruth (db : Dataset) (frame : Frame) : List Clause → Truth
  | [] => .yes
  | ⟨_, p⟩ :: rest => clausesTruthAfter db frame (predicateTruth db frame p) rest

/-- The truth of clauses after the truth so far of an AND-group. -/
def clausesTruthAfter (db : Dataset) (frame : Frame) (group : Truth) : List Clause → Truth
  | [] => group
  | ⟨.and, p⟩ :: rest => clausesTruthAfter db frame (group.and (predicateTruth db frame p)) rest
  | ⟨.or, p⟩ :: rest => group.or (clausesTruthAfter db frame (predicateTruth db frame p) rest)

/-- The truth of the scopes and clauses of a query of related rows. -/
def relatedTruth (db : Dataset) (frame : Frame) (row : Row) : Query → Truth
  | ⟨entity, tableAlias, depth, clauses, joins, orders, selects, eager, aggregates, limit, offset,
      removed⟩ =>
    let query : Query := ⟨entity, tableAlias, depth, clauses, joins, orders, selects, eager,
      aggregates, limit, offset, removed⟩
    let inner := (query.qualifier, some row) :: frame
    (scopesTruth inner query).and (clausesTruth db inner clauses)

end

/-! ## Queries -/

/-- The truth of the scopes and clauses of a query. -/
def queryTruth (db : Dataset) (frame : Frame) (q : Query) : Truth :=
  (scopesTruth frame q).and (clausesTruth db frame q.clauses)

/-- The truth of the keys and conditions of a join. -/
def joinTruth (db : Dataset) (frame : Frame) (join : Join) : Truth :=
  ((read frame join.first).comparisonTruth .eq (read frame join.second)).and
    (Truth.all (join.conditions.map (predicateTruth db frame)))

/-- A frame extended by the rows for which the condition of a join is true. -/
def joinFrame (db : Dataset) (join : Join) (frame : Frame) : List Frame :=
  let extended := ((db.rows join.table).map fun row => (join.tableAlias, some row) :: frame).filter
    fun frame => (joinTruth db frame join).isYes
  if extended.isEmpty && join.kind == .left then [(join.tableAlias, none) :: frame] else extended

/-- Rows of the table extended by all joins. -/
def joinedFrames (db : Dataset) (q : Query) : List Frame :=
  q.joins.foldl (fun frames join => frames.flatMap (joinFrame db join))
    ((db.rows q.entity.table).map fun row => [(q.qualifier, some row)])

/-- The frames for which the condition of a query is true. -/
def matchingFrames (db : Dataset) (q : Query) : List Frame :=
  (joinedFrames db q).filter fun frame => (queryTruth db frame q).isYes

end Kleene

/-! ## Values that compare -/

namespace Value

/-- Whether a value is a number that is none. -/
def isNaN : Value → Bool
  | .decimal x => x.isNaN
  | _ => false

theorem comparisonTruth_isYes (op : Comparison) (a b : Value) :
    (a.comparisonTruth op b).isYes =
      match a.compare? b with
      | some o => op.holds o
      | none => false := by
  have hnull : a.isNull || b.isNull → a.compare? b = none := by
    cases a <;> cases b <;> simp [isNull, compare?]
  unfold comparisonTruth
  cases h : (a.isNull || b.isNull) with
  | true =>
    rw [hnull h]
    rfl
  | false =>
    cases a.compare? b with
    | none => rfl
    | some o => exact Truth.ofBool_isYes _

theorem equals_isYes (a b : Value) : (a.comparisonTruth .eq b).isYes = a.equals b := by
  rw [comparisonTruth_isYes, equals]
  rcases a.compare? b with _ | _ | _ | _ <;> rfl

theorem eq_nan_of_isNaN {v : Value} (h : v.isNaN = true) : v = .decimal .nan := by
  cases v with
  | decimal x => cases x <;> first | rfl | cases h
  | _ => cases h

theorem ofInt_isNaN (n : Int) : (Decimal.ofInt n).isNaN = false := Decimal.ofRatio_isNaN ..

theorem decimal_isSome {a b c : Decimal} (hb : b.isNaN = false) (hc : c.isNaN = false) :
    (a.compare? b).isSome = (a.compare? c).isSome := by
  unfold Decimal.compare?
  rw [hb, hc]
  cases a.isNaN <;> rfl

/-- What compares with a value depends on the type of the value only, unless it is no number. -/
theorem compare?_isSome_congr {type : ColumnType} {low high : Value}
    (hlow : low.isOf type = true) (hhigh : high.isOf type = true) (hlow' : low.isNaN = false)
    (hhigh' : high.isNaN = false) (v : Value) :
    (v.compare? low).isSome = (v.compare? high).isSome := by
  cases low <;> cases high
  case decimal.decimal =>
    cases v
    case integer | decimal => exact decimal_isSome hlow' hhigh'
    all_goals rfl
  case integer.integer b c =>
    cases v
    case decimal => exact decimal_isSome (ofInt_isNaN b) (ofInt_isNaN c)
    all_goals rfl
  case bool.bool | text.text | date.date | instant.instant => cases v <;> rfl
  -- values of one type are made alike
  all_goals cases type <;> first | (cases hlow; done) | cases hhigh

/-- Two values of one type compare, unless one of them is no number. -/
theorem compare?_isSome {type : ColumnType} {a b : Value} (ha : a.isOf type = true)
    (hb : b.isOf type = true) (ha' : a.isNaN = false) (hb' : b.isNaN = false) :
    (a.compare? b).isSome = true := by
  rw [compare?_isSome_congr hb ha hb' ha' a]
  cases a with
  | null => cases ha
  | decimal x =>
    have hx : x.isNaN = false := ha'
    simp [compare?, Decimal.compare?, hx]
  | _ => rfl

theorem comparisonTruth_ne_unknown {type : ColumnType} {a b : Value} (ha : a.isOf type = true)
    (hb : b.isOf type = true) (ha' : a.isNaN = false) (hb' : b.isNaN = false) (op : Comparison) :
    a.comparisonTruth op b ≠ .unknown := by
  obtain ⟨o, ho⟩ := Option.isSome_iff_exists.mp (compare?_isSome ha hb ha' hb')
  unfold comparisonTruth
  rw [isNull_of_isOf ha, isNull_of_isOf hb, ho]
  exact Truth.ofBool_ne_unknown _

theorem membershipTruth_ne_unknown {values : List Value} (hvalues : ∀ w ∈ values, w.isNull = false)
    {v : Value} (hv : v.isNull = false) : v.membershipTruth values ≠ .unknown := by
  have hnone : values.any isNull = false := by
    rw [List.any_eq_false]
    intro w hw
    rw [hvalues w hw]
    exact Bool.false_ne_true
  unfold membershipTruth
  rw [hnone, hv]
  split
  · simp
  · split <;> simp

/-- Of values that are not null, one is equal, or none is and that is known unless the value is
null. -/
theorem membershipTruth_isYes {values : List Value} (hvalues : ∀ w ∈ values, w.isNull = false)
    (negated : Bool) (v : Value) :
    (Truth.negate negated (v.membershipTruth values)).isYes =
      if values.isEmpty then negated else !v.isNull && (values.any v.equals != negated) := by
  have hnone : values.any isNull = false := by
    rw [List.any_eq_false]
    intro w hw
    rw [hvalues w hw]
    exact Bool.false_ne_true
  have hnull : v.isNull = true → values.any v.equals = false := by
    intro hv
    rw [List.any_eq_false]
    intro w _
    cases v with
    | null => simp [null_equals]
    | _ => cases hv
  unfold membershipTruth
  rw [hnone]
  cases values with
  | nil => cases negated <;> rfl
  | cons w values =>
    generalize hany : (w :: values).any v.equals = equal at hnull ⊢
    cases hv : v.isNull with
    | true =>
      rw [hnull hv]
      cases negated <;> rfl
    | false => cases equal <;> cases negated <;> rfl

/-- A range whose bounds are of one type is known to hold a value or not, or neither bound compares
with the value. -/
theorem betweenTruth_isYes {type : ColumnType} {low high : Value} (hlow : low.isOf type = true)
    (hhigh : high.isOf type = true) (hlow' : low.isNaN = false) (hhigh' : high.isNaN = false)
    (negated : Bool) (v : Value) :
    (Truth.negate negated ((v.comparisonTruth .ge low).and (v.comparisonTruth .le high))).isYes =
      match v.compare? low, v.compare? high with
      | some a, some b => (a != .lt && b != .gt) != negated
      | _, _ => false := by
  have hsame := compare?_isSome_congr hlow hhigh hlow' hhigh' v
  have htruth : ∀ (op : Comparison) {b : Value}, b.isNull = false → v.comparisonTruth op b =
      match v.compare? b with
      | some o => .ofBool (op.holds o)
      | none => .unknown := by
    intro op b hb
    unfold comparisonTruth
    rw [hb, Bool.or_false]
    cases v <;> rfl
  rw [htruth .ge (isNull_of_isOf hlow), htruth .le (isNull_of_isOf hhigh)]
  cases ha : v.compare? low with
  | none =>
    rw [ha] at hsame
    cases hb : v.compare? high with
    | none => cases negated <;> rfl
    | some b =>
      rw [hb] at hsame
      cases hsame
  | some a =>
    rw [ha] at hsame
    cases hb : v.compare? high with
    | none =>
      rw [hb] at hsame
      cases hsame
    | some b => cases a <;> cases b <;> cases negated <;> rfl

/-- A text compares with the empty one as equal just when it is empty. -/
theorem compare?_empty (s : String) :
    ∃ o, (Value.text s).compare? (.text "") = some o ∧ (o == .eq) = s.isEmpty := by
  refine ⟨_, rfl, ?_⟩
  rw [Bool.eq_iff_iff, beq_iff_eq, String.isEmpty_iff]
  unfold compareOfLessAndEq
  split
  next hlt => exact iff_of_false (by simp) fun h => String.lt_irrefl _ (h ▸ hlt)
  next => split <;> simp_all

/-- Of null and texts it is known whether they are empty. -/
theorem emptyTruth_isYes (column : Column) (negated : Bool) (v : Value) :
    v.isNull = true ∨ v.isOf .text = true →
      ((Test.empty column negated).truth v).isYes =
        ((match v with
          | .null => true
          | .text s => s.isEmpty
          | _ => false) != negated) := by
  intro hv
  cases v with
  | null => cases negated <;> rfl
  | text s =>
    obtain ⟨o, ho, hempty⟩ := compare?_empty s
    simp only
    rw [← hempty]
    cases negated
    all_goals
      simp only [Test.truth, Truth.or_isYes, Truth.and_isYes, comparisonTruth_isYes, ho]
      cases o <;> rfl
  | _ => exact absurd hv (by simp [isNull, isOf])

end Value

/-! ## When tests are true -/

/-- Whether a test is for null or the empty text. -/
def Test.asksEmptiness : Test → Bool
  | .empty .. => true
  | _ => false

/-- Of the values of its type a test always knows whether it holds: unknown is what is asked of
null. -/
theorem Test.truth_ne_unknown {t : Test} (ht : t.Typed) (hnumbers : ∀ w ∈ t.values, w.isNaN = false) :
    ∃ type, (∀ w ∈ t.values, w.isOf type = true) ∧
      ∀ v : Value, v.isOf type = true → v.isNaN = false → t.truth v ≠ .unknown := by
  obtain ⟨type, htype⟩ := ht
  cases t with
  | compare column op value =>
    refine ⟨type, htype, fun v hv hv' => ?_⟩
    have hvalue : value ∈ (compare column op value).values := List.mem_cons_self
    exact Value.comparisonTruth_ne_unknown hv (htype value hvalue) hv' (hnumbers value hvalue) op
  | like column pattern negated =>
    refine ⟨type, htype, fun v hv _ => ?_⟩
    have htext : ∃ text, v.text? = some text := by
      cases v <;> first | exact ⟨_, rfl⟩ | cases hv
    obtain ⟨text, htext⟩ := htext
    simp only [truth, htext]
    exact Truth.negate_ne_unknown (Truth.ofBool_ne_unknown _) negated
  | member column values negated =>
    refine ⟨type, htype, fun v hv _ => Truth.negate_ne_unknown ?_ negated⟩
    exact Value.membershipTruth_ne_unknown (fun w hw => Value.isNull_of_isOf (htype w hw))
      (Value.isNull_of_isOf hv)
  | null column negated =>
    exact ⟨type, htype, fun v _ _ => Truth.negate_ne_unknown (Truth.ofBool_ne_unknown _) negated⟩
  | empty column negated =>
    refine ⟨.text, by simp [values], fun v hv hv' => ?_⟩
    have hempty := Value.comparisonTruth_ne_unknown hv (b := .text "") rfl hv' rfl
    cases negated with
    | true => exact Truth.and_ne_unknown (Truth.ofBool_ne_unknown _) (hempty .ne)
    | false => exact Truth.or_ne_unknown (Truth.ofBool_ne_unknown _) (hempty .eq)
  | between column low high negated =>
    refine ⟨type, htype, fun v hv hv' => Truth.negate_ne_unknown (Truth.and_ne_unknown ?_ ?_) negated⟩
    · have hlow : low ∈ (between column low high negated).values := List.mem_cons_self
      exact Value.comparisonTruth_ne_unknown hv (htype low hlow) hv' (hnumbers low hlow) .ge
    · have hhigh : high ∈ (between column low high negated).values :=
        List.mem_cons_of_mem _ List.mem_cons_self
      exact Value.comparisonTruth_ne_unknown hv (htype high hhigh) hv' (hnumbers high hhigh) .le

namespace Kleene

section
variable {frame : Frame} {t : Test}

theorem testTruth_isYes (ht : t.Typed) (hnumbers : ∀ w ∈ t.values, w.isNaN = false)
    (htext : t.asksEmptiness = true →
      (read frame t.column).isNull = true ∨ (read frame t.column).isOf .text = true) :
    (testTruth frame t).isYes = testHolds frame t := by
  obtain ⟨type, htype⟩ := ht
  unfold testTruth
  cases t with
  | compare column op value => exact Value.comparisonTruth_isYes op _ value
  | like column pattern negated =>
    simp only [Test.truth, Test.column, testHolds]
    cases (read frame column).text? with
    | none => rfl
    | some text => exact Truth.negate_ofBool_isYes negated _
  | member column values negated =>
    exact Value.membershipTruth_isYes (fun w hw => Value.isNull_of_isOf (htype w hw)) negated _
  | null column negated => exact Truth.negate_ofBool_isYes negated _
  | empty column negated => exact Value.emptyTruth_isYes column negated _ (htext rfl)
  | between column low high negated =>
    have hlow : low ∈ (Test.between column low high negated).values := List.mem_cons_self
    have hhigh : high ∈ (Test.between column low high negated).values :=
      List.mem_cons_of_mem _ List.mem_cons_self
    exact Value.betweenTruth_isYes (htype low hlow) (htype high hhigh) (hnumbers low hlow)
      (hnumbers high hhigh) negated _

/-- Global scopes compare with values and ask for null, whatever the values are. -/
theorem testTruth_scope (frame : Frame) (scope : GlobalScope) (e : Entity) (qualifier : String) :
    (testTruth frame (scope.test e qualifier)).isYes =
      testHolds frame (scope.test e qualifier) := by
  unfold GlobalScope.test
  cases scope.constraint with
  | softDeletes column => exact Truth.negate_ofBool_isYes false _
  | equals column value =>
    simp only
    split
    · exact Truth.negate_ofBool_isYes false _
    · exact Value.comparisonTruth_isYes .eq _ _

theorem scopesTruth_isYes (frame : Frame) (q : Query) :
    (scopesTruth frame q).isYes = scopesHold frame q := by
  unfold scopesTruth scopesHold Query.scopeTests
  rw [Truth.all_isYes, List.map_map, List.all_map, List.all_map]
  exact congrArg q.activeScopes.all (funext fun scope => testTruth_scope frame scope _ _)

end

/-! ## When questions are true -/

section
variable {db : Dataset} {frame : Frame}

theorem holdsKey_eq (column : String) (key : Value) : holdsKey column key = hasKey column key := by
  funext row
  unfold holdsKey hasKey Row.value
  rw [Value.equals_isYes]
  cases row.get? column with
  | none => exact Value.null_equals key
  | some v => rfl

/-- Both ways of evaluating follow links to the same rows. -/
theorem linkedRows_eq (link : Link) : linkedRows db frame link = candidates db frame link := by
  have hnull : ∀ (column : String) (row : Row), hasKey column .null row = false := by
    intro column row
    unfold hasKey
    cases row.get? column with
    | none => rfl
    | some v => cases v <;> rfl
  unfold linkedRows candidates
  cases hparent : frame.row? link.parent with
  | none =>
    simp only [Engine.read, hparent, holdsKey_eq]
    cases link.kind <;> simp [hnull]
  | some parent =>
    simp only [Engine.read, hparent, holdsKey_eq]
    unfold Engine.linkedRows
    cases link.kind with
    | direct parentColumn relatedColumn => rfl
    | pivot table parentPivot relatedPivot parentColumn relatedColumn morph => cases morph <;> rfl

/-- Whether both ways of evaluating agree on the rows that a question is about. -/
def Alike (db : Dataset) (frame : Frame) (asked : Link × Query) : Prop :=
  ∀ row ∈ candidates db frame asked.1,
    (relatedTruth db frame row asked.2).isYes = relatedHolds db frame row asked.2

theorem Alike.map_eq {link : Link} {sub : Query} (h : Alike db frame (link, sub)) :
    ((linkedRows db frame link).map fun row => (relatedTruth db frame row sub).isYes) =
      (candidates db frame link).map fun row => relatedHolds db frame row sub := by
  rw [linkedRows_eq]
  exact List.map_congr_left h

mutual

/-- A predicate is true when it holds, if both ways of evaluating agree on its tests and
questions. -/
theorem predicateTruth_isYes : (p : Predicate) →
    (∀ t ∈ predicateTests p, (testTruth frame t).isYes = testHolds frame t) →
    (∀ asked ∈ predicateQuestions p, Alike db frame asked) →
      (predicateTruth db frame p).isYes = predicateHolds db frame p
  | .test t, htests, _ => by
    rw [predicateTruth, predicateHolds]
    exact htests t List.mem_cons_self
  | .nested clauses, htests, hquestions => by
    rw [predicateTruth, predicateHolds]
    exact clausesTruth_isYes clauses htests hquestions
  | .related link query negated, _, hquestions => by
    have hrows := congrArg (List.any · id) (hquestions _ List.mem_cons_self).map_eq
    simp only [List.any_map, Function.comp_def, id] at hrows
    rw [predicateTruth, predicateHolds, Truth.negate_ofBool_isYes, hrows]
  | .counted link query op bound, _, hquestions => by
    have hrows := congrArg (List.countP id) (hquestions _ List.mem_cons_self).map_eq
    simp only [List.countP_map, Function.comp_def, id] at hrows
    rw [predicateTruth, predicateHolds, Truth.ofBool_isYes, hrows]
  | .const value, _, _ => by rw [predicateTruth, predicateHolds, Truth.ofBool_isYes]

theorem clausesTruth_isYes : (clauses : List Clause) →
    (∀ t ∈ clausesTests clauses, (testTruth frame t).isYes = testHolds frame t) →
    (∀ asked ∈ clausesQuestions clauses, Alike db frame asked) →
      (clausesTruth db frame clauses).isYes = clausesHold db frame clauses
  | [], _, _ => by
    rw [clausesTruth, clausesHold]
    rfl
  | ⟨_, p⟩ :: rest, htests, hquestions => by
    rw [clausesTruth, clausesHold]
    refine (clausesTruthAfter_isYes _ rest (fun t ht => ?_) fun asked hasked => ?_).trans ?_
    · exact htests t (List.mem_append_right _ ht)
    · exact hquestions asked (List.mem_append_right _ hasked)
    · rw [predicateTruth_isYes p (fun t ht => htests t (List.mem_append_left _ ht))
        fun asked hasked => hquestions asked (List.mem_append_left _ hasked)]

theorem clausesTruthAfter_isYes (group : Truth) : (clauses : List Clause) →
    (∀ t ∈ clausesTests clauses, (testTruth frame t).isYes = testHolds frame t) →
    (∀ asked ∈ clausesQuestions clauses, Alike db frame asked) →
      (clausesTruthAfter db frame group clauses).isYes =
        clausesHoldAfter db frame group.isYes clauses
  | [], _, _ => by rw [clausesTruthAfter, clausesHoldAfter]
  | ⟨connective, p⟩ :: rest, htests, hquestions => by
    have hp := predicateTruth_isYes p (fun t ht => htests t (List.mem_append_left _ ht))
      fun asked hasked => hquestions asked (List.mem_append_left _ hasked)
    have hrest := fun group => clausesTruthAfter_isYes group rest
      (fun t ht => htests t (List.mem_append_right _ ht))
      fun asked hasked => hquestions asked (List.mem_append_right _ hasked)
    cases connective with
    | and => rw [clausesTruthAfter, clausesHoldAfter, hrest, Truth.and_isYes, hp]
    | or => rw [clausesTruthAfter, clausesHoldAfter, Truth.or_isYes, hrest, hp]

end

theorem relatedTruth_eq (row : Row) (q : Query) :
    relatedTruth db frame row q =
      (scopesTruth ((q.qualifier, some row) :: frame) q).and
        (clausesTruth db ((q.qualifier, some row) :: frame) q.clauses) := by
  cases q
  rw [relatedTruth]

end

end Kleene

end Winnow
