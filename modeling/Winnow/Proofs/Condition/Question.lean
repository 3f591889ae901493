import Winnow.Compile.Leaf
import Winnow.Engine.Evaluate

/-!
# What an operator asks of a value

`Operation.question` says which values pass an operator, without predicates,
columns and frames.  The predicate of an operation holds exactly when the value
that its column reads passes, and where there is no predicate there is no
question, for the same reason (`predicate_asks`).
-/

namespace Winnow

open Engine

/-! ## Definitions -/

/-- Two outcomes of compiling that go the same way: the same error, twice no constraint, or two
constraints that correspond. -/
inductive Parallel {α β : Type} (corresponds : α → β → Prop) :
    Except CompileError (Option α) → Except CompileError (Option β) → Prop
  | error (e : CompileError) : Parallel corresponds (.error e) (.error e)
  | free : Parallel corresponds (.ok none) (.ok none)
  | bound {a : α} {b : β} (h : corresponds a b) : Parallel corresponds (.ok (some a)) (.ok (some b))

/-- A question about one value. -/
abbrev Question := Value → Bool

namespace Value

/-- Whether a value compares with a bound; null and values of other types never do. -/
def satisfies (op : Comparison) (bound v : Value) : Bool :=
  match v.compare? bound with
  | some o => op.holds o
  | none => false

/-- Whether a value is in a half-open interval, or is known to be outside. -/
def isWithin (low high : Value) (negated : Bool) (v : Value) : Bool :=
  if negated then satisfies .lt low v || satisfies .ge high v
  else satisfies .ge low v && satisfies .lt high v

/-- Whether a value is in a closed range, or is known to be outside. -/
def isBetween (low high : Value) (negated : Bool) (v : Value) : Bool :=
  match v.compare? low, v.compare? high with
  | some a, some b => (a != .lt && b != .gt) != negated
  | _, _ => false

/-- Whether a value is in a list, or is known not to be. -/
def isMember (values : List Value) (negated : Bool) (v : Value) : Bool :=
  !v.isNull && (values.any v.equals != negated)

/-- Whether the text of a value matches a pattern, or is known not to. -/
def isLike (pattern : String) (negated : Bool) (v : Value) : Bool :=
  match v.text? with
  | some written => like written pattern != negated
  | none => false

/-- Whether a value is null or the empty text. -/
def isBlank : Value → Bool
  | .null => true
  | .text s => s.isEmpty
  | _ => false

end Value

namespace Operation

/-- The question for equality: a plain date stands for its whole day. -/
def equalityQuestion (op : Operation) (negated : Bool) : Except CompileError Question :=
  if op.value.isNull then .ok fun v => v.isNull != negated
  else match op.dateOnly? op.value with
    | some date => do
      let (start, finish) ← op.localDay date
      .ok (Value.isWithin start finish negated)
    | none => do
      let bound ← op.scalar op.value
      .ok (Value.satisfies (if negated then .ne else .eq) bound)

/-- The question for an inequality: before or after a plain date means its day is not part of
it, up to or from it means that it is. -/
def comparisonQuestion (op : Operation) (comparison : Comparison) : Except CompileError Question :=
  match op.dateOnly? op.value with
  | some date => do
    let (start, finish) ← op.localDay date
    .ok (match comparison with
      | .lt => Value.satisfies .lt start
      | .le => Value.satisfies .lt finish
      | .gt => Value.satisfies .ge finish
      | _ => Value.satisfies .ge start)
  | none => do
    let bound ← op.scalar op.value
    .ok (Value.satisfies comparison bound)

/-- The question for a range: plain dates stand for all days from the first to the last. -/
def rangeQuestion (op : Operation) (negated : Bool) : Except CompileError Question :=
  match op.value with
  | .array [low, high] =>
    match op.dateOnly? low, op.dateOnly? high with
    | some first, some last => do
      let (start, _) ← op.localDay first
      let (_, finish) ← op.localDay last
      .ok (Value.isWithin start finish negated)
    | _, _ => do
      let low ← op.scalar low
      let high ← op.scalar high
      .ok (Value.isBetween low high negated)
  | _ => .error (op.invalid "a two element range is required")

/-- The question for a list; an empty list asks nothing. -/
def membershipQuestion (op : Operation) (negated : Bool) :
    Except CompileError (Option Question) := do
  let values ← (listValues op.value).mapM op.scalar
  .ok (if values.isEmpty then none else some (Value.isMember values negated))

/-- The question for a text with a pattern around it. -/
def patternQuestion (op : Operation) (before after : String) (negated : Bool) :
    Except CompileError Question := do
  .ok (Value.isLike (before ++ (← op.text) ++ after) negated)

/-- The question for a window relative to today. -/
def windowQuestion (op : Operation) : Except CompileError Question :=
  match (op.value.text?.bind Window.ofToken?).filter fun w => w.operator == op.operator with
  | none =>
    .error (op.invalid
      (op.value.compact ++ " is not a relative date for '" ++ op.operator.token ++ "'"))
  | some w =>
    match w.days? op.context.localToday with
    | none => .error (op.invalid "date out of range")
    | some (start, finish) =>
      .ok (if op.type = .dateTime then
          Value.isWithin (.instant (op.context.timezone.dayStart start))
            (.instant (op.context.timezone.dayStart finish)) false
        else Value.isWithin (.date start) (.date finish) false)

/-- What an operation asks of the value of its column, nothing when it places no constraint. -/
def question (op : Operation) : Except CompileError (Option Question) :=
  match op.operator with
  | .equal => (op.equalityQuestion false).map some
  | .notEqual => (op.equalityQuestion true).map some
  | .less => (op.comparisonQuestion .lt).map some
  | .lessOrEqual => (op.comparisonQuestion .le).map some
  | .greater => (op.comparisonQuestion .gt).map some
  | .greaterOrEqual => (op.comparisonQuestion .ge).map some
  | .between => (op.rangeQuestion false).map some
  | .notBetween => (op.rangeQuestion true).map some
  | .in_ => op.membershipQuestion false
  | .notIn => op.membershipQuestion true
  | .beginsWith => (op.patternQuestion "" "%" false).map some
  | .notBeginsWith => (op.patternQuestion "" "%" true).map some
  | .contains => (op.patternQuestion "%" "%" false).map some
  | .notContains => (op.patternQuestion "%" "%" true).map some
  | .endsWith => (op.patternQuestion "%" "" false).map some
  | .notEndsWith => (op.patternQuestion "%" "" true).map some
  | .isEmpty => .ok (some fun v => v.isBlank)
  | .isNotEmpty => .ok (some fun v => !v.isBlank)
  | .isNull => .ok (some fun v => v.isNull)
  | .isNotNull => .ok (some fun v => !v.isNull)
  | .is | .was => op.windowQuestion.map some

end Operation

/-- A predicate asks a question of a column, whatever else it is evaluated with. -/
def Asks (column : Column) (p : Predicate) (asks : Question) : Prop :=
  ∀ db frame, predicateHolds db frame p = asks (read frame column)

/-! ## Outcomes -/

/-- Corresponding constraints stay so when both are put into a larger one. -/
theorem Parallel.map {α β γ δ : Type} {r : α → β → Prop} {s : γ → δ → Prop} (f : α → γ) (g : β → δ)
    (hfg : ∀ a b, r a b → s (f a) (g b)) {x : Except CompileError (Option α)}
    {y : Except CompileError (Option β)} (h : Parallel r x y) :
    Parallel s (x.map (·.map f)) (y.map (·.map g)) := by
  cases h with
  | error e => exact .error e
  | free => exact .free
  | bound h => exact .bound (hfg _ _ h)

/-- Corresponding constraints stay so when one of both is read differently. -/
theorem Parallel.mapRight {α β δ : Type} {r : α → β → Prop} {s : α → δ → Prop} (g : β → δ)
    (hg : ∀ a b, r a b → s a (g b)) {x : Except CompileError (Option α)}
    {y : Except CompileError (Option β)} (h : Parallel r x y) :
    Parallel s x (y.map (·.map g)) := by
  cases h with
  | error e => exact .error e
  | free => exact .free
  | bound h => exact .bound (hg _ _ h)

/-! ## Tests -/

section
variable (c : Column)

theorem asks_compare (op : Comparison) (bound : Value) :
    Asks c (.test (.compare c op bound)) (Value.satisfies op bound) :=
  fun _ _ => rfl

theorem asks_null (negated : Bool) : Asks c (.test (.null c negated)) fun v => v.isNull != negated :=
  fun _ _ => rfl

theorem asks_within (low high : Value) (negated : Bool) :
    Asks c (if negated then .outside c low high else .halfOpen c low high)
      (Value.isWithin low high negated) := by
  intro db frame
  cases negated <;>
    simp only [Bool.false_eq_true, if_false, if_true, Predicate.outside, Predicate.halfOpen,
      predicateHolds, clausesHold, clausesHoldAfter] <;>
    rfl

theorem asks_between (low high : Value) (negated : Bool) :
    Asks c (.test (.between c low high negated)) (Value.isBetween low high negated) :=
  fun _ _ => rfl

theorem asks_member (values : List Value) (negated : Bool) (h : values.isEmpty = false) :
    Asks c (.test (.member c values negated)) (Value.isMember values negated) := by
  intro db frame
  simp only [predicateHolds, testHolds, h]
  rfl

theorem asks_like (pattern : String) (negated : Bool) :
    Asks c (.test (.like c pattern negated)) (Value.isLike pattern negated) :=
  fun _ _ => rfl

theorem asks_blank (negated : Bool) :
    Asks c (.test (.empty c negated)) fun v => v.isBlank != negated := by
  intro db frame
  simp only [predicateHolds, testHolds]
  cases read frame c <;> rfl

end

/-! ## Operators -/

namespace Operation

section
variable (op : Operation)

/-- Parallel outcomes where there is always a constraint or an error. -/
abbrev Answers (x : Except CompileError Predicate) (y : Except CompileError Question) : Prop :=
  Parallel (Asks op.column) (x.map some) (y.map some)

theorem equality_asks (negated : Bool) :
    op.Answers (op.equality negated) (op.equalityQuestion negated) := by
  unfold equality equalityQuestion
  by_cases hnull : op.value.isNull = true
  · rw [if_pos hnull, if_pos hnull]
    exact .bound (asks_null op.column negated)
  · rw [if_neg hnull, if_neg hnull]
    cases op.dateOnly? op.value with
    | some date =>
      simp only [bind, Except.bind]
      cases op.localDay date with
      | error e => exact .error e
      | ok day => exact .bound (asks_within op.column day.1 day.2 negated)
    | none =>
      simp only [bind, Except.bind]
      cases op.scalar op.value with
      | error e => exact .error e
      | ok bound => exact .bound (asks_compare op.column _ bound)

theorem comparison_asks (comparison : Comparison) :
    op.Answers (op.comparison comparison) (op.comparisonQuestion comparison) := by
  unfold Operation.comparison comparisonQuestion
  cases op.dateOnly? op.value with
  | some date =>
    simp only [bind, Except.bind]
    cases op.localDay date with
    | error e => exact .error e
    | ok day => cases comparison <;> exact .bound (asks_compare op.column _ _)
  | none =>
    simp only [bind, Except.bind]
    cases op.scalar op.value with
    | error e => exact .error e
    | ok bound => exact .bound (asks_compare op.column comparison bound)

theorem between_asks (low high : Json) (negated : Bool) :
    op.Answers
      (do
        let low ← op.scalar low
        let high ← op.scalar high
        .ok (.test (.between op.column low high negated)))
      (do
        let low ← op.scalar low
        let high ← op.scalar high
        .ok (Value.isBetween low high negated)) := by
  cases op.scalar low with
  | error e => exact .error e
  | ok low =>
    cases op.scalar high with
    | error e => exact .error e
    | ok high => exact .bound (asks_between op.column low high negated)

theorem range_asks (negated : Bool) :
    op.Answers (op.range negated) (op.rangeQuestion negated) := by
  unfold range rangeQuestion
  rcases op.value with _ | _ | _ | _ | _ | items | _
  case array =>
    rcases items with _ | ⟨low, _ | ⟨high, _ | _⟩⟩
    case cons.cons.nil =>
      simp only [bind, Except.bind]
      cases op.dateOnly? low with
      | none => exact between_asks op low high negated
      | some first =>
        cases op.dateOnly? high with
        | none => exact between_asks op low high negated
        | some last =>
          simp only
          cases op.localDay first with
          | error e => exact .error e
          | ok start =>
            cases op.localDay last with
            | error e => exact .error e
            | ok finish => exact .bound (asks_within op.column start.1 finish.2 negated)
    all_goals exact .error _
  all_goals exact .error _

theorem membership_asks (negated : Bool) :
    Parallel (Asks op.column) (op.membership negated) (op.membershipQuestion negated) := by
  unfold membership membershipQuestion
  simp only [bind, Except.bind]
  cases (listValues op.value).mapM op.scalar with
  | error e => exact .error e
  | ok values =>
    cases h : values.isEmpty with
    | true => simpa [h] using Parallel.free
    | false => simpa [h] using Parallel.bound (asks_member op.column values negated h)

theorem pattern_asks (before after : String) (negated : Bool) :
    op.Answers (op.pattern before after negated) (op.patternQuestion before after negated) := by
  unfold pattern patternQuestion
  simp only [bind, Except.bind]
  cases op.text with
  | error e => exact .error e
  | ok s => exact .bound (asks_like op.column _ negated)

theorem window_asks : op.Answers op.window op.windowQuestion := by
  unfold window windowQuestion
  simp only
  cases (op.value.text?.bind Window.ofToken?).filter fun w => w.operator == op.operator with
  | none => exact .error _
  | some w =>
    simp only
    cases w.days? op.context.localToday with
    | none => exact .error _
    | some days =>
      simp only
      split
      · exact .bound (asks_within op.column _ _ false)
      · exact .bound (asks_within op.column _ _ false)

/-- Whatever its operator, the predicate of an operation holds exactly when the value of the column
passes the question. -/
theorem predicate_asks : Parallel (Asks op.column) op.predicate op.question := by
  unfold predicate question
  cases op.operator with
  | equal => exact equality_asks op false
  | notEqual => exact equality_asks op true
  | less => exact comparison_asks op .lt
  | lessOrEqual => exact comparison_asks op .le
  | greater => exact comparison_asks op .gt
  | greaterOrEqual => exact comparison_asks op .ge
  | between => exact range_asks op false
  | notBetween => exact range_asks op true
  | in_ => exact membership_asks op false
  | notIn => exact membership_asks op true
  | beginsWith => exact pattern_asks op "" "%" false
  | notBeginsWith => exact pattern_asks op "" "%" true
  | contains => exact pattern_asks op "%" "%" false
  | notContains => exact pattern_asks op "%" "%" true
  | endsWith => exact pattern_asks op "%" "" false
  | notEndsWith => exact pattern_asks op "%" "" true
  | isEmpty => simpa using Parallel.bound (asks_blank op.column false)
  | isNotEmpty => simpa using Parallel.bound (asks_blank op.column true)
  | isNull => simpa using Parallel.bound (asks_null op.column false)
  | isNotNull => simpa using Parallel.bound (asks_null op.column true)
  | is => exact window_asks op
  | was => exact window_asks op

end

end Operation
end Winnow
