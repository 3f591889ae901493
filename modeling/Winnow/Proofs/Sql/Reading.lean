import Winnow.Proofs.Sql.Spacing
import Winnow.Proofs.Sql.Syntax

/-!
# Reading what is rendered

The readers give back what a statement was written for.  Each level of the
syntax has a property of tokens that says so, whatever follows them as long as
it cannot go on there:

* `ReadsUnit` — one condition between AND and OR: a test, a constant, a question
  about rows, or a formula in parentheses (`ReadsFormula.parenthesized`);
* `ReadsConjunction`, `ReadsFormula` — conditions between ANDs, and these between
  ORs (`ReadsUnit.and`, `ReadsConjunction.or`);
* `ReadsJoins`, `ReadsSubquery` — joined tables, and tables with a condition.

Predicates, clauses and sub-queries reach them by one induction over their
recursion (`predicate_reads`).  Parentheses stand just where they are needed: a
part is written without them only if it is one condition, or alone
(`withScopes_reads`, `conditions_read`).  The bounds for the number of steps
count three steps for every token, one for each level.
-/

namespace Winnow.Sql

open Winnow.Text

section
variable {d : Dialect}

/-! ## Words -/

theorem after_append (expected rest : List Token) :
    after expected (expected ++ rest) = some rest := by
  induction expected with
  | nil => rfl
  | cons e expected ih => simp [after, ih]

theorem expect_words (words : String) (rest : List Token) :
    expect d words (tokenize d words ++ rest) = some rest := after_append ..

theorem tokenize_blank (text : String) : tokenize d (" " ++ text) = tokenize d text := by
  unfold tokenize
  rw [String.toList_append]
  cases d <;> rfl

theorem tokenize_open : tokenize d "(" = [.symbol '('] := by cases d <;> rfl

theorem tokenize_close : tokenize d ")" = [.symbol ')'] := by cases d <;> rfl

@[simp] theorem valued_nil : Statement.valued d [] = [] := rfl

@[simp] theorem valued_words (text : String) (s : Statement) :
    Statement.valued d (.words text :: s) = tokenize d text ++ s.valued d := rfl

@[simp] theorem valued_name (identifier : String) (s : Statement) :
    Statement.valued d (.name identifier :: s) = .name identifier :: s.valued d := rfl

@[simp] theorem valued_bound (value : Value) (s : Statement) :
    Statement.valued d (.bound value :: s) = .value value :: s.valued d := rfl

/-- Statements written one for each member of a list are read one for each. -/
theorem each_reads {α β : Type} {f : α → Except Failure Statement} {g : α → β}
    {R : List Token → β → Prop} (hf : ∀ a s, f a = .ok s → R (Statement.valued d s) (g a))
    {l : List α} {parts : List Statement} (h : l.mapM f = .ok parts) :
    List.Forall₂ (fun s b => R (Statement.valued d s) b) parts (l.map g) := by
  have hall := mapM_eq_ok h
  clear h
  induction hall with
  | nil => exact .nil
  | cons hfirst _ ih => exact .cons (hf _ _ hfirst) ih

/-! ## Columns and tests -/

theorem readQualified_valued (qualifier name : String) (rest : List Token) :
    readQualified ((qualified qualifier name).valued d ++ rest) =
      some ((qualifier, name), rest) := by
  have hdot : tokenize d "." = [.symbol '.'] := by cases d <;> rfl
  simp [qualified, hdot, readQualified]

theorem readParts_valued (before between behind qualifier date time : String)
    (rest : List Token) :
    readParts d before between behind
        (Statement.valued d (.words before :: qualified qualifier date ++
          .words between :: (.words "COALESCE(" :: qualified qualifier time ++
            [.words ", '00:00:00')"]) ++ [.words behind]) ++ rest) =
      some (.dateTimeParts qualifier date time, rest) := by
  simp only [List.cons_append, List.append_assoc, valued_words, valued_append, valued_nil,
    List.nil_append]
  unfold readParts
  simp [expect_words, readQualified_valued]

theorem readColumn_valued {c : Column} {s : Statement} (h : column d c = .ok s)
    (rest : List Token) : readColumn d (s.valued d ++ rest) = some (c, rest) := by
  cases c with
  | field qualifier name =>
    cases h
    unfold readColumn
    rw [readQualified_valued]
  | dateTimeParts qualifier date time =>
    -- the words in front are no name
    have hcast : ∀ ts, readQualified (tokenize d "CAST(CONCAT(" ++ ts) = none := by
      intro ts
      cases d <;> rfl
    have hdatetime : ∀ ts, readQualified (tokenize d "DATETIME(" ++ ts) = none := by
      intro ts
      cases d <;> rfl
    cases d with
    | postgres =>
      cases h
      have hparts := readParts_valued (d := .postgres) "CAST(CONCAT(" ", ' ', " ") AS TIMESTAMP)"
        qualifier date time rest
      simp only [readColumn, List.cons_append, valued_words, List.append_assoc, hcast] at hparts ⊢
      exact hparts
    | mysql =>
      cases h
      have hparts := readParts_valued (d := .mysql) "CAST(CONCAT(" ", ' ', " ") AS DATETIME)"
        qualifier date time rest
      simp only [readColumn, List.cons_append, valued_words, List.append_assoc, hcast] at hparts ⊢
      exact hparts
    | sqlite =>
      cases h
      have hparts := readParts_valued (d := .sqlite) "DATETIME(" " || ' ' || " ")"
        qualifier date time rest
      simp only [readColumn, List.cons_append, valued_words, List.append_assoc, hdatetime]
        at hparts ⊢
      exact hparts
    | sqlServer => cases h

theorem readValues_valued {values : List Value} (h : values ≠ []) (rest : List Token) :
    readValues ((Statement.joinWith ", " (values.map fun value => [Piece.bound value])).valued d ++
      .symbol ')' :: rest) = some (values, rest) := by
  have hcomma : tokenize d ", " = [.symbol ','] := by cases d <;> rfl
  induction values with
  | nil => exact absurd rfl h
  | cons v values ih =>
    cases values with
    | nil => rfl
    | cons next values =>
      have hrest := ih (by simp)
      simp only [List.map_cons, Statement.joinWith, List.cons_append, List.nil_append, valued_bound,
        valued_words, hcomma, readValues] at hrest ⊢
      rw [hrest]
      rfl

theorem readBehind_member {c : Column} {negated : Bool} {values : List Value} {ts rest : List Token}
    (h : readValues ts = some (values, rest)) :
    readBehind d c (tokenize d (if negated then " NOT IN (" else " IN (") ++ ts) =
      some (.test (.member c values negated), rest) := by
  have hmember : readMember d c negated
      (tokenize d (if negated then " NOT IN (" else " IN (") ++ ts) =
        some (.test (.member c values negated), rest) := by
    unfold readMember
    rw [expect_words]
    simp [h]
  -- no way of reading before that of members takes the words
  cases negated with
  | false =>
    have hothers : readBehind d c (tokenize d " IN (" ++ ts) =
        (readMember d c false (tokenize d " IN (" ++ ts) <|>
          readMember d c true (tokenize d " IN (" ++ ts) <|>
          readBetween d c false (tokenize d " IN (" ++ ts) <|>
          readBetween d c true (tokenize d " IN (" ++ ts)) := by
      cases d <;> rfl
    exact hothers.trans (congrArg (· <|> _) hmember)
  | true =>
    have hothers : readBehind d c (tokenize d " NOT IN (" ++ ts) =
        (readMember d c true (tokenize d " NOT IN (" ++ ts) <|>
          readBetween d c false (tokenize d " NOT IN (" ++ ts) <|>
          readBetween d c true (tokenize d " NOT IN (" ++ ts)) := by
      cases d <;> rfl
    exact hothers.trans (congrArg (· <|> _) hmember)

theorem member_words (negated : Bool) (s : Statement) :
    Statement.valued d
        (.words (if negated then " NOT IN " else " IN ") :: Statement.parenthesized s) =
      tokenize d (if negated then " NOT IN (" else " IN (") ++ (s.valued d ++ [.symbol ')']) := by
  have hopen : tokenize d (if negated then " NOT IN " else " IN ") ++ tokenize d "(" =
      tokenize d (if negated then " NOT IN (" else " IN (") := by
    cases d <;> cases negated <;> rfl
  rw [← hopen]
  simp [Statement.parenthesized, valued_append, tokenize_close]

/-- A test that is written as one condition is read back, whatever follows it. -/
theorem readTest_valued {t : Test} {s : Statement} (h : test d t = .ok s)
    (hplain : testFormula t = .test t) (rest : List Token) :
    readTest d (s.valued d ++ rest) = some (.test t, rest) := by
  have hcolumn : ∀ {c : Column} {column' tail : Statement}, column d c = .ok column' →
      readTest d ((column' ++ tail).valued d ++ rest) = readBehind d c (tail.valued d ++ rest) := by
    intro c column' tail hcolumn
    rw [valued_append, List.append_assoc, readTest, readColumn_valued hcolumn]
    rfl
  cases t with
  | compare c op value =>
    obtain ⟨column', hcolumn', h⟩ := bind_eq_ok h
    cases h
    rw [hcolumn hcolumn']
    cases d <;> cases op <;> rfl
  | like c pattern negated =>
    obtain ⟨column', hcolumn', h⟩ := bind_eq_ok h
    cases h
    rw [hcolumn hcolumn']
    cases d <;> cases negated <;> rfl
  | member c values negated =>
    by_cases hempty : values.isEmpty = true
    · rw [testFormula, if_pos hempty] at hplain
      cases hplain
    · rw [test, if_neg hempty] at h
      obtain ⟨column', hcolumn', h⟩ := bind_eq_ok h
      cases h
      have hsome : values ≠ [] := by simpa using hempty
      have hvalues := readValues_valued (d := d) hsome rest
      rw [hcolumn hcolumn', member_words, List.append_assoc, List.append_assoc]
      exact readBehind_member hvalues
  | null c negated =>
    obtain ⟨column', hcolumn', h⟩ := bind_eq_ok h
    cases h
    rw [hcolumn hcolumn']
    cases d <;> cases negated <;> rfl
  | empty c negated => cases negated <;> cases hplain
  | between c low high negated =>
    obtain ⟨column', hcolumn', h⟩ := bind_eq_ok h
    cases h
    rw [hcolumn hcolumn']
    cases d <;> cases negated <;> rfl

/-! ## Steps of the readers -/

/-- Tokens that are read as one condition, whatever follows. -/
def ReadsUnit (d : Dialect) (ts : List Token) (f : Formula) : Prop :=
  ∀ steps rest, 3 * ts.length + 1 ≤ steps → readUnit d steps (ts ++ rest) = some (f, rest)

/-- Tokens that are read as conditions between ANDs, where no further AND follows. -/
def ReadsConjunction (d : Dialect) (ts : List Token) (f : Formula) : Prop :=
  ∀ steps rest, 3 * ts.length + 2 ≤ steps → expect d "AND " rest = none →
    readConjunction d steps (ts ++ rest) = some (f, rest)

/-- Whether neither AND nor OR follows. -/
def Ends (d : Dialect) (rest : List Token) : Prop :=
  expect d "AND " rest = none ∧ expect d "OR " rest = none

/-- Tokens that are read as a formula where it ends. -/
def ReadsFormula (d : Dialect) (ts : List Token) (f : Formula) : Prop :=
  ∀ steps rest, 3 * ts.length + 3 ≤ steps → Ends d rest →
    readFormula d steps (ts ++ rest) = some (f, rest)

/-- Tokens that are read as a sub-query where it ends. -/
def ReadsSubquery (d : Dialect) (ts : List Token) (body : Subquery) : Prop :=
  ∀ steps rest, 3 * ts.length ≤ steps → Ends d rest →
    readSubquery d steps (ts ++ rest) = some (body, rest)

theorem ends_nil : Ends d [] := by
  cases d <;> exact ⟨rfl, rfl⟩

theorem ends_close (rest : List Token) : Ends d (tokenize d ")" ++ rest) := by
  cases d <;> exact ⟨rfl, rfl⟩

theorem ReadsUnit.conjunction {ts : List Token} {f : Formula} (h : ReadsUnit d ts f) :
    ReadsConjunction d ts f := by
  intro steps rest hsteps hrest
  obtain ⟨steps, rfl⟩ : ∃ n, steps = n + 1 := ⟨steps - 1, by omega⟩
  rw [readConjunction, h steps rest (by omega)]
  simp [hrest]

theorem ReadsConjunction.formula {ts : List Token} {f : Formula} (h : ReadsConjunction d ts f) :
    ReadsFormula d ts f := by
  intro steps rest hsteps hrest
  obtain ⟨steps, rfl⟩ : ∃ n, steps = n + 1 := ⟨steps - 1, by omega⟩
  rw [readFormula, h steps rest (by omega) hrest.1]
  simp [hrest.2]

/-- Conditions joined by AND: the first is read, and then the others. -/
theorem ReadsUnit.and {ts others : List Token} {f g : Formula} (h : ReadsUnit d ts f)
    (hothers : ReadsConjunction d others g) :
    ReadsConjunction d (ts ++ (tokenize d " AND " ++ others)) (.both f g) := by
  have hand : tokenize d " AND " = tokenize d "AND " := tokenize_blank "AND "
  have hlength : (tokenize d " AND ").length = 1 := by cases d <;> rfl
  intro steps rest hsteps hrest
  simp only [List.length_append, hlength] at hsteps
  obtain ⟨steps, rfl⟩ : ∃ n, steps = n + 1 := ⟨steps - 1, by omega⟩
  rw [List.append_assoc, readConjunction, h steps _ (by omega), hand, List.append_assoc]
  simp only [Option.bind_eq_bind, Option.bind_some, expect_words]
  rw [hothers steps rest (by omega) hrest]
  rfl

/-- Alternatives joined by OR: the first is read, and then the others. -/
theorem ReadsConjunction.or {ts others : List Token} {f g : Formula}
    (h : ReadsConjunction d ts f) (hothers : ReadsFormula d others g) :
    ReadsFormula d (ts ++ (tokenize d " OR " ++ others)) (.either f g) := by
  have hor : tokenize d " OR " = tokenize d "OR " := tokenize_blank "OR "
  have hlength : (tokenize d " OR ").length = 1 := by cases d <;> rfl
  have hnoAnd : ∀ rest, expect d "AND " (tokenize d "OR " ++ rest) = none := by
    intro rest
    cases d <;> rfl
  intro steps rest hsteps hrest
  simp only [List.length_append, hlength] at hsteps
  obtain ⟨steps, rfl⟩ : ∃ n, steps = n + 1 := ⟨steps - 1, by omega⟩
  rw [List.append_assoc, hor, List.append_assoc, readFormula, h steps _ (by omega) (hnoAnd _)]
  simp only [Option.bind_eq_bind, Option.bind_some, expect_words]
  rw [hothers steps rest (by omega) hrest]
  rfl

/-- A formula in parentheses is one condition.  It does not begin with SELECT, since nothing that
does is read as a formula. -/
theorem ReadsFormula.parenthesized {ts : List Token} {f : Formula} (h : ReadsFormula d ts f) :
    ReadsUnit d (tokenize d "(" ++ (ts ++ tokenize d ")")) f := by
  intro steps rest hsteps
  simp only [List.length_append, tokenize_open, tokenize_close, List.length_singleton] at hsteps
  obtain ⟨steps, rfl⟩ : ∃ n, steps = n + 1 := ⟨steps - 1, by omega⟩
  have hinner := h steps (tokenize d ")" ++ rest) (by omega) (ends_close rest)
  have hselect : ∀ tail, readFormula d steps (.word "SELECT" :: tail) = none := by
    intro tail
    rcases steps with _ | _ | _ | steps
    · rfl
    · rfl
    · rfl
    · cases d <;> rfl
  have hcount : expect d "(SELECT COUNT(*) " (tokenize d "(" ++ (ts ++ (tokenize d ")" ++ rest))) =
      none := by
    cases hts : ts ++ (tokenize d ")" ++ rest) with
    | nil => cases d <;> rfl
    | cons t tail =>
      by_cases ht : t = .word "SELECT"
      · rw [hts, ht, hselect tail] at hinner
        cases hinner
      · have hwords : tokenize d "(SELECT COUNT(*) " = .symbol '(' :: .word "SELECT" ::
            tokenize d " COUNT(*) " := by cases d <;> rfl
        rw [expect, hwords, tokenize_open]
        simp [after, ht]
  have hexists : ∀ tail, expect d "EXISTS (SELECT * " (tokenize d "(" ++ tail) = none ∧
      expect d "NOT EXISTS (SELECT * " (tokenize d "(" ++ tail) = none := by
    intro tail
    cases d <;> exact ⟨rfl, rfl⟩
  rw [List.append_assoc, List.append_assoc, readUnit, (hexists _).1, (hexists _).2, hcount,
    expect_words]
  simp only [hinner, Option.bind_eq_bind, Option.bind_some, expect_words]

/-! ## Units -/

/-- A condition that begins with a column is read as a test. -/
theorem readUnit_column {c : Column} {s : Statement} (h : column d c = .ok s) (steps : Nat)
    (rest : List Token) :
    readUnit d (steps + 1) (s.valued d ++ rest) = readTest d (s.valued d ++ rest) := by
  cases c with
  | field qualifier name =>
    cases h
    cases d <;> rfl
  | dateTimeParts qualifier date time =>
    cases d with
    | postgres | mysql | sqlite =>
      cases h
      rfl
    | sqlServer => cases h

theorem constant_reads (value : Bool) :
    ReadsUnit d ((constant value).valued d) (.constant value) := by
  intro steps rest hsteps
  obtain ⟨steps, rfl⟩ : ∃ n, steps = n + 1 := ⟨steps - 1, by omega⟩
  cases d <;> cases value <;> rfl

theorem plainTest_reads {t : Test} {s : Statement} (h : test d t = .ok s)
    (hplain : testFormula t = .test t) : ReadsUnit d (s.valued d) (.test t) := by
  -- what is read begins with the column of the test
  have hread : ∀ (c : Column) {column' tail : Statement}, column d c = .ok column' →
      s = column' ++ tail → ReadsUnit d (s.valued d) (.test t) := by
    intro c column' tail hcolumn hs steps rest hsteps
    obtain ⟨steps, rfl⟩ : ∃ n, steps = n + 1 := ⟨steps - 1, by omega⟩
    have htest := readTest_valued h hplain rest
    rw [hs, valued_append, List.append_assoc] at htest ⊢
    rw [readUnit_column hcolumn, htest]
  cases t with
  | compare c op value =>
    obtain ⟨column', hcolumn, h⟩ := bind_eq_ok h
    cases h
    exact hread c hcolumn rfl
  | like c pattern negated =>
    obtain ⟨column', hcolumn, h⟩ := bind_eq_ok h
    cases h
    exact hread c hcolumn rfl
  | member c values negated =>
    by_cases hempty : values.isEmpty = true
    · rw [testFormula, if_pos hempty] at hplain
      cases hplain
    · have hmember := h
      rw [test, if_neg hempty] at hmember
      obtain ⟨column', hcolumn, hmember⟩ := bind_eq_ok hmember
      cases hmember
      exact hread c hcolumn rfl
  | null c negated =>
    obtain ⟨column', hcolumn, h⟩ := bind_eq_ok h
    cases h
    exact hread c hcolumn rfl
  | empty c negated => cases negated <;> cases hplain
  | between c low high negated =>
    obtain ⟨column', hcolumn, h⟩ := bind_eq_ok h
    cases h
    exact hread c hcolumn rfl

theorem valued_parenthesized (s : Statement) :
    (Statement.parenthesized s).valued d = tokenize d "(" ++ (s.valued d ++ tokenize d ")") := by
  simp [Statement.parenthesized, valued_append]

/-- Every test is read as its formula. -/
theorem test_reads {t : Test} {s : Statement} (h : test d t = .ok s) :
    ReadsUnit d (s.valued d) (testFormula t) := by
  cases t with
  | compare | like | null | between => exact plainTest_reads h rfl
  | member c values negated =>
    by_cases hempty : values.isEmpty = true
    · rw [test, if_pos hempty] at h
      cases h
      rw [testFormula, if_pos hempty]
      exact constant_reads negated
    · have hplain : testFormula (.member c values negated) = .test (.member c values negated) := by
        rw [testFormula, if_neg hempty]
      rw [hplain]
      exact plainTest_reads h hplain
  | empty c negated =>
    obtain ⟨column', hcolumn, h⟩ := bind_eq_ok h
    cases h
    have hnull := plainTest_reads (d := d) (t := .null c negated) (by rw [test, hcolumn]; rfl) rfl
    cases negated with
    | false =>
      have hequal := plainTest_reads (d := d) (t := .compare c .eq (.text ""))
        (by rw [test, hcolumn]; rfl) rfl
      have hwords : tokenize d " IS NULL" ++ tokenize d " OR " = tokenize d " IS NULL OR " := by
        cases d <;> rfl
      have hsign : " " ++ Comparison.eq.sign ++ " " = " = " := rfl
      have hor := (hnull.conjunction.or hequal.conjunction.formula).parenthesized
      rw [valued_parenthesized, testFormula]
      simpa [valued_append, ← hwords, hsign] using hor
    | true =>
      have hdiffers := plainTest_reads (d := d) (t := .compare c .ne (.text ""))
        (by rw [test, hcolumn]; rfl) rfl
      have hwords : tokenize d " IS NOT NULL" ++ tokenize d " AND " =
          tokenize d " IS NOT NULL AND " := by
        cases d <;> rfl
      have hsign : " " ++ Comparison.ne.sign ++ " " = " <> " := rfl
      have hand := (hnull.and hdiffers.conjunction).formula.parenthesized
      rw [valued_parenthesized, testFormula]
      simpa [valued_append, ← hwords, hsign] using hand

/-- The equality of two columns is read as one. -/
theorem equality_reads {first second : Column} {s t : Statement} (hs : column d first = .ok s)
    (ht : column d second = .ok t) :
    ReadsUnit d (Statement.valued d (s ++ .words " = " :: t)) (.equal first second) := by
  intro steps rest hsteps
  obtain ⟨steps, rfl⟩ : ∃ n, steps = n + 1 := ⟨steps - 1, by omega⟩
  have hsecond := readColumn_valued ht rest
  have hcompare : readCompare d first (tokenize d " = " ++ (t.valued d ++ rest)) =
      some (.equal first second, rest) := by
    have hsign : readSign (tokenize d " = " ++ (t.valued d ++ rest)) =
        some (.eq, t.valued d ++ rest) := by cases d <;> rfl
    rw [readCompare, hsign]
    -- a column does not begin with a value
    cases htokens : t.valued d ++ rest with
    | nil =>
      rw [htokens] at hsecond
      simp [hsecond]
    | cons token tail =>
      rw [htokens] at hsecond
      cases token with
      | value v => cases d <;> cases hsecond
      | name | literal | placeholder | word | symbol => simp [hsecond]
  rw [valued_append, List.append_assoc, readUnit_column hs, readTest, readColumn_valued hs]
  simp only [valued_words, Option.bind_eq_bind, Option.bind_some, readBehind, List.append_assoc]
  rw [hcompare]
  rfl

theorem equation_reads (leftQualifier left rightQualifier right : String) :
    ReadsUnit d ((equation leftQualifier left rightQualifier right).valued d)
      (.equal (.field leftQualifier left) (.field rightQualifier right)) :=
  equality_reads rfl rfl

/-! ## Clauses -/

/-- Tokens that are read as an alternative and, if there are more, the others behind OR. -/
def ReadsAlternatives (d : Dialect) (ts : List Token) (parts : Formula × Option Formula) : Prop :=
  ∃ first others, ts = first ++ others ∧ ReadsConjunction d first parts.1 ∧
    match parts.2 with
    | none => others = []
    | some f => ∃ tail, others = tokenize d " OR " ++ tail ∧ ReadsFormula d tail f

theorem ReadsUnit.alternatives {ts : List Token} {f : Formula} (h : ReadsUnit d ts f) :
    ReadsAlternatives d ts (f, none) :=
  ⟨ts, [], by simp, h.conjunction, rfl⟩

theorem ReadsUnit.andAlternatives {ts tail : List Token} {f : Formula}
    {parts : Formula × Option Formula} (h : ReadsUnit d ts f)
    (htail : ReadsAlternatives d tail parts) :
    ReadsAlternatives d (ts ++ (tokenize d " AND " ++ tail)) (.both f parts.1, parts.2) := by
  obtain ⟨first, others, rfl, hfirst, hothers⟩ := htail
  exact ⟨ts ++ (tokenize d " AND " ++ first), others, by simp, h.and hfirst, hothers⟩

theorem ReadsUnit.orAlternatives {ts tail : List Token} {f g : Formula} (h : ReadsUnit d ts f)
    (htail : ReadsFormula d tail g) :
    ReadsAlternatives d (ts ++ (tokenize d " OR " ++ tail)) (f, some g) :=
  ⟨ts, tokenize d " OR " ++ tail, rfl, h.conjunction, tail, rfl, htail⟩

theorem ReadsAlternatives.formula {ts : List Token} {parts : Formula × Option Formula}
    (h : ReadsAlternatives d ts parts) : ReadsFormula d ts (alternativesOf parts) := by
  obtain ⟨first, others, rfl, hfirst, hothers⟩ := h
  obtain ⟨f, rest⟩ := parts
  cases rest with
  | none =>
    rw [show others = [] from hothers, List.append_nil]
    exact hfirst.formula
  | some g =>
    obtain ⟨tail, rfl, htail⟩ := hothers
    exact hfirst.or htail

/-! ## Conditions joined by AND -/

/-- Statements that are each read as one condition. -/
abbrev ReadUnits (d : Dialect) (parts : List Statement) (fs : List Formula) : Prop :=
  List.Forall₂ (fun s f => ReadsUnit d (Statement.valued d s) f) parts fs

theorem joinWith_reads {parts : List Statement} {fs : List Formula} (h : ReadUnits d parts fs)
    (hne : parts ≠ []) :
    ReadsConjunction d ((Statement.joinWith " AND " parts).valued d) (allOf fs) := by
  induction h with
  | nil => exact absurd rfl hne
  | cons hfirst hrest ih =>
    cases hrest with
    | nil => exact hfirst.conjunction
    | cons hnext hrest =>
      have hothers := ih (by simp)
      rw [Statement.joinWith, valued_append, valued_words]
      exact hfirst.and hothers

theorem scopes_read {tests : List Test} {scopes : List Statement}
    (h : tests.mapM (test d) = .ok scopes) : ReadUnits d scopes (tests.map testFormula) :=
  each_reads (fun _ _ => test_reads) h

/-- Conditions of a link are each read as one. -/
theorem link_reads (link : Link) : ReadUnits d (linkConditions link) (linkFormulas link) := by
  unfold linkConditions linkFormulas
  cases link.kind with
  | direct parentColumn relatedColumn => exact .cons (equation_reads _ _ _ _) .nil
  | pivot table parentPivotColumn relatedPivotColumn parentColumn relatedColumn morph =>
    refine .cons (equation_reads _ _ _ _) ?_
    cases morph with
    | none => exact .nil
    | some m => exact .cons (plainTest_reads (t := .compare (.field table m.column) .eq _) rfl rfl) .nil

/-- The statement of clauses, and whether one condition is what it is read as. -/
structure ReadClauses (d : Dialect) (clauses : List Clause) (s : Statement) : Prop where
  formula : clauses ≠ [] → ReadsFormula d (s.valued d) (clausesFormula clauses)
  unit : clauses.length = 1 → ReadsUnit d (s.valued d) (clausesFormula clauses)

/-- Scopes and clauses are each read as one condition, except several clauses that stand alone. -/
theorem withScopes_reads (alone : Bool) {scopes : List Statement} {fs : List Formula}
    {clauses : List Clause} {s : Statement} (hscopes : ReadUnits d scopes fs)
    (hclauses : ReadClauses d clauses s)
    (halone : (alone && scopes.isEmpty) = true → clauses.length ≤ 1) :
    ReadUnits d (withScopes Statement.parenthesized alone scopes clauses.length s)
      (fs ++ if clauses.isEmpty then [] else [clausesFormula clauses]) := by
  unfold withScopes
  by_cases hnone : clauses = []
  · subst hnone
    simpa using hscopes
  · have hcount : clauses.length ≠ 0 := by simpa using hnone
    have hempty : clauses.isEmpty = false := by simpa using hnone
    rw [if_neg hcount, hempty]
    by_cases hone : clauses.length = 1
    · rw [if_pos (by simp [hone])]
      exact List.rel_append hscopes (.cons (hclauses.unit hone) .nil)
    · have hscoped : (alone && scopes.isEmpty) ≠ true := by
        intro hbare
        have := halone hbare
        omega
      rw [if_neg (by simp_all)]
      refine List.rel_append hscopes (.cons ?_ .nil)
      rw [valued_parenthesized]
      exact (hclauses.formula hnone).parenthesized

/-! ## Tables -/

/-- Whether a table and the joins behind it end before some tokens. -/
structure EndsTables (d : Dialect) (rest : List Token) : Prop where
  ends : Ends d rest
  join : joinKind? d rest = none
  noAlias : expect d "AS " rest = none

theorem endsTables_words {d : Dialect} {words : String}
    (h : words ∈ [" WHERE ", " ORDER BY "] ++ pagingLeads) (rest : List Token) :
    EndsTables d (tokenize d words ++ rest) := by
  simp only [pagingLeads, List.cons_append, List.nil_append, List.mem_cons, List.not_mem_nil,
    or_false] at h
  rcases h with rfl | rfl | rfl | rfl | rfl
  all_goals
    cases d <;> exact ⟨⟨rfl, rfl⟩, rfl, rfl⟩

theorem readTable_tableAs (table : String) (tableAlias : Option String) {rest : List Token}
    (h : expect d "AS " rest = none) :
    readTable ((tableAs table tableAlias).valued d ++ rest) =
      some (tableOf table tableAlias, rest) := by
  have halone : readTable (.name table :: rest) = some (⟨table, table⟩, rest) := by
    cases rest with
    | nil => rfl
    | cons t rest =>
      by_cases ht : t = .word "AS"
      · rw [ht] at h
        cases d <;> cases h
      · rw [readTable.eq_2 _ _ fun _ _ heq => ht (List.cons.inj heq).1]
  have has : tokenize d " AS " = [.word "AS"] := by cases d <;> rfl
  unfold tableAs tableOf
  cases tableAlias with
  | none => exact halone
  | some tableAlias =>
    simp only
    by_cases hsame : tableAlias = table
    · rw [if_pos hsame, hsame]
      exact halone
    · rw [if_neg hsame]
      simp [has, readTable]

/-- Tokens that are read as joined tables where no further one follows. -/
def ReadsJoins (d : Dialect) (ts : List Token) (joins : List JoinedTable) : Prop :=
  ∀ steps rest, 3 * ts.length + 1 ≤ steps → EndsTables d rest →
    readJoins d steps (ts ++ rest) = some (joins, rest) ∧ Ends d (ts ++ rest) ∧
      expect d "AS " (ts ++ rest) = none

theorem readsJoins_nil : ReadsJoins d [] [] := by
  intro steps rest hsteps hrest
  obtain ⟨steps, rfl⟩ : ∃ n, steps = n + 1 := ⟨steps - 1, by omega⟩
  refine ⟨?_, hrest.ends, hrest.noAlias⟩
  rw [List.nil_append, readJoins, hrest.join]

theorem ReadsFormula.join {on : List Token} {f : Formula} (h : ReadsFormula d on f)
    (kind : JoinKind) (table : String) (tableAlias : Option String) {others : List Token}
    {joins : List JoinedTable} (hothers : ReadsJoins d others joins) :
    ReadsJoins d (tokenize d (" " ++ kind.keyword ++ " ") ++
        ((tableAs table tableAlias).valued d ++ (tokenize d " ON " ++ (on ++ others))))
      (⟨kind, tableOf table tableAlias, f⟩ :: joins) := by
  have hkind : ∀ rest, joinKind? d (tokenize d (" " ++ kind.keyword ++ " ") ++ rest) =
      some (kind, rest) := by
    intro rest
    cases d <;> cases kind <;> rfl
  have hends : ∀ rest, Ends d (tokenize d (" " ++ kind.keyword ++ " ") ++ rest) ∧
      expect d "AS " (tokenize d (" " ++ kind.keyword ++ " ") ++ rest) = none := by
    intro rest
    cases d <;> cases kind <;> exact ⟨⟨rfl, rfl⟩, rfl⟩
  have hon : ∀ rest, expect d "AS " (tokenize d " ON " ++ rest) = none := by
    intro rest
    cases d <;> rfl
  have honWords : tokenize d " ON " = tokenize d "ON " := tokenize_blank "ON "
  have hlength : (tokenize d " ON ").length = 1 := by cases d <;> rfl
  intro steps rest hsteps hrest
  simp only [List.length_append, hlength] at hsteps
  obtain ⟨steps, rfl⟩ : ∃ n, steps = n + 1 := ⟨steps - 1, by omega⟩
  obtain ⟨hread, hothersEnd, _⟩ := hothers steps rest (by omega) hrest
  refine ⟨?_, ?_, ?_⟩
  · rw [readJoins]
    simp only [List.append_assoc, hkind, readTable_tableAs table tableAlias (hon _)]
    simp only [Option.bind_eq_bind, Option.bind_some, honWords, expect_words]
    rw [h steps (others ++ rest) (by omega) hothersEnd]
    simp only [Option.bind_some, hread]
  · rw [List.append_assoc]
    exact (hends _).1
  · rw [List.append_assoc]
    exact (hends _).2

/-- The tables of related rows are read with their pivot. -/
theorem relatedTables_read (link : Link) (tableAlias : Option String) :
    ∃ joins, (relatedTables link tableAlias).valued d =
        (tableAs link.relatedTable tableAlias).valued d ++ joins ∧
      ReadsJoins d joins (linkJoins link) := by
  unfold relatedTables linkJoins
  cases link.kind with
  | direct parentColumn relatedColumn => exact ⟨[], by simp, readsJoins_nil⟩
  | pivot table parentPivotColumn relatedPivotColumn parentColumn relatedColumn morph =>
    have hon := (equation_reads (d := d) link.related relatedColumn table relatedPivotColumn)
    have hjoin := hon.conjunction.formula.join .inner table none readsJoins_nil
    refine ⟨_, ?_, hjoin⟩
    have hwords : " " ++ JoinKind.inner.keyword ++ " " = " INNER JOIN " := rfl
    simp [valued_append, tableAs, hwords]

/-- Tables, joins and condition of a sub-query are read one after another. -/
theorem ReadsFormula.subquery {condition joined : List Token} {f : Formula}
    (h : ReadsFormula d condition f) (table : String) (tableAlias : Option String)
    {joins : List JoinedTable} (hjoins : ReadsJoins d joined joins) :
    ReadsSubquery d (tokenize d "FROM " ++ ((tableAs table tableAlias).valued d ++
        (joined ++ (tokenize d " WHERE " ++ condition))))
      ⟨tableOf table tableAlias, joins, f⟩ := by
  have hwhere : tokenize d " WHERE " = tokenize d "WHERE " := tokenize_blank "WHERE "
  have hlength : (tokenize d "FROM ").length = 1 ∧ (tokenize d " WHERE ").length = 1 := by
    cases d <;> exact ⟨rfl, rfl⟩
  intro steps rest hsteps hrest
  simp only [List.length_append, hlength] at hsteps
  obtain ⟨steps, rfl⟩ : ∃ n, steps = n + 1 := ⟨steps - 1, by omega⟩
  obtain ⟨hread, _, hnoAlias⟩ := hjoins steps (tokenize d " WHERE " ++ (condition ++ rest))
    (by omega) (endsTables_words (by simp) _)
  rw [readSubquery]
  simp only [List.append_assoc, expect_words, readTable_tableAs table tableAlias hnoAlias, hread,
    Option.bind_eq_bind, Option.bind_some]
  rw [hwhere, expect_words, Option.bind_some, h steps rest (by omega) hrest]
  rfl

/-! ## Predicates -/

/-- A question whether rows are related is one condition. -/
theorem ReadsSubquery.exists_ {ts : List Token} {body : Subquery} (h : ReadsSubquery d ts body)
    (negated : Bool) :
    ReadsUnit d (tokenize d (if negated then "NOT EXISTS (SELECT * " else "EXISTS (SELECT * ") ++
      (ts ++ tokenize d ")")) (.exists_ body negated) := by
  have hlength : 0 < (tokenize d
      (if negated then "NOT EXISTS (SELECT * " else "EXISTS (SELECT * ")).length := by
    cases d <;> cases negated <;> decide
  intro steps rest hsteps
  simp only [List.length_append] at hsteps
  obtain ⟨steps, rfl⟩ : ∃ n, steps = n + 1 := ⟨steps - 1, by omega⟩
  have hbody := h steps (tokenize d ")" ++ rest) (by omega) (ends_close rest)
  rw [List.append_assoc, List.append_assoc, readUnit]
  cases negated with
  | false =>
    simp only [Bool.false_eq_true, if_false, expect_words, hbody, Option.bind_eq_bind,
      Option.bind_some]
  | true =>
    have hother : ∀ tail, expect d "EXISTS (SELECT * " (tokenize d "NOT EXISTS (SELECT * " ++ tail) =
        none := by
      intro tail
      cases d <;> rfl
    simp only [if_true, hother, expect_words, hbody, Option.bind_eq_bind, Option.bind_some]

/-- So is a comparison of the number of related rows. -/
theorem ReadsSubquery.counted {ts : List Token} {body : Subquery} (h : ReadsSubquery d ts body)
    (op : Comparison) (bound : Int) :
    ReadsUnit d (tokenize d "(SELECT COUNT(*) " ++
      (ts ++ (tokenize d (") " ++ op.sign ++ " ") ++ [.value (.integer bound)])))
      (.counted body op bound) := by
  have hlength : 0 < (tokenize d "(SELECT COUNT(*) ").length := by cases d <;> decide
  have hclose : tokenize d (") " ++ op.sign ++ " ") =
      tokenize d ")" ++ tokenize d (" " ++ op.sign ++ " ") := by
    cases d <;> cases op <;> rfl
  have hothers : ∀ tail, expect d "EXISTS (SELECT * " (tokenize d "(SELECT COUNT(*) " ++ tail) =
      none ∧ expect d "NOT EXISTS (SELECT * " (tokenize d "(SELECT COUNT(*) " ++ tail) = none := by
    intro tail
    cases d <;> exact ⟨rfl, rfl⟩
  have hsign : ∀ rest, readSign (tokenize d (" " ++ op.sign ++ " ") ++
      .value (.integer bound) :: rest) = some (op, .value (.integer bound) :: rest) := by
    intro rest
    cases d <;> cases op <;> rfl
  intro steps rest hsteps
  simp only [List.length_append] at hsteps
  obtain ⟨steps, rfl⟩ : ∃ n, steps = n + 1 := ⟨steps - 1, by omega⟩
  have hbody := h steps (tokenize d ")" ++ (tokenize d (" " ++ op.sign ++ " ") ++
    .value (.integer bound) :: rest)) (by omega) (ends_close _)
  simp only [List.append_assoc, hclose, List.cons_append, List.nil_append]
  rw [readUnit, (hothers _).1, (hothers _).2, expect_words]
  simp only [hbody, Option.bind_eq_bind, Option.bind_some, expect_words, hsign]

/-- Link, scopes and clauses are read as the sub-query of a question about related rows. -/
theorem relatedBody_reads (link : Link) (q : Query) {scopes : List Statement} {s : Statement}
    (hscopes : ReadUnits d scopes (q.scopeTests.map testFormula))
    (hclauses : ReadClauses d q.clauses s) :
    ReadsSubquery d ((relatedBody link q scopes s).valued d) (subqueryOf link q) := by
  have hconditions : ReadUnits d
      (linkConditions link ++ withScopes Statement.parenthesized false scopes q.clauses.length s)
      (linkFormulas link ++ (q.scopeTests.map testFormula ++
        if q.clauses.isEmpty then [] else [clausesFormula q.clauses])) :=
    List.rel_append (link_reads link) (withScopes_reads false hscopes hclauses (by simp))
  have hne : linkConditions link ++ withScopes Statement.parenthesized false scopes q.clauses.length s ≠ [] := by
    unfold linkConditions
    cases link.kind <;> simp
  have hcondition := (joinWith_reads hconditions hne).formula
  obtain ⟨joins, htables, hjoins⟩ := relatedTables_read (d := d) link q.tableAlias
  have hsubquery := hcondition.subquery link.relatedTable q.tableAlias hjoins
  rw [subqueryOf_eq]
  simp only [relatedBody, List.cons_append, valued_words, valued_append, htables, List.append_assoc]
  exact hsubquery

mutual

/-- A predicate is read as one condition: induction over predicates, clauses and sub-queries. -/
theorem predicate_reads : (p : Predicate) → {s : Statement} → predicate d p = .ok s →
    ReadsUnit d (s.valued d) (predicateFormula p)
  | .test t, s, h => by
    rw [predicateFormula]
    exact test_reads h
  | .nested [], s, h => by
    cases h
    exact constant_reads true
  | .nested (clause :: rest), s, h => by
    obtain ⟨clauses, hclauses, h⟩ := bind_eq_ok h
    cases h
    rw [predicateFormula, valued_parenthesized]
    exact ((clauses_read (clause :: rest) hclauses).formula (by simp)).parenthesized
  | .related link query negated, s, h => by
    obtain ⟨body, hbody, h⟩ := bind_eq_ok h
    cases h
    have hexists := (related_reads link query hbody).exists_ negated
    rw [predicateFormula]
    simpa [valued_append] using hexists
  | .counted link query op bound, s, h => by
    obtain ⟨body, hbody, h⟩ := bind_eq_ok h
    cases h
    have hcounted := (related_reads link query hbody).counted op bound
    rw [predicateFormula]
    simpa [valued_append] using hcounted
  | .const value, s, h => by
    cases h
    exact constant_reads value

/-- Clauses are read as alternatives of what is joined by AND. -/
theorem clauses_read : (clauses : List Clause) → {s : Statement} →
    clauseList d true clauses = .ok s → ReadClauses d clauses s
  | [], s, h => ⟨fun hne => absurd rfl hne, fun hone => by cases hone⟩
  | ⟨connective, p⟩ :: rest, s, h => by
    obtain ⟨first, hfirst, h⟩ := bind_eq_ok h
    obtain ⟨others, hothers, h⟩ := bind_eq_ok h
    cases h
    have hunit := predicate_reads p hfirst
    refine ⟨fun _ => ?_, fun hone => ?_⟩
    · rw [clausesFormula]
      simpa [valued_append] using (clausesAfter_read rest hunit hothers).formula
    · obtain rfl : rest = [] := by simpa using hone
      cases hothers
      simpa [valued_append, clausesFormula, clauseParts, alternativesOf] using hunit

/-- Clauses behind a condition: AND goes on with its alternative, OR begins the next. -/
theorem clausesAfter_read : (clauses : List Clause) → {first : List Token} → {f : Formula} →
    ReadsUnit d first f → {s : Statement} → clauseList d false clauses = .ok s →
    ReadsAlternatives d (first ++ s.valued d) (clauseParts f clauses)
  | [], first, f, hfirst, s, h => by
    cases h
    simpa [clauseParts] using hfirst.alternatives
  | ⟨connective, p⟩ :: rest, first, f, hfirst, s, h => by
    obtain ⟨next, hnext, h⟩ := bind_eq_ok h
    obtain ⟨others, hothers, h⟩ := bind_eq_ok h
    cases h
    have halternatives := clausesAfter_read rest (predicate_reads p hnext) hothers
    cases connective with
    | and =>
      have hwords : " " ++ Connective.and.keyword ++ " " = " AND " := rfl
      have hand := hfirst.andAlternatives halternatives
      simpa [clauseParts, valued_append, hwords] using hand
    | or =>
      have hwords : " " ++ Connective.or.keyword ++ " " = " OR " := rfl
      have hor := hfirst.orAlternatives halternatives.formula
      simpa [clauseParts, valued_append, hwords] using hor

/-- A question about related rows is read as its sub-query. -/
theorem related_reads (link : Link) : (q : Query) → {s : Statement} → related d link q = .ok s →
    ReadsSubquery d (s.valued d) (subqueryOf link q)
  | ⟨entity, tableAlias, depth, clauses, joins, orders, selects, eager, aggregates, limit, offset,
      removed⟩, s, h => by
    obtain ⟨scopes, hscopes, h⟩ := bind_eq_ok h
    obtain ⟨own, hown, h⟩ := bind_eq_ok h
    cases h
    exact relatedBody_reads link _ (scopes_read hscopes) (clauses_read clauses hown)

end

/-! ## Conditions -/

/-- The conditions of a query are read as its formula, when there are any. -/
theorem conditions_read {q : Query} {parts : List Statement} (h : conditions d q = .ok parts) :
    (parts = [] → formulaOf q = .constant true) ∧
    (parts ≠ [] → ReadsFormula d ((Statement.joinWith " AND " parts).valued d) (formulaOf q)) := by
  obtain ⟨scopes, hscopes, h⟩ := bind_eq_ok h
  obtain ⟨own, hown, h⟩ := bind_eq_ok h
  cases h
  have hscopes := scopes_read hscopes
  have hclauses := clauses_read q.clauses hown
  by_cases hbare : (true && scopes.isEmpty) = true ∧ ¬ q.clauses.length ≤ 1
  · -- several clauses alone have no parentheses around them
    obtain ⟨hscopeless, hseveral⟩ := hbare
    have hnil : scopes = [] := by simpa using hscopeless
    subst hnil
    have htests := List.forall₂_nil_left_iff.mp hscopes
    have hne : q.clauses ≠ [] := by
      intro hnone
      simp [hnone] at hseveral
    have hparts : withScopes Statement.parenthesized true [] q.clauses.length own = [own] := by
      simp [withScopes, hne]
    have hformula : formulaOf q = clausesFormula q.clauses := by
      simp [formulaOf, htests, hne, allOf]
    rw [hparts, hformula]
    exact ⟨by simp, fun _ => hclauses.formula hne⟩
  · have hunits := withScopes_reads true hscopes hclauses
      fun hscopeless => by_contra fun hseveral => hbare ⟨hscopeless, hseveral⟩
    refine ⟨fun hnone => ?_, fun hne => (joinWith_reads hunits hne).formula⟩
    rw [hnone] at hunits
    have hformulas := List.forall₂_nil_left_iff.mp hunits
    rw [formulaOf, hformulas]
    rfl

theorem ReadsFormula.ne_nil {ts : List Token} {f : Formula} (h : ReadsFormula d ts f) :
    ts ≠ [] := by
  rintro rfl
  have hnone := h 3 [] (by simp) ends_nil
  revert hnone
  cases d <;> exact fun hnone => by cases hnone

end

end Winnow.Sql
