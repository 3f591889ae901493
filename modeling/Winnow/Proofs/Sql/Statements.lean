import Winnow.Proofs.Sql.Reading
import Winnow.Proofs.Sql.Writing

/-!
# Reading whole statements

Outputs, tables, condition and sort keys of a rendered statement are read one
after another, so what is read from the text and the bindings of a query is the
query's own reading:

    renderSelect d q = .ok r → readSelect d r = some (selectOf d q)
    renderCondition d q = .ok r → readCondition d r = some (formulaOf q)
-/

namespace Winnow.Sql

open Winnow.Text

section
variable {d : Dialect}

/-! ## Lists -/

/-- Tokens that are read as one listed item, whatever follows. -/
def ReadsItem {α : Type} (item : Nat → List Token → Option (α × List Token)) (ts : List Token)
    (a : α) : Prop :=
  ∀ steps rest, 3 * ts.length ≤ steps → item steps (ts ++ rest) = some (a, rest)

theorem readListed_valued {α : Type} {item : Nat → List Token → Option (α × List Token)}
    {parts : List Statement} {items : List α}
    (h : List.Forall₂ (fun s a => ReadsItem item (Statement.valued d s) a) parts items)
    (hne : parts ≠ []) (steps : Nat)
    (hsteps : 3 * ((Statement.joinWith ", " parts).valued d).length + 1 ≤ steps) {rest : List Token}
    (hrest : expect d ", " rest = none) :
    readListed d item steps ((Statement.joinWith ", " parts).valued d ++ rest) =
      some (items, rest) := by
  induction h generalizing steps with
  | nil => exact absurd rfl hne
  | cons hfirst hothers ih =>
    obtain ⟨steps, rfl⟩ : ∃ n, steps = n + 1 := ⟨steps - 1, by omega⟩
    cases hothers with
    | nil =>
      rw [Statement.joinWith] at hsteps ⊢
      rw [readListed, hfirst steps rest (by omega)]
      simp [hrest]
    | cons hnext hothers =>
      have hlength : (tokenize d ", ").length = 1 := by cases d <;> rfl
      rw [Statement.joinWith, valued_append, valued_words] at hsteps ⊢
      simp only [List.length_append, hlength] at hsteps
      rw [List.append_assoc, List.append_assoc, readListed, hfirst steps _ (by omega)]
      simp only [Option.bind_eq_bind, Option.bind_some, expect_words]
      rw [ih (by simp) steps (by omega)]
      rfl

/-! ## Outputs -/

theorem all_reads (qualifier : String) :
    ReadsItem (readOutput d) (Statement.valued d [.name qualifier, .words ".*"])
      (.all qualifier) := by
  intro steps rest hsteps
  cases d <;> rfl

theorem columnOutput_reads {c : Column} {s : Statement} (h : column d c = .ok s) :
    ReadsItem (readOutput d) (s.valued d) (.column c) := by
  intro steps rest hsteps
  have hcolumn := readColumn_valued h rest
  have hread : readOutput d steps (s.valued d ++ rest) =
      (readColumn d (s.valued d ++ rest)).map fun read => (.column read.1, read.2) := by
    cases c with
    | field qualifier name =>
      cases h
      cases d <;> rfl
    | dateTimeParts qualifier date time =>
      cases d with
      | postgres | mysql | sqlite =>
        cases h
        rfl
      | sqlServer => cases h
  rw [hread, hcolumn]
  rfl

theorem readOutputName_valued (name : String) (rest : List Token) :
    readOutputName d (tokenize d " AS " ++ .name name :: rest) = some (name, rest) := by
  cases d <;> rfl

/-- The function of an aggregate over a column is read behind the parenthesis. -/
theorem columnFunction_words {function : AggregateFunction}
    (h : function ≠ .count ∧ function ≠ .exists_) (rest : List Token) :
    expect d "(SELECT " (tokenize d ("(SELECT " ++ function.keyword ++ "(") ++ rest) =
        some (.word function.keyword :: (tokenize d "(" ++ rest)) ∧
      aggregateFunction? (.word function.keyword :: (tokenize d "(" ++ rest)) =
        some (function, tokenize d "(" ++ rest) ∧
      expect d "CASE WHEN EXISTS (SELECT * "
        (tokenize d ("(SELECT " ++ function.keyword ++ "(") ++ rest) = none ∧
      expect d "(SELECT COUNT(*) "
        (tokenize d ("(SELECT " ++ function.keyword ++ "(") ++ rest) = none := by
  cases function with
  | count => exact absurd rfl h.1
  | exists_ => exact absurd rfl h.2
  | sum | min | max | avg => cases d <;> exact ⟨rfl, rfl, rfl, rfl⟩

theorem columnAggregate_reads {function : AggregateFunction}
    (h : function ≠ .count ∧ function ≠ .exists_) (qualifier column name : String)
    {body : Statement} {subquery : Subquery} (hbody : ReadsSubquery d (body.valued d) subquery) :
    ReadsItem (readOutput d)
      (Statement.valued d (.words ("(SELECT " ++ function.keyword ++ "(") ::
        qualified qualifier column ++ .words ") " :: body ++ [.words ")"] ++
          [.words " AS ", .name name]))
      (.aggregate function (some (.field qualifier column)) subquery name) := by
  intro steps rest hsteps
  have hfunction := columnFunction_words (d := d) h
  have hcolumn := readColumn_valued (d := d) (c := .field qualifier column) rfl
  simp only [List.cons_append, valued_words, valued_append, valued_name, valued_nil,
    List.append_assoc, List.nil_append, List.length_append] at hsteps ⊢
  have hsubquery := fun tail => hbody steps (tokenize d ")" ++ tail) (by omega) (ends_close _)
  unfold readOutput
  simp only [(hfunction _).2.2.1, (hfunction _).2.2.2, (hfunction _).1, (hfunction _).2.1,
    Option.bind_eq_bind, Option.bind_some, expect_words, hcolumn, hsubquery, readOutputName_valued]

/-- An aggregate is read with its function, its column, and its sub-query. -/
theorem aggregate_reads {a : Aggregate} {s : Statement} (h : aggregate d a = .ok s) :
    ReadsItem (readOutput d) (s.valued d) (outputOf a) := by
  obtain ⟨expression, hexpression, h⟩ := bind_eq_ok h
  obtain ⟨body, hbody, hexpression⟩ := bind_eq_ok hexpression
  cases h
  have hsubquery := related_reads a.link a.query hbody
  unfold outputOf
  cases hfunction : a.function with
  | exists_ =>
    rw [hfunction] at hexpression
    cases hexpression
    intro steps rest hsteps
    simp only [List.cons_append, valued_words, valued_append, valued_name, valued_nil,
      List.append_assoc, List.nil_append, List.length_append] at hsteps ⊢
    have hbodyRead := fun tail => hsubquery steps (tokenize d ") THEN 1 ELSE 0 END" ++ tail)
      (by omega) (by cases d <;> exact ⟨rfl, rfl⟩)
    unfold readOutput
    simp only [expect_words, hbodyRead, Option.bind_eq_bind, Option.bind_some,
      readOutputName_valued]
  | count =>
    rw [hfunction] at hexpression
    cases hexpression
    intro steps rest hsteps
    have hcase : ∀ tail, expect d "CASE WHEN EXISTS (SELECT * "
        (tokenize d "(SELECT COUNT(*) " ++ tail) = none := by
      intro tail
      cases d <;> rfl
    simp only [List.cons_append, valued_words, valued_append, valued_name, valued_nil,
      List.append_assoc, List.nil_append, List.length_append] at hsteps ⊢
    have hbodyRead := fun tail => hsubquery steps (tokenize d ")" ++ tail) (by omega) (ends_close _)
    unfold readOutput
    simp only [hcase, expect_words, hbodyRead, Option.bind_eq_bind, Option.bind_some,
      readOutputName_valued]
  | sum | min | max | avg =>
    rw [hfunction] at hexpression
    cases hexpression
    exact columnAggregate_reads (by decide) a.query.qualifier (a.column.getD "id") a.outputName
      hsubquery

theorem projection_reads {q : Query} {columns : List Statement}
    (h : projection d q = .ok columns) :
    List.Forall₂ (fun s o => ReadsItem (readOutput d) (Statement.valued d s) o) columns
        (if q.selects.isEmpty then [.all q.qualifier] else q.selects.map .column) ∧
      columns ≠ [] := by
  unfold projection at h
  by_cases hempty : q.selects.isEmpty = true
  · rw [if_pos hempty] at h ⊢
    cases h
    exact ⟨.cons (all_reads _) .nil, by simp⟩
  · rw [if_neg hempty] at h ⊢
    have hcolumns := each_reads (g := Output.column) (R := ReadsItem (readOutput d))
      (fun _ _ => columnOutput_reads) h
    refine ⟨hcolumns, ?_⟩
    rintro rfl
    have hnone := List.forall₂_nil_left_iff.mp hcolumns
    simp_all

/-! ## Joins -/

theorem join_reads {j : Join} {s : Statement} (h : join d j = .ok s) {others : List Token}
    {joins : List JoinedTable} (hothers : ReadsJoins d others joins) :
    ReadsJoins d (s.valued d ++ others) (joinOf j :: joins) := by
  obtain ⟨first, hfirst, h⟩ := bind_eq_ok h
  obtain ⟨second, hsecond, h⟩ := bind_eq_ok h
  obtain ⟨conditions, hconditions, h⟩ := bind_eq_ok h
  cases h
  have hunits : ReadUnits d ((first ++ .words " = " :: second) :: conditions)
      (.equal j.first j.second :: j.conditions.map predicateFormula) :=
    .cons (equality_reads hfirst hsecond)
      (each_reads (R := ReadsUnit d) (fun p _ => predicate_reads p) hconditions)
  have hon := (joinWith_reads hunits (by simp)).formula
  have hjoin := hon.join j.kind j.table (some j.tableAlias) hothers
  simpa [valued_append, joinOf, tableOf] using hjoin

theorem joins_read {l : List Join} {joins : List Statement} (h : l.mapM (join d) = .ok joins) :
    ReadsJoins d (Statement.valued d joins.flatten) (l.map joinOf) := by
  have hall := mapM_eq_ok h
  clear h
  induction hall with
  | nil => exact readsJoins_nil
  | cons hfirst _ ih =>
    rw [List.flatten_cons, valued_append]
    exact join_reads hfirst ih

/-! ## Sort keys -/

theorem order_reads {o : Order} {s : Statement} (h : order d o = .ok s) :
    ReadsItem (fun _ => readOrder d) (s.valued d) o := by
  intro steps rest _
  obtain ⟨target, direction⟩ := o
  have hdirection : readDirection (tokenize d (" " ++ direction.keyword) ++ rest) =
      some (direction, rest) := by
    cases d <;> cases direction <;> rfl
  cases target with
  | column c =>
    obtain ⟨target', htarget, h⟩ := bind_eq_ok h
    cases h
    have hcolumn := readColumn_valued htarget (tokenize d (" " ++ direction.keyword) ++ rest)
    simp only [valued_append, valued_words, valued_nil, List.append_nil, List.append_assoc]
    unfold readOrder
    simp only [hcolumn, hdirection, Option.map_some]
  | output name =>
    cases h
    have hnone : readColumn d (.name name :: (tokenize d (" " ++ direction.keyword) ++ rest)) =
        none := by
      cases d <;> cases direction <;> rfl
    simp only [valued_words, valued_name, valued_nil, List.append_nil, List.cons_append,
      List.nil_append]
    unfold readOrder
    simp only [hnone, hdirection, Option.map_some]

/-! ## Limit and offset -/

/-- Words that end between tokens are read before those behind them. -/
theorem tokenize_append {before : String} (h : (Scan.between.run d before.toList).2 = .between)
    (behind : String) : tokenize d (before ++ behind) = tokenize d before ++ tokenize d behind := by
  simp only [tokenize, String.toList_append, Scan.run_append, h]
  simp [Scan.tokens]

theorem run_word (chars cs : List Char) (h : ∀ c ∈ cs, isWordChar c = true) :
    (Scan.word chars).run d cs = ([], .word (cs.reverse ++ chars)) := by
  induction cs generalizing chars with
  | nil => rfl
  | cons c cs ih =>
    have hc : (Scan.word chars).step d c = ([], .word (c :: chars)) := by
      simp [Scan.step, h c List.mem_cons_self]
    rw [Scan.run, hc, ih _ fun c' hc' => h c' (List.mem_cons_of_mem c hc')]
    simp

/-- A number is read as one word. -/
theorem tokenize_number (n : Nat) :
    tokenize .sqlServer (natText n ++ " ") = [.word (natText n)] := by
  have hdigits : ∀ c ∈ Nat.toDigits 10 n, c.isDigit = true :=
    fun c hc => Nat.isDigit_of_mem_toDigits (by decide) (by decide) hc
  have hwords : ∀ c ∈ Nat.toDigits 10 n, isWordChar c = true := by
    intro c hc
    simp [isWordChar, Char.isAlphanum, hdigits c hc]
  unfold tokenize natText
  rw [String.toList_append, String.toList_ofList]
  cases hchars : Nat.toDigits 10 n with
  | nil => exact absurd hchars Nat.toDigits_ne_nil
  | cons c cs =>
    rw [hchars] at hdigits hwords
    have hc := hdigits c List.mem_cons_self
    have hstart : Scan.between.step .sqlServer c = ([], .word [c]) := by
      have hother : ∀ other : Char, other.isDigit = false → c ≠ other := by
        rintro other hother rfl
        rw [hc] at hother
        cases hother
      simp [Scan.step, Scan.start, Dialect.opening, hother '[' (by decide), hother '\'' (by decide),
        hother '?' (by decide), hwords c List.mem_cons_self]
    have hend : ∀ chars : List Char, (Scan.word chars).run .sqlServer [' '] =
        ([.word (String.ofList chars.reverse)], .between) := fun _ => rfl
    rw [List.cons_append, Scan.run, hstart]
    simp only
    rw [Scan.run_append,
      run_word [c] cs fun c' hc' => hwords c' (List.mem_cons_of_mem c hc')]
    simp only [show " ".toList = [' '] from rfl, hend]
    simp [Scan.tokens]

/-- What is read of a limit in front of the outputs. -/
def topTokens : Option String → List Token
  | some limit => [.word "TOP", .word limit]
  | none => []

theorem selectTop_tokens (q : Query) :
    tokenize d ("SELECT " ++ top d q) = tokenize d "SELECT " ++ topTokens (topOf d q) := by
  unfold top topOf
  cases d with
  | postgres | mysql | sqlite => simp [topTokens]
  | sqlServer =>
    rcases q.limit with _ | limit
    · simp [topTokens]
    rcases q.offset with _ | offset
    · have hselect : "SELECT " ++ ("TOP " ++ natText limit ++ " ") =
          "SELECT TOP " ++ (natText limit ++ " ") := by
        simp only [← String.append_assoc]
        rfl
      show tokenize .sqlServer ("SELECT " ++ ("TOP " ++ natText limit ++ " ")) = _
      rw [hselect, tokenize_append rfl, tokenize_number]
      rfl
    · simp [topTokens]

/-- Nothing that is listed as outputs begins with a limit. -/
theorem readTop_tokens {steps : Nat} {ts : List Token} {outputs : List Output × List Token}
    (h : readListed d (readOutput d) steps ts = some outputs) (limit : Option String) :
    readTop (topTokens limit ++ ts) = (limit, ts) := by
  cases limit with
  | some limit => rfl
  | none =>
    cases ts with
    | nil => rfl
    | cons t rest =>
      by_cases ht : t = .word "TOP"
      · -- no output begins with the word
        have hnone : readListed d (readOutput d) steps (.word "TOP" :: rest) = none := by
          cases steps with
          | zero => rfl
          | succ steps => cases d <;> rfl
        rw [ht, hnone] at h
        cases h
      · exact readTop.eq_2 _ fun limit ts heq => ht (List.cons.inj heq).1

/-- The tokens for limit and offset are none, or begin with one of their leads. -/
theorem paging_tokens (q : Query) :
    tokenize d (paging d q) = [] ∨
      ∃ lead ∈ pagingLeads, ∃ rest, tokenize d (paging d q) = tokenize d lead ++ rest := by
  rcases paging_cases (d := d) q with hpaging | ⟨lead, hlead, rest, hpaging, _⟩
  · rw [hpaging]
    exact .inl rfl
  · have hend : (Scan.between.run d lead.toList).2 = .between := by
      simp only [pagingLeads, List.mem_cons, List.not_mem_nil, or_false] at hlead
      rcases hlead with rfl | rfl | rfl <;> cases d <;> rfl
    exact .inr ⟨lead, hlead, tokenize d rest, by rw [hpaging, tokenize_append hend]⟩

/-! ## Behind the tables -/

/-- Whether a condition cannot go on before some tokens, nor a list. -/
structure EndsStatement (d : Dialect) (rest : List Token) : Prop extends EndsTables d rest where
  noWhere : expect d "WHERE " rest = none
  noComma : expect d ", " rest = none

theorem endsStatement_words {words : String} (h : words ∈ " ORDER BY " :: pagingLeads)
    (rest : List Token) : EndsStatement d (tokenize d words ++ rest) := by
  refine ⟨endsTables_words (List.mem_cons_of_mem _ h) rest, ?_, ?_⟩
  all_goals
    simp only [pagingLeads, List.mem_cons, List.not_mem_nil, or_false] at h
    rcases h with rfl | rfl | rfl | rfl <;> cases d <;> rfl

theorem paging_ends (q : Query) : EndsStatement d (tokenize d (paging d q)) := by
  rcases paging_tokens (d := d) q with hnone | ⟨lead, hlead, rest, htokens⟩
  · rw [hnone]
    cases d <;> exact ⟨⟨⟨rfl, rfl⟩, rfl, rfl⟩, rfl, rfl⟩
  · rw [htokens]
    exact endsStatement_words (List.mem_cons_of_mem _ hlead) rest

theorem valued_withLead (lead separator : String) (parts : List Statement) :
    (withLead lead separator parts).valued d =
      if parts.isEmpty then [] else
        tokenize d lead ++ (Statement.joinWith separator parts).valued d := by
  unfold withLead
  split <;> rfl

/-- Without sort keys only those of paging may follow, which are none of the query. -/
theorem readOrderBy_paging (q : Query) (steps : Nat) :
    readOrderBy d steps (tokenize d (paging d q)) = some ([], tokenize d (paging d q)) := by
  rcases paging_tokens (d := d) q with hnone | ⟨lead, hlead, rest, htokens⟩
  · rw [hnone]
    cases d <;> rfl
  · rw [htokens]
    simp only [pagingLeads, List.mem_cons, List.not_mem_nil, or_false] at hlead
    rcases hlead with rfl | rfl | rfl <;> cases d <;> rfl

theorem orderBy_reads {q : Query} {orders : List Statement} (h : q.orders.mapM (order d) = .ok orders)
    (steps : Nat)
    (hsteps : 3 * ((withLead " ORDER BY " ", " orders).valued d).length + 1 ≤ steps) :
    readOrderBy d steps ((withLead " ORDER BY " ", " orders).valued d ++ tokenize d (paging d q)) =
        some (q.orders, tokenize d (paging d q)) ∧
      EndsStatement d
        ((withLead " ORDER BY " ", " orders).valued d ++ tokenize d (paging d q)) := by
  have hitems := each_reads (g := id) (R := ReadsItem fun _ => readOrder d)
    (fun _ _ => order_reads) h
  rw [List.map_id] at hitems
  rw [valued_withLead] at hsteps ⊢
  by_cases hempty : orders.isEmpty = true
  · rw [if_pos hempty, List.nil_append]
    rw [List.isEmpty_iff.mp hempty] at hitems
    rw [List.forall₂_nil_left_iff.mp hitems]
    exact ⟨readOrderBy_paging q steps, paging_ends q⟩
  · rw [if_neg hempty] at hsteps ⊢
    simp only [List.length_append] at hsteps
    refine ⟨?_, by rw [List.append_assoc]; exact endsStatement_words (by simp) _⟩
    have hread := readListed_valued hitems (by simpa using hempty) steps (by omega)
      (paging_ends q).noComma
    have hwords : tokenize d " ORDER BY " = tokenize d "ORDER BY " := tokenize_blank "ORDER BY "
    rw [List.append_assoc, hwords]
    unfold readOrderBy
    rw [expect_words]
    split
    · next heq =>
      -- no sort key begins with a parenthesis
      rw [Option.some.inj heq] at hread
      cases steps with
      | zero => cases hread
      | succ steps => cases d <;> cases hread
    · next heq => rw [← Option.some.inj heq, hread]
    · next heq => cases heq

theorem where_reads {q : Query} {parts : List Statement} (h : conditions d q = .ok parts)
    (steps : Nat) (hsteps : 3 * ((withLead " WHERE " " AND " parts).valued d).length + 3 ≤ steps)
    {rest : List Token} (hrest : EndsStatement d rest) :
    readWhere d steps ((withLead " WHERE " " AND " parts).valued d ++ rest) =
        some (formulaOf q, rest) ∧
      EndsTables d ((withLead " WHERE " " AND " parts).valued d ++ rest) := by
  obtain ⟨hnone, hsome⟩ := conditions_read h
  rw [valued_withLead] at hsteps ⊢
  by_cases hempty : parts.isEmpty = true
  · rw [if_pos hempty, List.nil_append, readWhere, hrest.noWhere,
      hnone (List.isEmpty_iff.mp hempty)]
    exact ⟨rfl, hrest.toEndsTables⟩
  · rw [if_neg hempty] at hsteps ⊢
    simp only [List.length_append] at hsteps
    have hwords : tokenize d " WHERE " = tokenize d "WHERE " := tokenize_blank "WHERE "
    have hformula := hsome (by simpa using hempty)
    rw [List.append_assoc]
    refine ⟨?_, endsTables_words (by simp) _⟩
    rw [hwords, readWhere, expect_words]
    exact hformula steps rest (by omega) hrest.ends

/-! ## Whole statements -/

/-- The pieces of a statement with their values are read as its query. -/
theorem select_reads {q : Query} {s : Statement} (h : select d q = .ok s) {steps : Nat}
    (hsteps : 3 * (s.valued d).length + 3 ≤ steps) :
    readStatement d steps (s.valued d) = some (selectOf d q) := by
  obtain ⟨columns, hcolumns, h⟩ := bind_eq_ok h
  obtain ⟨aggregates, haggregates, h⟩ := bind_eq_ok h
  obtain ⟨joins, hjoins, h⟩ := bind_eq_ok h
  obtain ⟨conditions, hconditions, h⟩ := bind_eq_ok h
  obtain ⟨orders, horders, h⟩ := bind_eq_ok h
  cases h
  obtain ⟨hprojection, hne⟩ := projection_reads hcolumns
  have houtputs : List.Forall₂ (fun s o => ReadsItem (readOutput d) (Statement.valued d s) o)
      (columns ++ aggregates) (outputsOf q) :=
    List.rel_append hprojection (each_reads (R := ReadsItem (readOutput d))
      (fun _ _ => aggregate_reads) haggregates)
  have hfrom : tokenize d " FROM " = tokenize d "FROM " := tokenize_blank "FROM "
  have hfromComma : ∀ rest, expect d ", " (tokenize d " FROM " ++ rest) = none := by
    intro rest
    cases d <;> rfl
  simp only [List.append_assoc, List.cons_append, valued_words, valued_append, valued_nil,
    List.append_nil, selectTop_tokens, List.length_append] at hsteps ⊢
  obtain ⟨horderBy, hordersEnd⟩ := orderBy_reads horders steps (by omega)
  obtain ⟨hwhere, hwhereEnd⟩ := where_reads hconditions steps (by omega) hordersEnd
  obtain ⟨hjoined, _, hnoAlias⟩ := joins_read hjoins steps _ (by omega) hwhereEnd
  have hlisted := fun rest => readListed_valued houtputs (by simp [hne]) steps (by omega)
    (hfromComma rest)
  unfold readStatement
  simp only [expect_words, Option.bind_eq_bind, Option.bind_some, readTop_tokens (hlisted _),
    hlisted]
  rw [hfrom]
  simp only [expect_words, Option.bind_some, readTable_tableAs _ _ hnoAlias, hjoined, hwhere,
    horderBy]
  rfl

/-- What is read from the text and the bindings of a query is the query's own reading. -/
theorem readSelect_rendered {q : Query} {r : Rendered} (h : renderSelect d q = .ok r) :
    readSelect d r = some (selectOf d q) := by
  rw [renderSelect_eq] at h
  obtain ⟨s, hs, rfl⟩ := map_eq_ok h
  unfold readSelect Statement.rendered
  simp only [fill_tokenize (select_apart hs), Option.bind_eq_bind, Option.bind_some]
  exact select_reads hs (Nat.le_refl _)

/-- So is what is read from its condition alone. -/
theorem readCondition_rendered {q : Query} {r : Rendered} (h : renderCondition d q = .ok r) :
    readCondition d r = some (formulaOf q) := by
  rw [renderCondition_eq] at h
  obtain ⟨s, hs, rfl⟩ := map_eq_ok h
  have hfill := fill_tokenize (condition_apart hs)
  obtain ⟨parts, hparts, h⟩ := bind_eq_ok hs
  cases h
  obtain ⟨hnone, hsome⟩ := conditions_read hparts
  unfold readCondition Statement.rendered
  simp only [hfill, Option.bind_eq_bind, Option.bind_some]
  by_cases hempty : parts = []
  · rw [hnone hempty, hempty]
    rfl
  · have hformula := hsome hempty
    have hread := hformula (enoughSteps ((Statement.joinWith " AND " parts).valued d)) []
      (Nat.le_refl _) ends_nil
    have htokens := hformula.ne_nil
    rw [List.append_nil] at hread
    rw [if_neg (by simpa using htokens), hread]
    rfl

end

end Winnow.Sql
