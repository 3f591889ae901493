import Winnow.Proofs.Sql.Spacing

/-!
# Names and values of a query, in order

What a statement is given besides its words are names and values.
`queryContents` lists those of a query in the order in which they are written;
it does not look at the dialect.  A rendered statement holds exactly these, in
this order (`select_contents`, `condition_contents`), so its tokens hold exactly
these names (`names_tokenize`), and its bindings are these values.
-/

namespace Winnow.Sql

/-! ## What is written -/

/-- Whether a piece is a name or a value. -/
def Piece.isContent : Piece → Bool
  | .words _ => false
  | .name _ | .bound _ => true

/-- The name in a piece. -/
def Piece.name? : Piece → Option String
  | .name identifier => some identifier
  | .words _ | .bound _ => none

/-- The name in a token. -/
def Token.name? : Token → Option String
  | .name identifier => some identifier
  | _ => none

namespace Statement

/-- The names and values among pieces. -/
def contents (s : Statement) : List Piece := s.filter Piece.isContent

/-- The names among pieces. -/
def names (s : Statement) : List String := s.filterMap Piece.name?

end Statement

/-- Names and values of a column. -/
def columnContents : Column → List Piece
  | .field qualifier name => [.name qualifier, .name name]
  | .dateTimeParts qualifier date time =>
    [.name qualifier, .name date, .name qualifier, .name time]

/-- Names and values of a test; that of an empty list of members has none. -/
def testContents : Test → List Piece
  | .compare c _ value => columnContents c ++ [.bound value]
  | .like c pattern _ => columnContents c ++ [.bound (.text pattern)]
  | .member c values _ =>
    if values.isEmpty then [] else columnContents c ++ values.map Piece.bound
  | .null c _ => columnContents c
  | .empty c _ => columnContents c ++ columnContents c ++ [.bound (.text "")]
  | .between c low high _ => columnContents c ++ [.bound low, .bound high]

/-- The names of a table and of its alias, when that differs. -/
def tableContents (table : String) (tableAlias : Option String) : List Piece :=
  match tableAlias with
  | some tableAlias =>
    if tableAlias = table then [.name table] else [.name table, .name tableAlias]
  | none => [.name table]

/-- Names and values of the tables and conditions that relate rows by a link. -/
def linkContents (link : Link) (tableAlias : Option String) : List Piece :=
  match link.kind with
  | .direct parentColumn relatedColumn =>
    tableContents link.relatedTable tableAlias ++
      [.name link.related, .name relatedColumn, .name link.parent, .name parentColumn]
  | .pivot table parentPivotColumn relatedPivotColumn parentColumn relatedColumn morph =>
    tableContents link.relatedTable tableAlias ++
      [.name table, .name link.related, .name relatedColumn, .name table, .name relatedPivotColumn,
        .name table, .name parentPivotColumn, .name link.parent, .name parentColumn] ++
      match morph with
      | some m => [.name table, .name m.column, .bound (.text m.value)]
      | none => []

mutual

/-- Names and values of a predicate. -/
def predicateContents : Predicate → List Piece
  | .test t => testContents t
  | .nested clauses => clausesContents clauses
  | .related link query _ => relatedContents link query
  | .counted link query _ bound => relatedContents link query ++ [.bound (.integer bound)]
  | .const _ => []

/-- Names and values of clauses. -/
def clausesContents : List Clause → List Piece
  | [] => []
  | ⟨_, p⟩ :: rest => predicateContents p ++ clausesContents rest

/-- Names and values of a question about related rows. -/
def relatedContents (link : Link) : Query → List Piece
  | ⟨entity, tableAlias, depth, clauses, joins, orders, selects, eager, aggregates, limit, offset,
      removed⟩ =>
    let query : Query := ⟨entity, tableAlias, depth, clauses, joins, orders, selects, eager,
      aggregates, limit, offset, removed⟩
    linkContents link tableAlias ++ query.scopeTests.flatMap testContents ++
      clausesContents clauses

end

/-- Names and values of the condition of a query. -/
def conditionContents (q : Query) : List Piece :=
  q.scopeTests.flatMap testContents ++ clausesContents q.clauses

/-- Names and values of a projected aggregate; a column is named where one is aggregated. -/
def aggregateContents (a : Aggregate) : List Piece :=
  (match a.function with
    | .exists_ | .count => []
    | _ => [.name a.query.qualifier, .name (a.column.getD "id")]) ++
  relatedContents a.link a.query ++ [.name a.outputName]

/-- Names and values of a join. -/
def joinContents (j : Join) : List Piece :=
  tableContents j.table (some j.tableAlias) ++ columnContents j.first ++ columnContents j.second ++
    j.conditions.flatMap predicateContents

/-- Names and values of a sort key. -/
def orderContents (o : Order) : List Piece :=
  match o.target with
  | .column c => columnContents c
  | .output name => [.name name]

/-- Names and values of a query. -/
def queryContents (q : Query) : List Piece :=
  (if q.selects.isEmpty then [.name q.qualifier] else q.selects.flatMap columnContents) ++
    q.aggregates.flatMap aggregateContents ++ tableContents q.entity.table q.tableAlias ++
    q.joins.flatMap joinContents ++ conditionContents q ++ q.orders.flatMap orderContents

/-! ## What pieces hold -/

section
variable {d : Dialect}

@[simp] theorem contents_nil : Statement.contents [] = [] := rfl

@[simp] theorem contents_append (s t : Statement) :
    (s ++ t).contents = s.contents ++ t.contents := List.filter_append ..

@[simp] theorem contents_words (text : String) (s : Statement) :
    Statement.contents (.words text :: s) = s.contents := rfl

@[simp] theorem contents_name (identifier : String) (s : Statement) :
    Statement.contents (.name identifier :: s) = .name identifier :: s.contents := rfl

@[simp] theorem contents_bound (value : Value) (s : Statement) :
    Statement.contents (.bound value :: s) = .bound value :: s.contents := rfl

@[simp] theorem contents_parenthesized (s : Statement) :
    (Statement.parenthesized s).contents = s.contents := by
  simp [Statement.parenthesized]

@[simp] theorem contents_joinWith (separator : String) (parts : List Statement) :
    (Statement.joinWith separator parts).contents = parts.flatMap Statement.contents := by
  induction parts with
  | nil => rfl
  | cons s rest ih =>
    cases rest with
    | nil => simp [Statement.joinWith]
    | cons next rest =>
      rw [Statement.joinWith, contents_append, contents_words, ih]
      simp

@[simp] theorem contents_withLead (lead separator : String) (parts : List Statement) :
    (withLead lead separator parts).contents = parts.flatMap Statement.contents := by
  unfold withLead
  split
  · next hempty => simp [List.isEmpty_iff.mp hempty]
  · simp

@[simp] theorem contents_qualified (qualifier name : String) :
    (qualified qualifier name).contents = [.name qualifier, .name name] := rfl

@[simp] theorem contents_equation (leftQualifier left rightQualifier right : String) :
    (equation leftQualifier left rightQualifier right).contents =
      [.name leftQualifier, .name left, .name rightQualifier, .name right] := rfl

@[simp] theorem contents_tableAs (table : String) (tableAlias : Option String) :
    (tableAs table tableAlias).contents = tableContents table tableAlias := by
  unfold tableAs tableContents
  cases tableAlias with
  | none => rfl
  | some tableAlias =>
    simp only
    split <;> rfl

/-- Statements written one for each member of a list hold what each of them does. -/
theorem each_contents {α : Type} {f : α → Except Failure Statement} {g : α → List Piece}
    (hf : ∀ a s, f a = .ok s → s.contents = g a) {l : List α} {parts : List Statement}
    (h : l.mapM f = .ok parts) : parts.flatMap Statement.contents = l.flatMap g := by
  have hall := mapM_eq_ok h
  clear h
  induction hall with
  | nil => rfl
  | cons hfirst _ ih => rw [List.flatMap_cons, List.flatMap_cons, hf _ _ hfirst, ih]

/-! ## Columns, tests and links -/

theorem column_contents {c : Column} {s : Statement} (h : column d c = .ok s) :
    s.contents = columnContents c := by
  cases c with
  | field qualifier name =>
    cases h
    rfl
  | dateTimeParts qualifier date time =>
    cases d with
    | postgres | mysql | sqlite =>
      cases h
      rfl
    | sqlServer => cases h

theorem test_contents {t : Test} {s : Statement} (h : test d t = .ok s) :
    s.contents = testContents t := by
  cases t with
  | compare c op value =>
    obtain ⟨column, hcolumn, h⟩ := bind_eq_ok h
    cases h
    simp [testContents, column_contents hcolumn]
  | like c pattern negated =>
    obtain ⟨column, hcolumn, h⟩ := bind_eq_ok h
    cases h
    simp [testContents, column_contents hcolumn]
  | member c values negated =>
    rw [test] at h
    rw [testContents]
    by_cases hempty : values.isEmpty = true
    · rw [if_pos hempty] at h ⊢
      cases h
      rfl
    · rw [if_neg hempty] at h ⊢
      obtain ⟨column, hcolumn, h⟩ := bind_eq_ok h
      cases h
      have hitems : (values.map fun value => [Piece.bound value]).flatMap Statement.contents =
          values.map Piece.bound := by
        rw [List.flatMap_map, List.map_eq_flatMap]
        rfl
      rw [contents_append, contents_words, contents_parenthesized, contents_joinWith, hitems,
        column_contents hcolumn]
  | null c negated =>
    obtain ⟨column, hcolumn, h⟩ := bind_eq_ok h
    cases h
    simp [testContents, column_contents hcolumn]
  | empty c negated =>
    obtain ⟨column, hcolumn, h⟩ := bind_eq_ok h
    cases h
    simp [testContents, column_contents hcolumn]
  | between c low high negated =>
    obtain ⟨column, hcolumn, h⟩ := bind_eq_ok h
    cases h
    simp [testContents, column_contents hcolumn]

theorem scopes_contents {tests : List Test} {scopes : List Statement}
    (h : tests.mapM (test d) = .ok scopes) :
    scopes.flatMap Statement.contents = tests.flatMap testContents :=
  each_contents (fun _ _ => test_contents) h

theorem link_contents (link : Link) (tableAlias : Option String) :
    (relatedTables link tableAlias).contents ++ (linkConditions link).flatMap Statement.contents =
      linkContents link tableAlias := by
  unfold relatedTables linkConditions linkContents
  cases link.kind with
  | direct parentColumn relatedColumn => simp
  | pivot table parentPivotColumn relatedPivotColumn parentColumn relatedColumn morph =>
    cases morph <;> simp

theorem withScopes_contents (alone : Bool) (scopes : List Statement) (count : Nat)
    {clauses : Statement} (h : count = 0 → clauses.contents = []) :
    (withScopes Statement.parenthesized alone scopes count clauses).flatMap Statement.contents =
      scopes.flatMap Statement.contents ++ clauses.contents := by
  unfold withScopes
  split
  · next hcount => simp [h hcount]
  · split <;> simp

/-! ## Predicates -/

mutual

theorem predicate_contents : (p : Predicate) → {s : Statement} → predicate d p = .ok s →
    s.contents = predicateContents p
  | .test t, s, h => by
    rw [predicateContents]
    exact test_contents h
  | .nested [], s, h => by
    cases h
    rfl
  | .nested (clause :: rest), s, h => by
    obtain ⟨clauses, hclauses, h⟩ := bind_eq_ok h
    cases h
    rw [predicateContents, contents_parenthesized]
    exact clauseList_contents true (clause :: rest) hclauses
  | .related link query negated, s, h => by
    obtain ⟨body, hbody, h⟩ := bind_eq_ok h
    cases h
    rw [predicateContents, ← related_contents link query hbody]
    simp
  | .counted link query op bound, s, h => by
    obtain ⟨body, hbody, h⟩ := bind_eq_ok h
    cases h
    rw [predicateContents, ← related_contents link query hbody]
    simp
  | .const value, s, h => by
    cases h
    rfl

theorem clauseList_contents (isFirst : Bool) : (clauses : List Clause) → {s : Statement} →
    clauseList d isFirst clauses = .ok s → s.contents = clausesContents clauses
  | [], s, h => by
    cases h
    rfl
  | ⟨connective, p⟩ :: rest, s, h => by
    obtain ⟨first, hfirst, h⟩ := bind_eq_ok h
    obtain ⟨others, hothers, h⟩ := bind_eq_ok h
    cases h
    rw [clausesContents, ← predicate_contents p hfirst, ← clauseList_contents false rest hothers]
    cases isFirst <;> simp

theorem related_contents (link : Link) : (q : Query) → {s : Statement} →
    related d link q = .ok s → s.contents = relatedContents link q
  | ⟨entity, tableAlias, depth, clauses, joins, orders, selects, eager, aggregates, limit, offset,
      removed⟩, s, h => by
    obtain ⟨scopes, hscopes, h⟩ := bind_eq_ok h
    obtain ⟨own, hown, h⟩ := bind_eq_ok h
    cases h
    have hown := clauseList_contents true clauses hown
    have hnone : clauses.length = 0 → own.contents = [] := by
      intro hlength
      rw [hown, List.length_eq_zero_iff.mp hlength, clausesContents]
    unfold relatedBody
    simp only [contents_append, contents_words, contents_joinWith, List.flatMap_append,
      List.cons_append]
    rw [withScopes_contents false scopes _ hnone, scopes_contents hscopes, hown, relatedContents,
      ← link_contents link tableAlias]
    simp

end

/-! ## Whole statements -/

theorem conditions_contents {q : Query} {parts : List Statement}
    (h : conditions d q = .ok parts) :
    parts.flatMap Statement.contents = conditionContents q := by
  obtain ⟨scopes, hscopes, h⟩ := bind_eq_ok h
  obtain ⟨own, hown, h⟩ := bind_eq_ok h
  cases h
  have hown := clauseList_contents true q.clauses hown
  have hnone : q.clauses.length = 0 → own.contents = [] := by
    intro hlength
    rw [hown, List.length_eq_zero_iff.mp hlength, clausesContents]
  rw [withScopes_contents true scopes _ hnone, scopes_contents hscopes, hown, conditionContents]

theorem aggregate_contents {a : Aggregate} {s : Statement} (h : aggregate d a = .ok s) :
    s.contents = aggregateContents a := by
  obtain ⟨expression, hexpression, h⟩ := bind_eq_ok h
  obtain ⟨body, hbody, hexpression⟩ := bind_eq_ok hexpression
  cases h
  have hbody := related_contents a.link a.query hbody
  unfold aggregateContents
  cases hfunction : a.function with
  | exists_ | count =>
    rw [hfunction] at hexpression
    cases hexpression
    simp [hbody]
  | sum | min | max | avg =>
    rw [hfunction] at hexpression
    cases hexpression
    simp [hbody]

theorem join_contents {j : Join} {s : Statement} (h : join d j = .ok s) :
    s.contents = joinContents j := by
  obtain ⟨first, hfirst, h⟩ := bind_eq_ok h
  obtain ⟨second, hsecond, h⟩ := bind_eq_ok h
  obtain ⟨conditions, hconditions, h⟩ := bind_eq_ok h
  cases h
  have hconditions := each_contents (fun p _ => predicate_contents p) hconditions
  simp [joinContents, column_contents hfirst, column_contents hsecond, hconditions]

theorem order_contents {o : Order} {s : Statement} (h : order d o = .ok s) :
    s.contents = orderContents o := by
  unfold order at h
  unfold orderContents
  cases htarget : o.target with
  | column c =>
    rw [htarget] at h
    obtain ⟨target, hcolumn, h⟩ := bind_eq_ok h
    cases h
    simp [column_contents hcolumn]
  | output name =>
    rw [htarget] at h
    cases h
    rfl

theorem projection_contents {q : Query} {columns : List Statement}
    (h : projection d q = .ok columns) :
    columns.flatMap Statement.contents =
      if q.selects.isEmpty then [.name q.qualifier] else q.selects.flatMap columnContents := by
  unfold projection at h
  split at h
  · next hempty =>
    cases h
    rw [if_pos hempty]
    rfl
  · next hsome =>
    rw [if_neg hsome]
    exact each_contents (fun _ _ => column_contents) h

/-- A statement that selects rows holds the names and values of its query, in order. -/
theorem select_contents {q : Query} {s : Statement} (h : select d q = .ok s) :
    s.contents = queryContents q := by
  obtain ⟨columns, hcolumns, h⟩ := bind_eq_ok h
  obtain ⟨aggregates, haggregates, h⟩ := bind_eq_ok h
  obtain ⟨joins, hjoins, h⟩ := bind_eq_ok h
  obtain ⟨conditions, hconditions, h⟩ := bind_eq_ok h
  obtain ⟨orders, horders, h⟩ := bind_eq_ok h
  cases h
  have haggregates := each_contents (fun _ _ => aggregate_contents) haggregates
  have hjoins := each_contents (fun _ _ => join_contents) hjoins
  have horders := each_contents (fun _ _ => order_contents) horders
  have hflatten : Statement.contents joins.flatten = joins.flatMap Statement.contents := by
    unfold Statement.contents
    rw [List.filter_flatten, List.flatMap_def]
  unfold queryContents
  simp only [contents_append, contents_words, contents_joinWith, contents_withLead,
    contents_tableAs, List.flatMap_append, List.cons_append]
  rw [projection_contents hcolumns, haggregates, hflatten, hjoins,
    conditions_contents hconditions, horders]
  simp

/-- So does a condition alone. -/
theorem condition_contents {q : Query} {s : Statement} (h : condition d q = .ok s) :
    s.contents = conditionContents q := by
  obtain ⟨parts, hparts, h⟩ := bind_eq_ok h
  cases h
  rw [contents_joinWith, conditions_contents hparts]

/-! ## Names and values -/

theorem names_eq (s : Statement) : s.names = s.contents.filterMap Piece.name? := by
  induction s with
  | nil => rfl
  | cons piece rest ih =>
    cases piece <;> simp_all [Statement.names, Piece.name?, List.filterMap_cons]

theorem bindings_eq (s : Statement) : s.bindings = Statement.bindings s.contents := by
  induction s with
  | nil => rfl
  | cons piece rest ih => cases piece <;> simp_all [Statement.bindings]

theorem names_fixed {ts : List Token} (h : ts.all Token.isFixed = true) :
    ts.filterMap Token.name? = [] := by
  rw [List.filterMap_eq_nil_iff]
  intro t ht
  have hfixed := List.all_eq_true.mp h t ht
  cases t <;> first | rfl | cases hfixed

theorem names_tokens {isOpen : Bool} {s : Statement} (h : apart d isOpen s = true) (n : Nat) :
    (s.tokens d n).filterMap Token.name? = s.names := by
  induction s generalizing isOpen n with
  | nil => rfl
  | cons piece rest ih =>
    cases piece with
    | words text =>
      simp only [apart, wordsApart, Bool.and_eq_true] at h
      rw [Statement.tokens, List.filterMap_append, names_fixed h.1.2.2, ih h.2]
      rfl
    | name identifier =>
      simp only [apart, Bool.and_eq_true] at h
      rw [Statement.tokens, List.filterMap_cons, ih h.2]
      rfl
    | bound value =>
      simp only [apart, Bool.and_eq_true] at h
      rw [Statement.tokens, List.filterMap_cons, ih h.2]
      rfl

/-- The names read from the text are the names among the pieces. -/
theorem names_tokenize {s : Statement} (h : apart d false s = true) :
    (tokenize d (s.sql d)).filterMap Token.name? = s.names := by
  rw [tokenize_sql h, names_tokens h]

end

end Winnow.Sql
