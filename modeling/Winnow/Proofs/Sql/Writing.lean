import Winnow.Proofs.Sql.Pieces

/-!
# What the writer writes

The writer binds values while it writes parts of a statement, and puts the parts
together afterwards.  Each part is the text of some pieces, written behind the
values bound before it, and binds the values of these pieces (`Writes`).  So a
rendered query has the text and the values of its pieces, in which the values
stand where they are bound:

    renderSelect d q = (select d q).map (Statement.rendered d)         (renderSelect_eq)
    renderCondition d q = (condition d q).map (Statement.rendered d)   (renderCondition_eq)
-/

namespace Winnow.Sql

section
variable {d : Dialect}

/-! ## Text and values of pieces -/

@[simp] theorem bindings_nil : Statement.bindings [] = [] := rfl

@[simp] theorem bindings_words (text : String) (s : Statement) :
    Statement.bindings (.words text :: s) = s.bindings := rfl

@[simp] theorem bindings_name (identifier : String) (s : Statement) :
    Statement.bindings (.name identifier :: s) = s.bindings := rfl

@[simp] theorem bindings_bound (value : Value) (s : Statement) :
    Statement.bindings (.bound value :: s) = value :: s.bindings := rfl

@[simp] theorem bindings_append (s t : Statement) :
    (s ++ t).bindings = s.bindings ++ t.bindings := List.filterMap_append

@[simp] theorem bindings_parenthesized (s : Statement) :
    (Statement.parenthesized s).bindings = s.bindings := by
  simp [Statement.parenthesized]

@[simp] theorem bindings_joinWith (separator : String) (parts : List Statement) :
    (Statement.joinWith separator parts).bindings = parts.flatMap Statement.bindings := by
  induction parts with
  | nil => rfl
  | cons s rest ih =>
    cases rest with
    | nil => simp [Statement.joinWith]
    | cons next rest =>
      rw [Statement.joinWith, bindings_append, bindings_words, ih]
      rfl

@[simp] theorem bindings_tableAs (table : String) (tableAlias : Option String) :
    (tableAs table tableAlias).bindings = [] := by
  unfold tableAs
  split
  · split <;> rfl
  · rfl

@[simp] theorem bindings_flatten (parts : List Statement) :
    Statement.bindings parts.flatten = parts.flatMap Statement.bindings := by
  induction parts with
  | nil => rfl
  | cons s rest ih => simp [ih]

@[simp] theorem bindings_withLead (lead separator : String) (parts : List Statement) :
    (withLead lead separator parts).bindings = parts.flatMap Statement.bindings := by
  unfold withLead
  split
  · next hempty => simp [List.isEmpty_iff.mp hempty]
  · simp

@[simp] theorem write_nil (n : Nat) : Statement.write d n [] = "" := rfl

@[simp] theorem write_words (n : Nat) (text : String) (s : Statement) :
    Statement.write d n (.words text :: s) = text ++ s.write d n := rfl

@[simp] theorem write_name (n : Nat) (identifier : String) (s : Statement) :
    Statement.write d n (.name identifier :: s) = d.quote identifier ++ s.write d n := rfl

@[simp] theorem write_bound (n : Nat) (value : Value) (s : Statement) :
    Statement.write d n (.bound value :: s) = d.placeholder (n + 1) ++ s.write d (n + 1) := rfl

@[simp] theorem write_append (n : Nat) (s t : Statement) :
    (s ++ t).write d n = s.write d n ++ t.write d (n + s.bindings.length) := by
  induction s generalizing n with
  | nil => simp
  | cons piece s ih =>
    cases piece with
    | words | name => simp [ih, String.append_assoc]
    | bound value =>
      have hcount : n + 1 + (Statement.bindings s).length =
          n + ((Statement.bindings s).length + 1) := by omega
      simp [ih, String.append_assoc, hcount]

@[simp] theorem write_tableAs (n : Nat) (table : String) (tableAlias : Option String) :
    (tableAs table tableAlias).write d n = Writer.tableAs d table tableAlias := by
  unfold tableAs Writer.tableAs
  cases tableAlias with
  | none => simp
  | some tableAlias =>
    simp only
    split <;> simp [String.append_assoc]

@[simp] theorem write_parenthesized (n : Nat) (s : Statement) :
    (Statement.parenthesized s).write d n = Writer.parenthesized (s.write d n) := by
  simp [Statement.parenthesized, Writer.parenthesized, String.append_assoc]

/-- The texts of statements one after another. -/
def writeEach (d : Dialect) : Nat → List Statement → List String
  | _, [] => []
  | n, s :: rest => s.write d n :: writeEach d (n + s.bindings.length) rest

@[simp] theorem writeEach_append (n : Nat) (parts others : List Statement) :
    writeEach d n (parts ++ others) =
      writeEach d n parts ++ writeEach d (n + (parts.flatMap Statement.bindings).length) others := by
  induction parts generalizing n with
  | nil => simp [writeEach]
  | cons s parts ih => simp [writeEach, ih, Nat.add_assoc]

@[simp] theorem writeEach_isEmpty (n : Nat) (parts : List Statement) :
    (writeEach d n parts).isEmpty = parts.isEmpty := by
  cases parts <;> rfl

@[simp] theorem write_joinWith (n : Nat) (separator : String) (parts : List Statement) :
    (Statement.joinWith separator parts).write d n =
      Text.join separator (writeEach d n parts) := by
  induction parts generalizing n with
  | nil => rfl
  | cons s rest ih =>
    cases rest with
    | nil => simp [Statement.joinWith, writeEach, Text.join]
    | cons next rest =>
      rw [Statement.joinWith, write_append, write_words, ih]
      simp [writeEach, Text.join, String.append_assoc]

@[simp] theorem write_flatten (n : Nat) (parts : List Statement) :
    Statement.write d n parts.flatten = String.join (writeEach d n parts) := by
  induction parts generalizing n with
  | nil => rfl
  | cons s rest ih => simp [writeEach, ih, String.join_cons]

@[simp] theorem write_withLead (n : Nat) (lead separator : String) (parts : List Statement) :
    (withLead lead separator parts).write d n =
      Writer.withLead lead separator (writeEach d n parts) := by
  unfold withLead Writer.withLead
  rw [writeEach_isEmpty]
  split <;> simp

/-! ## Writers -/

/-- What a writer gives behind values bound before, and the values that it binds behind these. -/
def Renders {α β : Type} (text : Nat → β → α) (values : β → List Value) (w : Writer α)
    (made : Except Failure β) : Prop :=
  ∀ bound, w.run bound = made.map fun b => (text bound.length b, bound ++ values b)

/-- A writer gives the text of pieces and binds their values. -/
abbrev Writes (d : Dialect) (w : Writer String) (s : Except Failure Statement) : Prop :=
  Renders (fun n s => Statement.write d n s) Statement.bindings w s

/-- A writer gives the texts of statements one after another. -/
abbrev WritesEach (d : Dialect) (w : Writer (List String))
    (parts : Except Failure (List Statement)) : Prop :=
  Renders (writeEach d) (fun parts => parts.flatMap Statement.bindings) w parts

/-- What follows a part goes on with its text and behind its values. -/
theorem Renders.step {α β γ δ : Type} {text : Nat → β → α} {values : β → List Value}
    {w : Writer α} {made : Except Failure β} (h : Renders text values w made) {bound : List Value}
    {f : α → Writer γ} {g : β → Except Failure δ} {result : δ → γ × List Value}
    (hnext : ∀ b, made = .ok b →
      (f (text bound.length b)).run (bound ++ values b) = (g b).map result) :
    (w >>= f).run bound = (made >>= g).map result := by
  rw [StateT.run_bind, h bound]
  cases made with
  | error => rfl
  | ok b => exact hnext b rfl

theorem param_run {α : Type} (value : Value) (f : String → Writer α) (bound : List Value) :
    (Writer.param d value >>= f).run bound =
      (f (d.placeholder (bound.length + 1))).run (bound ++ [value]) := by
  have hparam : (Writer.param d value).run bound =
      .ok (d.placeholder (bound ++ [value]).length, bound ++ [value]) := rfl
  rw [StateT.run_bind, hparam, List.length_append, List.length_singleton]
  rfl

theorem params_run {α : Type} (values : List Value) (f : List String → Writer α)
    (bound : List Value) :
    (values.mapM (Writer.param d) >>= f).run bound =
      (f (writeEach d bound.length (values.map fun value => [Piece.bound value]))).run
        (bound ++ values) := by
  induction values generalizing f bound with
  | nil => simp [writeEach]
  | cons value values ih =>
    rw [List.mapM_cons, bind_assoc, param_run, bind_assoc, ih]
    simp [writeEach]

/-- What writes a statement for each member writes the statements one after another. -/
theorem writesEach {α : Type} {w : α → Writer String} {s : α → Except Failure Statement}
    (h : ∀ a, Writes d (w a) (s a)) (l : List α) : WritesEach d (l.mapM w) (l.mapM s) := by
  induction l with
  | nil =>
    intro bound
    exact congrArg (fun values => Except.ok ([], values)) (List.append_nil bound).symm
  | cons a l ih =>
    intro bound
    rw [List.mapM_cons, List.mapM_cons]
    refine (h a).step fun first _ => ih.step fun rest _ => ?_
    show Except.ok _ = Except.ok _
    simp [writeEach]

/-! ## Columns and tests -/

theorem qualified_write (n : Nat) (qualifier name : String) :
    (qualified qualifier name).write d n = Writer.qualified d qualifier name := by
  simp [qualified, Writer.qualified, String.append_assoc]

theorem column_unbound {c : Column} {s : Statement} (h : column d c = .ok s) : s.bindings = [] := by
  cases c with
  | field qualifier name =>
    cases h
    rfl
  | dateTimeParts qualifier date time =>
    cases d with
    | postgres | mysql | sqlite =>
      cases h
      rfl
    | sqlServer => cases h

theorem column_writes (c : Column) : Writes d (Writer.column d c) (column d c) := by
  intro bound
  cases c with
  | field qualifier name =>
    show Except.ok _ = Except.ok _
    simp [Writer.qualified, qualified, String.append_assoc]
  | dateTimeParts qualifier date time =>
    cases d with
    | postgres | mysql | sqlite =>
      show Except.ok _ = Except.ok _
      simp [Writer.qualified, qualified, String.append_assoc]
    | sqlServer => rfl

theorem test_writes (t : Test) : Writes d (Writer.test d t) (test d t) := by
  cases t with
  | compare c op value =>
    refine fun bound => (column_writes c).step fun s hs => ?_
    rw [param_run]
    show Except.ok _ = Except.ok _
    simp [column_unbound hs, String.append_assoc]
  | like c pattern negated =>
    refine fun bound => (column_writes c).step fun s hs => ?_
    rw [param_run]
    show Except.ok _ = Except.ok _
    simp [column_unbound hs, String.append_assoc]
  | member c values negated =>
    rw [Writer.test, test]
    by_cases hempty : values.isEmpty = true
    · rw [if_pos hempty, if_pos hempty]
      intro bound
      show Except.ok _ = Except.ok _
      cases negated <;> simp [constant, Writer.constant]
    · rw [if_neg hempty, if_neg hempty]
      refine fun bound => (column_writes c).step fun s hs => ?_
      rw [params_run]
      show Except.ok _ = Except.ok _
      simp [column_unbound hs, List.flatMap_map, String.append_assoc]
  | null c negated =>
    refine fun bound => (column_writes c).step fun s hs => ?_
    show Except.ok _ = Except.ok _
    simp [column_unbound hs]
  | empty c negated =>
    refine fun bound => (column_writes c).step fun s hs => ?_
    rw [param_run]
    show Except.ok _ = Except.ok _
    cases negated with
    | false =>
      simp [column_unbound hs, String.append_assoc]
    | true =>
      simp [column_unbound hs, String.append_assoc]
  | between c low high negated =>
    refine fun bound => (column_writes c).step fun s hs => ?_
    rw [param_run, param_run]
    show Except.ok _ = Except.ok _
    simp [column_unbound hs, String.append_assoc]

/-! ## Links and scopes -/

theorem equation_write (n : Nat) (leftQualifier left rightQualifier right : String) :
    (equation leftQualifier left rightQualifier right).write d n =
      Writer.equation d leftQualifier left rightQualifier right := by
  simp [equation, Writer.equation, qualified, Writer.qualified, String.append_assoc]

@[simp] theorem equation_unbound (leftQualifier left rightQualifier right : String) :
    (equation leftQualifier left rightQualifier right).bindings = [] := rfl

theorem relatedTables_unbound (link : Link) (tableAlias : Option String) :
    (relatedTables link tableAlias).bindings = [] := by
  unfold relatedTables
  cases link.kind <;> simp

/-- A link writes the tables and the conditions of its related rows, and binds the values of the
conditions. -/
theorem linked_run {α : Type} (link : Link) (tableAlias : Option String)
    (f : String × List String → Writer α) (n : Nat) (bound : List Value) :
    (Writer.linked d link tableAlias >>= f).run bound =
      (f ((relatedTables link tableAlias).write d n,
          writeEach d bound.length (linkConditions link))).run
        (bound ++ (linkConditions link).flatMap Statement.bindings) := by
  unfold Writer.linked relatedTables linkConditions
  cases link.kind with
  | direct parentColumn relatedColumn => simp [writeEach, equation_write]
  | pivot table parentPivotColumn relatedPivotColumn parentColumn relatedColumn morph =>
    cases morph with
    | none => simp [writeEach, equation_write, String.append_assoc]
    | some m =>
      have hmorph := qualified_write (d := d) bound.length table m.column
      have hunbound : (qualified table m.column).bindings = [] := rfl
      simp only [bind_assoc]
      rw [param_run]
      simp [writeEach, equation_write, hmorph, hunbound, String.append_assoc]

theorem writeEach_withScopes (n : Nat) (alone : Bool) (scopes : List Statement) (count : Nat)
    (clauses : Statement) :
    writeEach d n (withScopes Statement.parenthesized alone scopes count clauses) =
      withScopes Writer.parenthesized alone (writeEach d n scopes) count
        (clauses.write d (n + (scopes.flatMap Statement.bindings).length)) := by
  unfold withScopes
  rw [writeEach_isEmpty]
  split
  · rfl
  · split <;> simp [writeEach]

theorem withScopes_bindings (alone : Bool) (scopes : List Statement) {count : Nat}
    {clauses : Statement} (h : count = 0 → clauses.bindings = []) :
    (withScopes Statement.parenthesized alone scopes count clauses).flatMap Statement.bindings =
      scopes.flatMap Statement.bindings ++ clauses.bindings := by
  unfold withScopes
  split
  · next hcount => simp [h hcount]
  · split <;> simp

/-! ## Predicates -/

theorem clauseList_unbound {isFirst : Bool} {clauses : List Clause} {s : Statement}
    (h : clauseList d isFirst clauses = .ok s) (hnone : clauses.length = 0) : s.bindings = [] := by
  rw [List.length_eq_zero_iff.mp hnone] at h
  cases h
  rfl

mutual

/-- A predicate is written as its pieces: induction over predicates, clauses and sub-queries. -/
theorem predicate_writes : (p : Predicate) → Writes d (Writer.predicate d p) (predicate d p)
  | .test t => by
    rw [Writer.predicate, predicate]
    exact test_writes t
  | .nested [] => by
    intro bound
    show Except.ok _ = Except.ok _
    simp [constant, Writer.constant]
  | .nested (clause :: rest) => by
    rw [Writer.predicate, predicate]
    refine fun bound => (clauseList_writes true (clause :: rest)).step fun s _ => ?_
    show Except.ok _ = Except.ok _
    simp
  | .related link query negated => by
    rw [Writer.predicate, predicate]
    refine fun bound => (related_writes link query).step fun s _ => ?_
    show Except.ok _ = Except.ok _
    simp [String.append_assoc]
  | .counted link query op bound => by
    rw [Writer.predicate, predicate]
    refine fun before => (related_writes link query).step fun s _ => ?_
    rw [param_run]
    show Except.ok _ = Except.ok _
    simp [String.append_assoc]
  | .const value => by
    rw [Writer.predicate, predicate]
    intro bound
    show Except.ok _ = Except.ok _
    cases value <;> simp [constant, Writer.constant]

theorem clauseList_writes (isFirst : Bool) : (clauses : List Clause) →
    Writes d (Writer.clauseList d isFirst clauses) (clauseList d isFirst clauses)
  | [] => by
    intro bound
    show Except.ok _ = Except.ok _
    simp
  | ⟨connective, p⟩ :: rest => by
    rw [Writer.clauseList, clauseList]
    refine fun bound => (predicate_writes p).step fun first _ =>
      (clauseList_writes false rest).step fun others _ => ?_
    show Except.ok _ = Except.ok _
    cases isFirst <;> simp [String.append_assoc]

theorem related_writes (link : Link) : (q : Query) →
    Writes d (Writer.related d link q) (related d link q)
  | ⟨entity, tableAlias, depth, clauses, joins, orders, selects, eager, aggregates, limit, offset,
      removed⟩ => by
    intro bound
    rw [Writer.related, related]
    simp only
    rw [linked_run link tableAlias _ bound.length]
    refine (writesEach test_writes _).step fun scopes _ =>
      (clauseList_writes true clauses).step fun own hown => ?_
    show Except.ok _ = Except.ok _
    simp [relatedBody, relatedTables_unbound, writeEach_withScopes,
      withScopes_bindings false scopes (clauseList_unbound hown), String.append_assoc,
      Nat.add_assoc]

end

/-- The conditions of a query are written one after another. -/
theorem conditions_write (q : Query) : WritesEach d (Writer.conditions d q) (conditions d q) := by
  intro bound
  refine (writesEach test_writes _).step fun scopes _ =>
    (clauseList_writes true q.clauses).step fun own hown => ?_
  show Except.ok _ = Except.ok _
  simp [writeEach_withScopes, withScopes_bindings true scopes (clauseList_unbound hown)]

/-! ## Whole statements -/

theorem aggregate_writes (a : Aggregate) : Writes d (Writer.aggregate d a) (aggregate d a) := by
  unfold Writer.aggregate aggregate aggregateExpression
  rw [bind_assoc]
  refine fun bound => (related_writes a.link a.query).step fun body _ => ?_
  -- adjacent words stay apart
  cases a.function with
  | exists_ | count =>
    show Except.ok _ = Except.ok _
    simp [-String.reduceAppend, String.append_assoc]
  | sum | min | max | avg =>
    show Except.ok _ = Except.ok _
    simp [-String.reduceAppend, qualified, Writer.qualified, String.append_assoc]

theorem projection_writes (q : Query) : WritesEach d (Writer.projection d q) (projection d q) := by
  unfold Writer.projection projection
  by_cases hempty : q.selects.isEmpty = true
  · rw [if_pos hempty, if_pos hempty]
    intro bound
    show Except.ok _ = Except.ok _
    simp [writeEach]
  · rw [if_neg hempty, if_neg hempty]
    exact writesEach column_writes q.selects

theorem join_writes (j : Join) : Writes d (Writer.joined d j) (join d j) := by
  refine fun bound => (column_writes j.first).step fun first hfirst =>
    (column_writes j.second).step fun second hsecond =>
      (writesEach predicate_writes j.conditions).step fun conditions _ => ?_
  show Except.ok _ = Except.ok _
  simp [writeEach, column_unbound hfirst, column_unbound hsecond, String.append_assoc]

theorem order_writes (o : Order) : Writes d (Writer.order d o) (order d o) := by
  unfold Writer.order order
  cases o.target with
  | column c =>
    refine fun bound => (column_writes c).step fun s hs => ?_
    show Except.ok _ = Except.ok _
    simp [column_unbound hs]
  | output name =>
    intro bound
    show Except.ok _ = Except.ok _
    simp

theorem select_writes (q : Query) : Writes d (Writer.select d q) (select d q) := by
  refine fun bound => (projection_writes q).step fun columns _ =>
    (writesEach aggregate_writes q.aggregates).step fun aggregates _ =>
      (writesEach join_writes q.joins).step fun joins _ =>
        (conditions_write q).step fun conditions _ =>
          (writesEach order_writes q.orders).step fun orders _ => ?_
  show Except.ok _ = Except.ok _
  simp [String.append_assoc, Nat.add_assoc]

/-! ## Rendering -/

theorem Renders.rendered {w : Writer String} {s : Except Failure Statement} (h : Writes d w s) :
    w.rendered = s.map (Statement.rendered d) := by
  unfold Writer.rendered
  rw [h []]
  cases s <;> rfl

/-- A query is rendered as its pieces, whose values are bound where they stand. -/
theorem renderSelect_eq (q : Query) : renderSelect d q = (select d q).map (Statement.rendered d) :=
  Renders.rendered (select_writes q)

theorem renderCondition_eq (q : Query) :
    renderCondition d q = (condition d q).map (Statement.rendered d) := by
  refine Renders.rendered fun bound => (conditions_write q).step fun parts _ => ?_
  show Except.ok _ = Except.ok _
  simp

end

end Winnow.Sql
