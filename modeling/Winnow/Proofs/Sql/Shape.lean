import Winnow.Proofs.Sql.Contents
import Winnow.Proofs.Sql.Sample
import Winnow.Proofs.Sql.Writing

/-!
# Names and values do not shape a statement

Two queries have the same shape (`SameShape`) when they differ in nothing but
how names are spelt and which values are bound.  Such queries are rendered from
alike pieces (`select_alike`), with the same words between names and values, so
their texts have the same tokens but for the names.  The names read from a text
are those of its query, in order, whatever characters they hold.
-/

namespace Winnow.Sql

/-! ## Queries of the same shape -/

def SameColumn : Column → Column → Prop
  | .field _ _, .field _ _ => True
  | .dateTimeParts _ _ _, .dateTimeParts _ _ _ => True
  | _, _ => False

/-- Tests of the same kind, with as many values. -/
def SameTest : Test → Test → Prop
  | .compare c op _, .compare c' op' _ => SameColumn c c' ∧ op = op'
  | .like c _ negated, .like c' _ negated' => SameColumn c c' ∧ negated = negated'
  | .member c values negated, .member c' values' negated' =>
    SameColumn c c' ∧ values.length = values'.length ∧ negated = negated'
  | .null c negated, .null c' negated' => SameColumn c c' ∧ negated = negated'
  | .empty c negated, .empty c' negated' => SameColumn c c' ∧ negated = negated'
  | .between c _ _ negated, .between c' _ _ negated' => SameColumn c c' ∧ negated = negated'
  | _, _ => False

/-- Whether an alias differs from the name of its table, or does for neither. -/
def SameTable (table : String) (tableAlias : Option String) (table' : String)
    (tableAlias' : Option String) : Prop :=
  tableAlias.getD table = table ↔ tableAlias'.getD table' = table'

/-- Links of the same kind, with a fixed value in the pivot or both without. -/
def SameLink : LinkKind → LinkKind → Prop
  | .direct _ _, .direct _ _ => True
  | .pivot _ _ _ _ _ morph, .pivot _ _ _ _ _ morph' => morph.isSome = morph'.isSome
  | _, _ => False

mutual

def SamePredicate : Predicate → Predicate → Prop
  | .test t, .test t' => SameTest t t'
  | .nested clauses, .nested clauses' => SameClauses clauses clauses'
  | .related link query negated, .related link' query' negated' =>
    SameRelated link link' query query' ∧ negated = negated'
  | .counted link query op _, .counted link' query' op' _ =>
    SameRelated link link' query query' ∧ op = op'
  | .const value, .const value' => value = value'
  | _, _ => False

def SameClauses : List Clause → List Clause → Prop
  | [], [] => True
  | ⟨connective, p⟩ :: rest, ⟨connective', p'⟩ :: rest' =>
    connective = connective' ∧ SamePredicate p p' ∧ SameClauses rest rest'
  | _, _ => False

/-- What a question about related rows is written from: link, table, active scopes, clauses. -/
def SameRelated (link link' : Link) : Query → Query → Prop
  | ⟨entity, tableAlias, depth, clauses, joins, orders, selects, eager, aggregates, limit, offset,
      removed⟩, query' =>
    let query : Query := ⟨entity, tableAlias, depth, clauses, joins, orders, selects, eager,
      aggregates, limit, offset, removed⟩
    SameLink link.kind link'.kind ∧
      SameTable link.relatedTable tableAlias link'.relatedTable query'.tableAlias ∧
      List.Forall₂ SameTest query.scopeTests query'.scopeTests ∧
      SameClauses clauses query'.clauses

end

structure SameAggregate (a a' : Aggregate) : Prop where
  related : SameRelated a.link a'.link a.query a'.query
  function : a.function = a'.function

structure SameJoin (j j' : Join) : Prop where
  kind : j.kind = j'.kind
  table : SameTable j.table (some j.tableAlias) j'.table (some j'.tableAlias)
  first : SameColumn j.first j'.first
  second : SameColumn j.second j'.second
  conditions : List.Forall₂ SamePredicate j.conditions j'.conditions

def SameTarget : OrderTarget → OrderTarget → Prop
  | .column c, .column c' => SameColumn c c'
  | .output _, .output _ => True
  | _, _ => False

structure SameOrder (o o' : Order) : Prop where
  target : SameTarget o.target o'.target
  direction : o.direction = o'.direction

/-- Queries that differ in names and bound values only. -/
structure SameShape (q q' : Query) : Prop where
  selects : List.Forall₂ SameColumn q.selects q'.selects
  aggregates : List.Forall₂ SameAggregate q.aggregates q'.aggregates
  table : SameTable q.entity.table q.tableAlias q'.entity.table q'.tableAlias
  joins : List.Forall₂ SameJoin q.joins q'.joins
  scopes : List.Forall₂ SameTest q.scopeTests q'.scopeTests
  clauses : SameClauses q.clauses q'.clauses
  orders : List.Forall₂ SameOrder q.orders q'.orders
  limit : q.limit = q'.limit
  offset : q.offset = q'.offset

/-! ## Alike pieces -/

/-- Pieces with the same words, or both a name, or both a value. -/
def Piece.Alike : Piece → Piece → Prop
  | .words text, .words text' => text = text'
  | .name _, .name _ => True
  | .bound _, .bound _ => True
  | _, _ => False

/-- Statements of alike pieces. -/
abbrev Alike (s s' : Statement) : Prop := List.Forall₂ Piece.Alike s s'

/-- Steps that both fail, or both succeed with related results. -/
inductive Both {α : Type} (R : α → α → Prop) : Except Failure α → Except Failure α → Prop
  | ok {a a' : α} (h : R a a') : Both R (.ok a) (.ok a')
  | error {e e' : Failure} : Both R (.error e) (.error e')

theorem Both.bind {α β : Type} {R : α → α → Prop} {S : β → β → Prop}
    {x x' : Except Failure α} {f f' : α → Except Failure β} (h : Both R x x')
    (hf : ∀ a a', R a a' → Both S (f a) (f' a')) : Both S (x >>= f) (x' >>= f') := by
  cases h with
  | ok h => exact hf _ _ h
  | error => exact .error

theorem Both.mapM {α β : Type} {R : β → β → Prop} {f : α → Except Failure β} {l l' : List α}
    (h : List.Forall₂ (fun a a' => Both R (f a) (f a')) l l') :
    Both (List.Forall₂ R) (l.mapM f) (l'.mapM f) := by
  induction h with
  | nil => exact .ok .nil
  | cons hfirst _ ih =>
    rw [List.mapM_cons, List.mapM_cons]
    exact hfirst.bind fun _ _ hfirst => ih.bind fun _ _ hrest => .ok (.cons hfirst hrest)

theorem Piece.alike_refl (piece : Piece) : piece.Alike piece := by
  cases piece with
  | words text => exact rfl
  | name | bound => trivial

theorem alike_refl (s : Statement) : Alike s s := by
  induction s with
  | nil => exact .nil
  | cons piece s ih => exact .cons piece.alike_refl ih

theorem alike_append {s s' t t' : Statement} (hs : Alike s s') (ht : Alike t t') :
    Alike (s ++ t) (s' ++ t') := List.rel_append hs ht

theorem alike_words (text : String) {s s' : Statement} (hs : Alike s s') :
    Alike (.words text :: s) (.words text :: s') := .cons rfl hs

theorem alike_name (identifier identifier' : String) {s s' : Statement} (hs : Alike s s') :
    Alike (.name identifier :: s) (.name identifier' :: s') := .cons trivial hs

theorem alike_bound (value value' : Value) {s s' : Statement} (hs : Alike s s') :
    Alike (.bound value :: s) (.bound value' :: s') := .cons trivial hs

theorem alike_parenthesized {s s' : Statement} (hs : Alike s s') :
    Alike (Statement.parenthesized s) (Statement.parenthesized s') :=
  alike_words "(" (alike_append hs (alike_refl _))

theorem alike_joinWith (separator : String) {parts parts' : List Statement}
    (h : List.Forall₂ Alike parts parts') :
    Alike (Statement.joinWith separator parts) (Statement.joinWith separator parts') := by
  induction h with
  | nil => exact .nil
  | cons hfirst hrest ih =>
    cases hrest with
    | nil => exact hfirst
    | cons hnext hrest => exact alike_append hfirst (alike_words separator ih)

theorem alike_withLead (lead separator : String) {parts parts' : List Statement}
    (h : List.Forall₂ Alike parts parts') :
    Alike (withLead lead separator parts) (withLead lead separator parts') := by
  cases h with
  | nil => exact .nil
  | cons hfirst hrest => exact alike_words lead (alike_joinWith separator (.cons hfirst hrest))

theorem alike_flatten {parts parts' : List Statement} (h : List.Forall₂ Alike parts parts') :
    Alike parts.flatten parts'.flatten := by
  induction h with
  | nil => exact .nil
  | cons hfirst _ ih => exact alike_append hfirst ih

theorem alike_withScopes (alone : Bool) {scopes scopes' : List Statement}
    (hscopes : List.Forall₂ Alike scopes scopes') (count : Nat) {clauses clauses' : Statement}
    (hclauses : Alike clauses clauses') :
    List.Forall₂ Alike (withScopes Statement.parenthesized alone scopes count clauses)
      (withScopes Statement.parenthesized alone scopes' count clauses') := by
  have hempty : scopes.isEmpty = scopes'.isEmpty := by cases hscopes <;> rfl
  unfold withScopes
  rw [hempty]
  split
  · exact hscopes
  · split
    · exact List.rel_append hscopes (.cons hclauses .nil)
    · exact List.rel_append hscopes (.cons (alike_parenthesized hclauses) .nil)

/-! ## Queries of the same shape have alike pieces -/

section
variable {d : Dialect}

theorem qualified_alike (qualifier name qualifier' name' : String) :
    Alike (qualified qualifier name) (qualified qualifier' name') :=
  alike_name _ _ (alike_words "." (alike_name _ _ .nil))

theorem column_alike {c c' : Column} (h : SameColumn c c') :
    Both Alike (column d c) (column d c') := by
  cases c with
  | field qualifier name =>
    cases c' with
    | field qualifier' name' => exact .ok (qualified_alike ..)
    | dateTimeParts => cases h
  | dateTimeParts qualifier date time =>
    cases c' with
    | field => cases h
    | dateTimeParts qualifier' date' time' =>
      have hdate := qualified_alike qualifier date qualifier' date'
      have htime : Alike (.words "COALESCE(" :: qualified qualifier time ++ [.words ", '00:00:00')"])
          (.words "COALESCE(" :: qualified qualifier' time' ++ [.words ", '00:00:00')"]) :=
        alike_words _ (alike_append (qualified_alike ..) (alike_refl _))
      cases d with
      | postgres | mysql | sqlite =>
        exact .ok (alike_words _ (alike_append (alike_append hdate (alike_words _ htime))
          (alike_refl _)))
      | sqlServer => exact .error

theorem values_alike {values values' : List Value} (h : values.length = values'.length) :
    List.Forall₂ Alike (values.map fun value => [Piece.bound value])
      (values'.map fun value => [Piece.bound value]) := by
  induction values generalizing values' with
  | nil =>
    cases values' with
    | nil => exact .nil
    | cons => cases h
  | cons value values ih =>
    cases values' with
    | nil => cases h
    | cons value' values' => exact .cons (alike_bound _ _ .nil) (ih (Nat.succ.inj h))

theorem test_alike {t t' : Test} (h : SameTest t t') : Both Alike (test d t) (test d t') := by
  cases t with
  | compare c op value =>
    cases t' with
    | compare c' op' value' =>
      obtain ⟨hcolumn, rfl⟩ := h
      exact (column_alike hcolumn).bind fun _ _ hs =>
        .ok (alike_append hs (alike_words _ (alike_bound _ _ .nil)))
    | like | member | null | empty | between => cases h
  | like c pattern negated =>
    cases t' with
    | like c' pattern' negated' =>
      obtain ⟨hcolumn, rfl⟩ := h
      exact (column_alike hcolumn).bind fun _ _ hs =>
        .ok (alike_append hs (alike_words _ (alike_bound _ _ .nil)))
    | compare | member | null | empty | between => cases h
  | member c values negated =>
    cases t' with
    | member c' values' negated' =>
      obtain ⟨hcolumn, hlength, rfl⟩ := h
      have hempty : values.isEmpty = values'.isEmpty := by
        rw [← Bool.coe_iff_coe, List.isEmpty_iff_length_eq_zero, List.isEmpty_iff_length_eq_zero,
          hlength]
      rw [test, test, hempty]
      split
      · exact .ok (alike_refl _)
      · exact (column_alike hcolumn).bind fun _ _ hs => .ok (alike_append hs (alike_words _
          (alike_parenthesized (alike_joinWith ", " (values_alike hlength)))))
    | compare | like | null | empty | between => cases h
  | null c negated =>
    cases t' with
    | null c' negated' =>
      obtain ⟨hcolumn, rfl⟩ := h
      exact (column_alike hcolumn).bind fun _ _ hs => .ok (alike_append hs (alike_refl _))
    | compare | like | member | empty | between => cases h
  | empty c negated =>
    cases t' with
    | empty c' negated' =>
      obtain ⟨hcolumn, rfl⟩ := h
      exact (column_alike hcolumn).bind fun _ _ hs => .ok (alike_parenthesized
        (alike_append (alike_append hs (alike_words _ hs)) (alike_refl _)))
    | compare | like | member | null | between => cases h
  | between c low high negated =>
    cases t' with
    | between c' low' high' negated' =>
      obtain ⟨hcolumn, rfl⟩ := h
      exact (column_alike hcolumn).bind fun _ _ hs => .ok (alike_append hs (alike_words _
        (alike_bound _ _ (alike_words _ (alike_bound _ _ .nil)))))
    | compare | like | member | null | empty => cases h

theorem scopes_alike {tests tests' : List Test} (h : List.Forall₂ SameTest tests tests') :
    Both (List.Forall₂ Alike) (tests.mapM (test d)) (tests'.mapM (test d)) :=
  .mapM (h.imp fun _ _ => test_alike)

theorem equation_alike (a b c e a' b' c' e' : String) :
    Alike (equation a b c e) (equation a' b' c' e') :=
  alike_append (qualified_alike ..) (alike_words " = " (qualified_alike ..))

theorem tableAs_alike {table table' : String} {tableAlias tableAlias' : Option String}
    (h : SameTable table tableAlias table' tableAlias') :
    Alike (tableAs table tableAlias) (tableAs table' tableAlias') := by
  have hone : ∀ (table : String) (tableAlias : Option String), tableAlias.getD table = table →
      tableAs table tableAlias = [.name table] := by
    intro table tableAlias hsame
    cases tableAlias with
    | none => rfl
    | some tableAlias => exact if_pos hsame
  have htwo : ∀ (table : String) (tableAlias : Option String), tableAlias.getD table ≠ table →
      tableAs table tableAlias =
        [.name table, .words " AS ", .name (tableAlias.getD table)] := by
    intro table tableAlias hdiffers
    cases tableAlias with
    | none => exact absurd rfl hdiffers
    | some tableAlias => exact if_neg hdiffers
  by_cases hsame : tableAlias.getD table = table
  · rw [hone _ _ hsame, hone _ _ (h.mp hsame)]
    exact alike_name _ _ .nil
  · rw [htwo _ _ hsame, htwo _ _ fun hsame' => hsame (h.mpr hsame')]
    exact alike_name _ _ (alike_words " AS " (alike_name _ _ .nil))

theorem relatedTables_alike {link link' : Link} (h : SameLink link.kind link'.kind)
    {tableAlias tableAlias' : Option String}
    (htable : SameTable link.relatedTable tableAlias link'.relatedTable tableAlias') :
    Alike (relatedTables link tableAlias) (relatedTables link' tableAlias') := by
  unfold relatedTables
  cases hkind : link.kind with
  | direct =>
    cases hkind' : link'.kind with
    | direct => exact tableAs_alike htable
    | pivot =>
      rw [hkind, hkind'] at h
      cases h
  | pivot =>
    cases hkind' : link'.kind with
    | direct =>
      rw [hkind, hkind'] at h
      cases h
    | pivot =>
      exact alike_append (alike_append (tableAs_alike htable)
        (alike_words _ (alike_name _ _ (alike_refl _)))) (equation_alike ..)

theorem linkConditions_alike {link link' : Link} (h : SameLink link.kind link'.kind) :
    List.Forall₂ Alike (linkConditions link) (linkConditions link') := by
  unfold linkConditions
  cases hkind : link.kind with
  | direct =>
    cases hkind' : link'.kind with
    | direct => exact .cons (equation_alike ..) .nil
    | pivot =>
      rw [hkind, hkind'] at h
      cases h
  | pivot table _ _ _ _ morph =>
    cases hkind' : link'.kind with
    | direct =>
      rw [hkind, hkind'] at h
      cases h
    | pivot table' _ _ _ _ morph' =>
      rw [hkind, hkind'] at h
      refine .cons (equation_alike ..) ?_
      cases morph with
      | none =>
        cases morph' with
        | none => exact .nil
        | some => cases h
      | some m =>
        cases morph' with
        | none => cases h
        | some m' =>
          exact .cons (alike_append (qualified_alike ..)
            (alike_words " = " (alike_bound _ _ .nil))) .nil

theorem sameClauses_cases {clauses clauses' : List Clause} (h : SameClauses clauses clauses') :
    clauses = [] ∧ clauses' = [] ∨
      ∃ connective p p' rest rest', clauses = ⟨connective, p⟩ :: rest ∧
        clauses' = ⟨connective, p'⟩ :: rest' ∧ SamePredicate p p' ∧ SameClauses rest rest' := by
  cases clauses with
  | nil =>
    cases clauses' with
    | nil => exact .inl ⟨rfl, rfl⟩
    | cons => simp [SameClauses] at h
  | cons clause rest =>
    cases clauses' with
    | nil => simp [SameClauses] at h
    | cons clause' rest' =>
      obtain ⟨connective, p⟩ := clause
      obtain ⟨connective', p'⟩ := clause'
      rw [SameClauses] at h
      obtain ⟨rfl, hpredicate, hrest⟩ := h
      exact .inr ⟨connective, p, p', rest, rest', rfl, rfl, hpredicate, hrest⟩

theorem sameClauses_length {clauses clauses' : List Clause} (h : SameClauses clauses clauses') :
    clauses.length = clauses'.length := by
  induction clauses generalizing clauses' with
  | nil =>
    rcases sameClauses_cases h with ⟨-, rfl⟩ | ⟨_, _, _, _, _, hcons, -⟩
    · rfl
    · cases hcons
  | cons clause rest ih =>
    rcases sameClauses_cases h with ⟨hnil, -⟩ | ⟨_, _, _, _, _, hcons, rfl, -, hrest⟩
    · cases hnil
    · cases hcons
      rw [List.length_cons, List.length_cons, ih hrest]

mutual

/-- Predicates of the same shape have alike pieces: induction over the first of them. -/
theorem predicate_alike : (p : Predicate) → {p' : Predicate} → SamePredicate p p' →
    Both Alike (predicate d p) (predicate d p')
  | .test t, p', h => by
    cases p' with
    | test t' =>
      rw [SamePredicate] at h
      rw [predicate, predicate]
      exact test_alike h
    | nested | related | counted | const => simp [SamePredicate] at h
  | .nested clauses, p', h => by
    cases p' with
    | nested clauses' =>
      rw [SamePredicate] at h
      have halike := clauseList_alike true clauses h
      rcases sameClauses_cases h with ⟨rfl, rfl⟩ | ⟨_, _, _, _, _, rfl, rfl, -⟩
      · exact .ok (alike_refl _)
      · rw [predicate, predicate]
        exact halike.bind fun _ _ hs => .ok (alike_parenthesized hs)
    | test | related | counted | const => simp [SamePredicate] at h
  | .related link query negated, p', h => by
    cases p' with
    | related link' query' negated' =>
      rw [SamePredicate] at h
      obtain ⟨hrelated, rfl⟩ := h
      rw [predicate, predicate]
      exact (related_alike query hrelated).bind fun _ _ hs =>
        .ok (alike_words _ (alike_append hs (alike_refl _)))
    | test | nested | counted | const => simp [SamePredicate] at h
  | .counted link query op bound, p', h => by
    cases p' with
    | counted link' query' op' bound' =>
      rw [SamePredicate] at h
      obtain ⟨hrelated, rfl⟩ := h
      rw [predicate, predicate]
      exact (related_alike query hrelated).bind fun _ _ hs =>
        .ok (alike_words _ (alike_append hs (alike_words _ (alike_bound _ _ .nil))))
    | test | nested | related | const => simp [SamePredicate] at h
  | .const value, p', h => by
    cases p' with
    | const value' =>
      rw [SamePredicate] at h
      rw [h]
      exact .ok (alike_refl _)
    | test | nested | related | counted => simp [SamePredicate] at h

theorem clauseList_alike (isFirst : Bool) : (clauses : List Clause) → {clauses' : List Clause} →
    SameClauses clauses clauses' →
    Both Alike (clauseList d isFirst clauses) (clauseList d isFirst clauses')
  | [], clauses', h => by
    rcases sameClauses_cases h with ⟨-, rfl⟩ | ⟨_, _, _, _, _, hcons, -⟩
    · exact .ok .nil
    · cases hcons
  | ⟨connective, p⟩ :: rest, clauses', h => by
    rcases sameClauses_cases h with ⟨hnil, -⟩ | ⟨_, _, p', _, rest', hcons, rfl, hpredicate, hrest⟩
    · cases hnil
    · cases hcons
      rw [clauseList, clauseList]
      exact (predicate_alike p hpredicate).bind fun _ _ hfirst =>
        (clauseList_alike false rest hrest).bind fun _ _ hothers =>
          .ok (alike_append (alike_append (alike_refl _) hfirst) hothers)

theorem related_alike {link link' : Link} : (q : Query) → {q' : Query} →
    SameRelated link link' q q' → Both Alike (related d link q) (related d link' q')
  | ⟨entity, tableAlias, depth, clauses, joins, orders, selects, eager, aggregates, limit, offset,
      removed⟩, q', h => by
    rw [SameRelated] at h
    obtain ⟨hlink, htable, hscopes, hclauses⟩ := h
    have hlength : clauses.length = q'.clauses.length := sameClauses_length hclauses
    rw [related_eq, related_eq]
    refine (scopes_alike hscopes).bind fun scopes scopes' hscopes =>
      (clauseList_alike true clauses hclauses).bind fun own own' hown => .ok ?_
    unfold relatedBody
    simp only [hlength]
    exact alike_words _ (alike_append (relatedTables_alike hlink htable) (alike_words _
      (alike_joinWith _ (List.rel_append (linkConditions_alike hlink)
        (alike_withScopes false hscopes _ hown)))))

end

/-! ## Whole statements -/

theorem conditions_alike {q q' : Query} (hscopes : List.Forall₂ SameTest q.scopeTests q'.scopeTests)
    (hclauses : SameClauses q.clauses q'.clauses) :
    Both (List.Forall₂ Alike) (conditions d q) (conditions d q') := by
  unfold conditions
  rw [sameClauses_length hclauses]
  exact (scopes_alike hscopes).bind fun _ _ hscopes =>
    (clauseList_alike true q.clauses hclauses).bind fun _ _ hown =>
      .ok (alike_withScopes true hscopes _ hown)

theorem aggregate_alike {a a' : Aggregate} (h : SameAggregate a a') :
    Both Alike (aggregate d a) (aggregate d a') := by
  have hexpression : Both Alike (aggregateExpression d a) (aggregateExpression d a') := by
    unfold aggregateExpression
    rw [← h.function]
    refine (related_alike a.query h.related).bind fun _ _ hbody => ?_
    cases a.function with
    | exists_ | count => exact .ok (alike_words _ (alike_append hbody (alike_refl _)))
    | sum | min | max | avg =>
      exact .ok (alike_words _ (alike_append (alike_append (qualified_alike ..)
        (alike_words _ hbody)) (alike_refl _)))
  exact hexpression.bind fun _ _ hs =>
    .ok (alike_append hs (alike_words _ (alike_name _ _ .nil)))

theorem projection_alike {q q' : Query} (h : List.Forall₂ SameColumn q.selects q'.selects) :
    Both (List.Forall₂ Alike) (projection d q) (projection d q') := by
  have hempty : q.selects.isEmpty = q'.selects.isEmpty := by
    cases hselects : q.selects with
    | nil =>
      rw [hselects] at h
      rw [List.forall₂_nil_left_iff.mp h]
    | cons =>
      rw [hselects] at h
      obtain ⟨_, _, -, -, hselects'⟩ := List.forall₂_cons_left_iff.mp h
      rw [hselects']
      rfl
  unfold projection
  rw [hempty]
  split
  · exact .ok (.cons (alike_name _ _ (alike_refl _)) .nil)
  · exact .mapM (h.imp fun _ _ => column_alike)

theorem join_alike {j j' : Join} (h : SameJoin j j') : Both Alike (join d j) (join d j') := by
  unfold join
  rw [← h.kind]
  refine (column_alike h.first).bind fun _ _ hfirst =>
    (column_alike h.second).bind fun _ _ hsecond => ?_
  have hconditions : Both (List.Forall₂ Alike) (j.conditions.mapM (predicate d))
      (j'.conditions.mapM (predicate d)) := .mapM (h.conditions.imp fun p _ => predicate_alike p)
  exact hconditions.bind fun _ _ hconditions =>
    .ok (alike_words _ (alike_append (tableAs_alike h.table) (alike_words _
      (alike_joinWith _ (.cons (alike_append hfirst (alike_words _ hsecond)) hconditions)))))

theorem order_alike {o o' : Order} (h : SameOrder o o') : Both Alike (order d o) (order d o') := by
  obtain ⟨target, direction⟩ := o
  obtain ⟨target', direction'⟩ := o'
  obtain ⟨htarget, rfl⟩ := h
  cases target with
  | column c =>
    cases target' with
    | column c' =>
      exact (column_alike htarget).bind fun _ _ hs => .ok (alike_append hs (alike_refl _))
    | output => cases htarget
  | output name =>
    cases target' with
    | column => cases htarget
    | output name' => exact .ok (alike_name _ _ (alike_refl _))

/-- Queries of the same shape are rendered both or neither, from alike pieces. -/
theorem select_alike {q q' : Query} (h : SameShape q q') :
    Both Alike (select d q) (select d q') := by
  have htop : top d q = top d q' := by
    unfold top
    rw [h.limit, h.offset]
  have hpaging : paging d q = paging d q' := by
    have horders : q.orders.isEmpty = q'.orders.isEmpty := by
      rw [← Bool.coe_iff_coe, List.isEmpty_iff_length_eq_zero, List.isEmpty_iff_length_eq_zero,
        h.orders.length_eq]
    unfold paging
    rw [h.limit, h.offset, horders]
  unfold select
  rw [htop, hpaging]
  have haggregates : Both (List.Forall₂ Alike) (q.aggregates.mapM (aggregate d))
      (q'.aggregates.mapM (aggregate d)) := .mapM (h.aggregates.imp fun _ _ => aggregate_alike)
  have hjoins : Both (List.Forall₂ Alike) (q.joins.mapM (join d)) (q'.joins.mapM (join d)) :=
    .mapM (h.joins.imp fun _ _ => join_alike)
  have horders : Both (List.Forall₂ Alike) (q.orders.mapM (order d)) (q'.orders.mapM (order d)) :=
    .mapM (h.orders.imp fun _ _ => order_alike)
  exact (projection_alike h.selects).bind fun _ _ hcolumns => haggregates.bind fun _ _ haggregates =>
    hjoins.bind fun _ _ hjoins => (conditions_alike h.scopes h.clauses).bind fun _ _ hconditions =>
      horders.bind fun _ _ horders => .ok <|
        alike_append (alike_append (alike_append (alike_append (alike_append
          (alike_words _ (alike_joinWith ", " (List.rel_append hcolumns haggregates)))
          (alike_words _ (tableAs_alike h.table))) (alike_flatten hjoins))
          (alike_withLead " WHERE " " AND " hconditions))
          (alike_withLead " ORDER BY " ", " horders)) (alike_refl _)

theorem condition_alike {q q' : Query} (h : SameShape q q') :
    Both Alike (condition d q) (condition d q') :=
  (conditions_alike h.scopes h.clauses).bind fun _ _ hparts => .ok (alike_joinWith _ hparts)

/-! ## Texts of alike pieces -/

/-- A token without the spelling of a name. -/
def Token.nameless : Token → Token
  | .name _ => .name ""
  | token => token

theorem Alike.tokens {s s' : Statement} (h : Alike s s') (n : Nat) :
    (s.tokens d n).map Token.nameless = (s'.tokens d n).map Token.nameless := by
  induction h generalizing n with
  | nil => rfl
  | @cons piece piece' _ _ hpiece _ ih =>
    cases piece with
    | words text =>
      cases piece' with
      | words text' =>
        obtain rfl : text = text' := hpiece
        simp only [Statement.tokens, List.map_append, ih]
      | name | bound => cases hpiece
    | name identifier =>
      cases piece' with
      | name identifier' =>
        simp only [Statement.tokens, List.map_cons, ih]
        rfl
      | words | bound => cases hpiece
    | bound value =>
      cases piece' with
      | bound value' => simp only [Statement.tokens, List.map_cons, ih]
      | words | name => cases hpiece

theorem Alike.write {s s' : Statement} (h : Alike s s') (hnames : s.names = s'.names) (n : Nat) :
    s.write d n = s'.write d n := by
  induction h generalizing n with
  | nil => rfl
  | @cons piece piece' _ _ hpiece _ ih =>
    cases piece with
    | words text =>
      cases piece' with
      | words text' =>
        obtain rfl : text = text' := hpiece
        rw [write_words, write_words, ih hnames]
      | name | bound => cases hpiece
    | name identifier =>
      cases piece' with
      | name identifier' =>
        obtain ⟨hname, hrest⟩ := List.cons.inj hnames
        rw [write_name, write_name, hname, ih hrest]
      | words | bound => cases hpiece
    | bound value =>
      cases piece' with
      | bound value' => rw [write_bound, write_bound, ih hnames]
      | words | name => cases hpiece

end

/-! ## Names and words of a text -/

/-- The names that a query gives, in the order in which they are written. -/
def selectNames (q : Query) : List String := (queryContents q).filterMap Piece.name?

/-- The names that the condition of a query gives. -/
def conditionNames (q : Query) : List String := (conditionContents q).filterMap Piece.name?

/-- What a text gives away: its names are those it was given, in order, and it has the tokens of
every text that is rendered for a query of the same shape, but for the names. -/
structure Uninjected (d : Dialect) (render : Query → Except Failure Rendered)
    (names : Query → List String) (q : Query) (r : Rendered) : Prop where
  names_read : (tokenize d r.sql).filterMap Token.name? = names q
  same_words : ∀ q', SameShape q q' → ∃ r', render q' = .ok r' ∧
    (tokenize d r'.sql).map Token.nameless = (tokenize d r.sql).map Token.nameless ∧
    (names q' = names q → r'.sql = r.sql)

theorem uninjected {d : Dialect} {build : Query → Except Failure Statement}
    {render : Query → Except Failure Rendered} {contents : Query → List Piece}
    (hrender : ∀ q, render q = (build q).map (Statement.rendered d))
    (hcontents : ∀ q s, build q = .ok s → s.contents = contents q)
    (hapart : ∀ q s, build q = .ok s → apart d false s = true)
    (halike : ∀ q q', SameShape q q' → Both Alike (build q) (build q'))
    {q : Query} {r : Rendered} (h : render q = .ok r) :
    Uninjected d render (fun q => (contents q).filterMap Piece.name?) q r := by
  rw [hrender] at h
  obtain ⟨s, hs, rfl⟩ := map_eq_ok h
  have hnames : ∀ q s, build q = .ok s → s.names = (contents q).filterMap Piece.name? := by
    intro q s hs
    rw [names_eq, hcontents q s hs]
  constructor
  · exact (names_tokenize (hapart q s hs)).trans (hnames q s hs)
  · intro q' hshape
    have hboth := halike q q' hshape
    rw [hs] at hboth
    cases hs' : build q' with
    | error e =>
      rw [hs'] at hboth
      cases hboth
    | ok s' =>
      rw [hs'] at hboth
      cases hboth with
      | ok h =>
        refine ⟨s'.rendered d, by rw [hrender, hs']; rfl, ?_, fun hsame => ?_⟩
        · show (tokenize d (s'.sql d)).map _ = (tokenize d (s.sql d)).map _
          rw [tokenize_sql (hapart q s hs), tokenize_sql (hapart q' s' hs'), h.tokens]
        · exact (h.write ((hnames q s hs).trans (hsame.symm.trans (hnames q' s' hs').symm)) 0).symm

/-- Neither names nor values change the words of a text: the names read from it are those of the
query in order, and it differs from the text of any query of the same shape in names only. -/
theorem rendered_uninjected (d : Dialect) (q : Query) (r : Rendered) :
    (renderSelect d q = .ok r → Uninjected d (renderSelect d) selectNames q r) ∧
    (renderCondition d q = .ok r → Uninjected d (renderCondition d) conditionNames q r) :=
  ⟨uninjected renderSelect_eq (fun _ _ => select_contents) (fun _ _ => select_apart)
      fun _ _ => select_alike,
    uninjected renderCondition_eq (fun _ _ => condition_contents) (fun _ _ => condition_apart)
      fun _ _ => condition_alike⟩

theorem rendered_uninjected_sample :
    ∃ r r', renderSelect .postgres (Sample.valued "deals" "x\x22 = 1 OR \x22y" (.text "$2")) = .ok r ∧
      renderSelect .postgres (Sample.valued "deals" "name" .null) = .ok r' ∧
      (tokenize .postgres r.sql).filterMap Token.name? =
        ["deals", "deals", "deals", "x\x22 = 1 OR \x22y"] ∧
      (tokenize .postgres r'.sql).map Token.nameless =
        (tokenize .postgres r.sql).map Token.nameless := by
  obtain ⟨r, hr⟩ : ∃ r, renderSelect .postgres
    (Sample.valued "deals" "x\x22 = 1 OR \x22y" (.text "$2")) = .ok r := ⟨_, rfl⟩
  obtain ⟨hnames, hwords⟩ := (rendered_uninjected .postgres _ r).1 hr
  have hshape : SameShape (Sample.valued "deals" "x\x22 = 1 OR \x22y" (.text "$2"))
      (Sample.valued "deals" "name" .null) := by
    refine ⟨.nil, .nil, Iff.rfl, .nil, .nil, ?_, .nil, rfl, rfl⟩
    exact ⟨rfl, ⟨trivial, rfl⟩, trivial⟩
  obtain ⟨r', hr', htokens, -⟩ := hwords _ hshape
  exact ⟨r, r', hr, hr', hnames, htokens⟩

end Winnow.Sql
