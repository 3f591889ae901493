import Winnow.Proofs.Sql.Tokens
import Winnow.Proofs.Success

/-!
# Pieces of rendered statements stay apart

Every name and every bound value of a rendered statement is followed by nothing
or by words that begin with a separator, so that no piece runs into the next
one (`select_apart`, `condition_apart`).  The words of a statement are fixed,
but for the numbers of its limit and offset.
-/

namespace Winnow.Sql

open Winnow.Text

/-! ## Words between pieces -/

/-- Whether words end the token before them and leave none open. -/
def isBridge (d : Dialect) (text : String) : Bool :=
  wordsApart d true text && !leavesOpen d true text

/-- Whether words may stand in front and leave no token open. -/
def isLead (d : Dialect) (text : String) : Bool :=
  wordsApart d false text && !leavesOpen d false text

section
variable {d : Dialect}

theorem apart_bridge {text : String} {s : Statement} (htext : isBridge d text = true)
    (hs : apart d false s = true) : apart d true (.words text :: s) = true := by
  simp only [isBridge, Bool.and_eq_true, Bool.not_eq_true'] at htext
  simp only [apart, Bool.and_eq_true]
  exact ⟨htext.1, by rw [htext.2]; exact hs⟩

theorem apart_lead {text : String} {s : Statement} (htext : isLead d text = true)
    (hs : apart d false s = true) : apart d false (.words text :: s) = true := by
  simp only [isLead, Bool.and_eq_true, Bool.not_eq_true'] at htext
  simp only [apart, Bool.and_eq_true]
  exact ⟨htext.1, by rw [htext.2]; exact hs⟩

theorem apart_parenthesized {s : Statement} (hs : apart d false s = true) :
    apart d false (Statement.parenthesized s) = true := by
  refine apart_lead (by cases d <;> rfl) (apart_append hs ?_)
  cases d <;> rfl

theorem apart_joinWith {separator : String} (hseparator : isBridge d separator = true)
    {parts : List Statement} (hparts : ∀ s ∈ parts, apart d false s = true) :
    apart d false (Statement.joinWith separator parts) = true := by
  induction parts with
  | nil => rfl
  | cons s rest ih =>
    have hs := hparts s List.mem_cons_self
    have hrest := ih fun t ht => hparts t (List.mem_cons_of_mem s ht)
    cases rest with
    | nil => exact hs
    | cons next rest => exact apart_append hs (apart_bridge hseparator hrest)

theorem apart_withLead {lead separator : String} (hlead : isBridge d lead = true)
    (hseparator : isBridge d separator = true) {parts : List Statement}
    (hparts : ∀ s ∈ parts, apart d false s = true) :
    apart d true (withLead lead separator parts) = true := by
  unfold withLead
  split
  · rfl
  · exact apart_bridge hlead (apart_joinWith hseparator hparts)

/-- Statements written one for each member of a list stay apart when each of them does. -/
theorem each_apart {α : Type} {f : α → Except Failure Statement}
    (hf : ∀ a s, f a = .ok s → apart d false s = true) {l : List α} {parts : List Statement}
    (h : l.mapM f = .ok parts) : ∀ s ∈ parts, apart d false s = true := by
  have hall := mapM_eq_ok h
  clear h
  induction hall with
  | nil => simp
  | cons hfirst _ ih =>
    intro s hs
    rcases List.mem_cons.mp hs with rfl | hs
    · exact hf _ _ hfirst
    · exact ih s hs

/-! ## Columns and tests -/

theorem column_apart {c : Column} {s : Statement} (h : column d c = .ok s) :
    apart d false s = true := by
  cases c with
  | field qualifier name =>
    cases h
    cases d <;> rfl
  | dateTimeParts qualifier date time =>
    cases d with
    | postgres | mysql | sqlite =>
      cases h
      rfl
    | sqlServer => cases h

theorem constant_apart (value : Bool) : apart d false (constant value) = true := by
  cases d <;> cases value <;> rfl

theorem test_apart {t : Test} {s : Statement} (h : test d t = .ok s) : apart d false s = true := by
  cases t with
  | compare c op value =>
    obtain ⟨column, hcolumn, h⟩ := bind_eq_ok h
    cases h
    refine apart_append (column_apart hcolumn) ?_
    cases d <;> cases op <;> rfl
  | like c pattern negated =>
    obtain ⟨column, hcolumn, h⟩ := bind_eq_ok h
    cases h
    refine apart_append (column_apart hcolumn) ?_
    cases d <;> cases negated <;> rfl
  | member c values negated =>
    rw [test] at h
    by_cases hempty : values.isEmpty = true
    · rw [if_pos hempty] at h
      cases h
      exact constant_apart negated
    · rw [if_neg hempty] at h
      obtain ⟨column, hcolumn, h⟩ := bind_eq_ok h
      cases h
      have hin : isBridge d (if negated then " NOT IN " else " IN ") = true := by
        cases d <;> cases negated <;> rfl
      have hcomma : isBridge d ", " = true := by cases d <;> rfl
      refine apart_append (column_apart hcolumn) (apart_bridge hin (apart_parenthesized ?_))
      refine apart_joinWith hcomma fun s hs => ?_
      obtain ⟨value, -, rfl⟩ := List.mem_map.mp hs
      rfl
  | null c negated =>
    obtain ⟨column, hcolumn, h⟩ := bind_eq_ok h
    cases h
    refine apart_append (column_apart hcolumn) ?_
    cases d <;> cases negated <;> rfl
  | empty c negated =>
    obtain ⟨column, hcolumn, h⟩ := bind_eq_ok h
    cases h
    have hfirst : isBridge d (if negated then (" IS NOT NULL AND ", " <> ")
        else (" IS NULL OR ", " = ")).1 = true := by
      cases d <;> cases negated <;> rfl
    have hcolumn := column_apart hcolumn
    refine apart_parenthesized ?_
    rw [List.append_assoc]
    refine apart_append hcolumn (apart_bridge hfirst (apart_append hcolumn ?_))
    cases d <;> cases negated <;> rfl
  | between c low high negated =>
    obtain ⟨column, hcolumn, h⟩ := bind_eq_ok h
    cases h
    refine apart_append (column_apart hcolumn) ?_
    cases d <;> cases negated <;> rfl

/-! ## Related rows -/

theorem tableAs_apart (table : String) (tableAlias : Option String) :
    apart d false (tableAs table tableAlias) = true := by
  unfold tableAs
  cases tableAlias with
  | none => rfl
  | some tableAlias =>
    simp only
    split
    · rfl
    · cases d <;> rfl

theorem equation_apart (leftQualifier left rightQualifier right : String) :
    apart d false (equation leftQualifier left rightQualifier right) = true := by
  cases d <;> rfl

theorem relatedTables_apart (link : Link) (tableAlias : Option String) :
    apart d false (relatedTables link tableAlias) = true := by
  unfold relatedTables
  split
  · exact tableAs_apart ..
  · rw [List.append_assoc]
    refine apart_append (tableAs_apart ..) ?_
    cases d <;> rfl

theorem linkConditions_apart (link : Link) :
    ∀ s ∈ linkConditions link, apart d false s = true := by
  unfold linkConditions
  intro s hs
  split at hs
  · cases List.mem_singleton.mp hs
    exact equation_apart ..
  · rcases List.mem_cons.mp hs with rfl | hs
    · exact equation_apart ..
    · split at hs
      · cases List.mem_singleton.mp hs
        cases d <;> rfl
      · cases hs

theorem withScopes_apart {alone : Bool} {scopes : List Statement} {count : Nat}
    {clauses : Statement} (hscopes : ∀ s ∈ scopes, apart d false s = true)
    (hclauses : apart d false clauses = true) :
    ∀ s ∈ withScopes Statement.parenthesized alone scopes count clauses, apart d false s = true := by
  unfold withScopes
  split
  · exact hscopes
  · split
    · intro s hs
      rcases List.mem_append.mp hs with hs | hs
      · exact hscopes s hs
      · cases List.mem_singleton.mp hs
        exact hclauses
    · intro s hs
      rcases List.mem_append.mp hs with hs | hs
      · exact hscopes s hs
      · cases List.mem_singleton.mp hs
        exact apart_parenthesized hclauses

theorem and_isBridge : isBridge d " AND " = true := by cases d <;> rfl

theorem relatedBody_apart (link : Link) (q : Query) {scopes : List Statement}
    {clauses : Statement} (hscopes : ∀ s ∈ scopes, apart d false s = true)
    (hclauses : apart d false clauses = true) :
    apart d false (relatedBody link q scopes clauses) = true := by
  have hwhere : isBridge d " WHERE " = true := by cases d <;> rfl
  refine apart_lead (by cases d <;> rfl) (apart_append (relatedTables_apart ..) ?_)
  refine apart_bridge hwhere (apart_joinWith and_isBridge fun s hs => ?_)
  rcases List.mem_append.mp hs with hs | hs
  · exact linkConditions_apart link s hs
  · exact withScopes_apart hscopes hclauses s hs

theorem related_eq (link : Link) (q : Query) :
    related d link q = (do
      let scopes ← q.scopeTests.mapM (test d)
      .ok (relatedBody link q scopes (← clauseList d true q.clauses))) := by
  cases q
  rfl

/-! ## Predicates -/

mutual

theorem predicate_apart : (p : Predicate) → {s : Statement} → predicate d p = .ok s →
    apart d false s = true
  | .test t, s, h => test_apart h
  | .nested [], s, h => by
    cases h
    exact constant_apart true
  | .nested (clause :: rest), s, h => by
    obtain ⟨clauses, hclauses, h⟩ := bind_eq_ok h
    cases h
    exact apart_parenthesized (clauseList_apart true (clause :: rest) hclauses)
  | .related link query negated, s, h => by
    obtain ⟨body, hbody, h⟩ := bind_eq_ok h
    cases h
    refine apart_lead ?_ (apart_append (related_apart link query hbody) ?_)
    · cases d <;> cases negated <;> rfl
    · cases d <;> rfl
  | .counted link query op bound, s, h => by
    obtain ⟨body, hbody, h⟩ := bind_eq_ok h
    cases h
    refine apart_lead ?_ (apart_append (related_apart link query hbody) ?_)
    · cases d <;> rfl
    · cases d <;> cases op <;> rfl
  | .const value, s, h => by
    cases h
    exact constant_apart value

theorem clauseList_apart (isFirst : Bool) : (clauses : List Clause) → {s : Statement} →
    clauseList d isFirst clauses = .ok s → apart d (!isFirst) s = true
  | [], s, h => by
    cases h
    rfl
  | ⟨connective, p⟩ :: rest, s, h => by
    obtain ⟨first, hfirst, h⟩ := bind_eq_ok h
    obtain ⟨others, hothers, h⟩ := bind_eq_ok h
    cases h
    have hfirst := predicate_apart p hfirst
    have hothers := clauseList_apart false rest hothers
    cases isFirst with
    | true => exact apart_append hfirst hothers
    | false =>
      refine apart_append (apart_bridge ?_ hfirst) hothers
      cases d <;> cases connective <;> rfl

theorem related_apart (link : Link) : (q : Query) → {s : Statement} →
    related d link q = .ok s → apart d false s = true
  | ⟨entity, tableAlias, depth, clauses, joins, orders, selects, eager, aggregates, limit, offset,
      removed⟩, s, h => by
    obtain ⟨scopes, hscopes, h⟩ := bind_eq_ok h
    obtain ⟨own, hown, h⟩ := bind_eq_ok h
    cases h
    exact relatedBody_apart link _ (each_apart (fun _ _ => test_apart) hscopes) (clauseList_apart true clauses hown)

end

/-! ## Words with numbers -/

/-- Whether a character stands for itself outside quotes. -/
def isPlainChar (d : Dialect) (c : Char) : Bool :=
  c != d.opening && c != '\'' && c != '?' && c != '$'

/-- Whether nothing but a word is being read. -/
def Scan.isPlain : Scan → Bool
  | .between | .word _ => true
  | _ => false

theorem start_plain {c : Char} (h : isPlainChar d c = true) :
    (Scan.start d c).2.isPlain = true ∧ (Scan.start d c).1.all Token.isFixed = true := by
  simp only [isPlainChar, Bool.and_eq_true, bne_iff_ne, ne_eq] at h
  obtain ⟨⟨⟨hopening, hquote⟩, hmark⟩, hdollar⟩ := h
  unfold Scan.start
  rw [if_neg hopening, if_neg hquote, if_neg fun hc => hmark hc.1, if_neg fun hc => hdollar hc.1]
  split
  · exact ⟨rfl, rfl⟩
  · split <;> exact ⟨rfl, rfl⟩

theorem step_plain {s : Scan} (hs : s.isPlain = true) {c : Char} (hc : isPlainChar d c = true) :
    (s.step d c).2.isPlain = true ∧ (s.step d c).1.all Token.isFixed = true := by
  have hstart := start_plain hc
  cases s with
  | between => exact hstart
  | word chars =>
    unfold Scan.step
    simp only
    split
    · exact ⟨rfl, rfl⟩
    · simpa [Scan.restart, Scan.tokens, Token.isFixed] using hstart
  | name | nameEnd | literal | literalEnd | placeholder => cases hs

/-- Plain characters give no names and no placeholders and leave at most a word open. -/
theorem run_plain {s : Scan} (hs : s.isPlain = true) {cs : List Char}
    (hcs : cs.all (isPlainChar d) = true) :
    (s.run d cs).2.isPlain = true ∧ (s.run d cs).1.all Token.isFixed = true := by
  induction cs generalizing s with
  | nil => exact ⟨hs, rfl⟩
  | cons c cs ih =>
    simp only [List.all_cons, Bool.and_eq_true] at hcs
    have hstep := step_plain hs hcs.1
    have hrest := ih hstep.1 hcs.2
    exact ⟨hrest.1, by simp only [Scan.run, List.all_append, hstep.2, hrest.2, Bool.and_self]⟩

/-- Plain words that begin with a separator may stand behind any token. -/
theorem wordsApart_of_plain {isOpen : Bool} {text : String}
    (hplain : text.toList.all (isPlainChar d) = true)
    (hhead : isOpen = true → (text.toList.head?.map isSeparator).getD true = true) :
    wordsApart d isOpen text = true := by
  obtain ⟨hlast, htokens⟩ := run_plain (s := .between) rfl hplain
  simp only [wordsApart, tokenize, Bool.and_eq_true, Bool.or_eq_true, Bool.not_eq_true',
    List.all_append]
  refine ⟨?_, ?_, htokens, ?_⟩
  · cases isOpen with
    | false => exact .inl rfl
    | true => exact .inr (hhead rfl)
  all_goals
    revert hlast
    cases (Scan.between.run d text.toList).2 <;> simp [Scan.isPlain, Scan.isEnded, Scan.tokens,
      Token.isFixed]

theorem natText_plain (n : Nat) : (natText n).toList.all (isPlainChar d) = true := by
  rw [natText, String.toList_ofList, List.all_eq_true]
  intro c hc
  have hdigit : c.isDigit = true := Nat.isDigit_of_mem_toDigits (by decide) (by decide) hc
  simp only [isPlainChar, Bool.and_eq_true, bne_iff_ne, ne_eq]
  refine ⟨⟨⟨?_, ?_⟩, ?_⟩, ?_⟩ <;> rintro rfl <;> revert hdigit
  · cases d <;> decide
  all_goals decide

theorem run_blank {cs : List Char} (h : cs.all (isPlainChar d) = true) :
    (Scan.between.run d (cs ++ [' '])).2 = .between := by
  have hlast := (run_plain (s := .between) rfl h).1
  have hblank : ∀ s : Scan, s.isPlain = true → (s.step d ' ').2 = .between := by
    intro s hs
    cases s with
    | between => cases d <;> rfl
    | word chars => cases d <;> rfl
    | name | nameEnd | literal | literalEnd | placeholder => cases hs
  rw [Scan.run_append]
  exact hblank _ hlast

theorem top_cases (q : Query) :
    top d q = "" ∨ ∃ limit, top d q = "TOP " ++ natText limit ++ " " := by
  unfold top
  split
  · exact .inr ⟨_, rfl⟩
  · exact .inl rfl

theorem selectTop_plain (n : Nat) :
    ("SELECT TOP " ++ natText n).toList.all (isPlainChar d) = true := by
  rw [String.toList_append, List.all_append, natText_plain]
  cases d <;> rfl

theorem top_isLead (q : Query) : isLead d ("SELECT " ++ top d q) = true := by
  rcases top_cases (d := d) q with htop | ⟨limit, htop⟩
  · rw [htop]
    cases d <;> rfl
  · have hwords : ("SELECT " ++ top d q).toList = ("SELECT TOP " ++ natText limit).toList ++ [' '] := by
      rw [htop]
      simp
    have hplain := selectTop_plain (d := d) limit
    have hwhole : wordsApart d false ("SELECT " ++ top d q) = true := by
      refine wordsApart_of_plain ?_ (by simp)
      rw [hwords, List.all_append, hplain]
      cases d <;> rfl
    simp only [isLead, leavesOpen, hwhole, hwords, run_blank hplain]
    simp

/-- What the words for limit and offset begin with, when there are any. -/
def pagingLeads : List String := [" LIMIT ", " OFFSET ", " ORDER BY (SELECT 0) OFFSET "]

theorem plain_append {a b : String} (ha : a.toList.all (isPlainChar d) = true)
    (hb : b.toList.all (isPlainChar d) = true) : (a ++ b).toList.all (isPlainChar d) = true := by
  rw [String.toList_append, List.all_append, ha, hb]
  rfl

/-- A number between words, if there is one. -/
def numberText (before : String) (n : Option Nat) (behind : String) : String :=
  match n with
  | some n => before ++ natText n ++ behind
  | none => ""

theorem numberText_plain {before behind : String}
    (hbefore : before.toList.all (isPlainChar d) = true)
    (hbehind : behind.toList.all (isPlainChar d) = true) (n : Option Nat) :
    (numberText before n behind).toList.all (isPlainChar d) = true := by
  cases n with
  | none => rfl
  | some n => exact plain_append (plain_append hbefore (natText_plain n)) hbehind

/-- Dialects other than the last one write limit and offset alike. -/
theorem paging_common (hd : d ≠ .sqlServer) (q : Query) :
    paging d q = numberText " LIMIT " q.limit "" ++ numberText " OFFSET " q.offset "" := by
  cases d with
  | sqlServer => exact absurd rfl hd
  | postgres | mysql | sqlite => rfl

theorem paging_cases (q : Query) :
    paging d q = "" ∨ ∃ lead ∈ pagingLeads, ∃ rest, paging d q = lead ++ rest ∧
      rest.toList.all (isPlainChar d) = true := by
  have hempty : ("" : String).toList.all (isPlainChar d) = true := rfl
  by_cases hd : d = .sqlServer
  · subst hd
    have hlimit : (numberText " FETCH NEXT " q.limit " ROWS ONLY").toList.all
        (isPlainChar .sqlServer) = true := numberText_plain rfl rfl q.limit
    cases hoffset : q.offset with
    | none =>
      left
      rw [paging, hoffset]
    | some offset =>
      right
      have hrest := plain_append (plain_append (natText_plain offset) (b := " ROWS") rfl) hlimit
      cases horders : q.orders.isEmpty with
      | false =>
        refine ⟨" OFFSET ", by decide, _, ?_, hrest⟩
        simp only [paging, hoffset, horders, String.append_assoc]
        rfl
      | true =>
        refine ⟨" ORDER BY (SELECT 0) OFFSET ", by decide, _, ?_, hrest⟩
        simp only [paging, hoffset, horders, String.append_assoc]
        rfl
  · rw [paging_common hd]
    have hwords : (" OFFSET " : String).toList.all (isPlainChar d) = true := by cases d <;> rfl
    cases q.limit with
    | none =>
      cases q.offset with
      | none => exact .inl rfl
      | some offset =>
        exact .inr ⟨" OFFSET ", by decide, natText offset, by simp [numberText], natText_plain offset⟩
    | some limit =>
      refine .inr ⟨" LIMIT ", by decide, _, ?_,
        plain_append (natText_plain limit) (numberText_plain hwords hempty q.offset)⟩
      simp [numberText, String.append_assoc]

theorem paging_apart (q : Query) : wordsApart d true (paging d q) = true := by
  rcases paging_cases (d := d) q with hpaging | ⟨lead, hlead, rest, hpaging, hplain⟩
  · rw [hpaging]
    cases d <;> rfl
  · rw [hpaging]
    simp only [pagingLeads, List.mem_cons, List.not_mem_nil, or_false] at hlead
    rcases hlead with rfl | rfl | rfl
    all_goals
      refine wordsApart_of_plain (plain_append ?_ hplain) fun _ => by simp [isSeparator]
      cases d <;> rfl

/-! ## Whole statements -/

theorem aggregateExpression_apart {a : Aggregate} {s : Statement}
    (h : aggregateExpression d a = .ok s) : apart d false s = true := by
  obtain ⟨body, hbody, h⟩ := bind_eq_ok h
  have hbody := related_apart a.link a.query hbody
  have hclose : isBridge d ") " = true := by cases d <;> rfl
  split at h
  · cases h
    refine apart_lead (by cases d <;> rfl) (apart_append hbody ?_)
    cases d <;> rfl
  · cases h
    refine apart_lead (by cases d <;> rfl) (apart_append hbody ?_)
    cases d <;> rfl
  · cases h
    have hlead : isLead d ("(SELECT " ++ a.function.keyword ++ "(") = true := by
      cases d <;> cases a.function <;> rfl
    have hcolumn : apart d false (qualified a.query.qualifier (a.column.getD "id")) = true := by
      cases d <;> rfl
    simp only [List.append_assoc, List.cons_append]
    refine apart_lead hlead (apart_append hcolumn (apart_bridge hclose (apart_append hbody ?_)))
    cases d <;> rfl

theorem aggregate_apart {a : Aggregate} {s : Statement} (h : aggregate d a = .ok s) :
    apart d false s = true := by
  obtain ⟨expression, hexpression, h⟩ := bind_eq_ok h
  cases h
  refine apart_append (aggregateExpression_apart hexpression) ?_
  cases d <;> rfl

theorem projection_apart {q : Query} {columns : List Statement}
    (h : projection d q = .ok columns) : ∀ s ∈ columns, apart d false s = true := by
  unfold projection at h
  split at h
  · cases h
    intro s hs
    cases List.mem_singleton.mp hs
    cases d <;> rfl
  · exact each_apart (fun _ _ => column_apart) h

theorem join_apart {j : Join} {s : Statement} (h : join d j = .ok s) : apart d true s = true := by
  obtain ⟨first, hfirst, h⟩ := bind_eq_ok h
  obtain ⟨second, hsecond, h⟩ := bind_eq_ok h
  obtain ⟨conditions, hconditions, h⟩ := bind_eq_ok h
  cases h
  have hkind : isBridge d (" " ++ j.kind.keyword ++ " ") = true := by
    cases d <;> cases j.kind <;> rfl
  have hon : isBridge d " ON " = true := by cases d <;> rfl
  have hequal : isBridge d " = " = true := by cases d <;> rfl
  refine apart_bridge hkind (apart_append (tableAs_apart ..) (apart_bridge hon ?_))
  refine apart_joinWith and_isBridge fun s hs => ?_
  rcases List.mem_cons.mp hs with rfl | hs
  · exact apart_append (column_apart hfirst) (apart_bridge hequal (column_apart hsecond))
  · exact each_apart (fun p _ => predicate_apart p) hconditions s hs

theorem joins_apart {l : List Join} {joins : List Statement} (h : l.mapM (join d) = .ok joins) :
    apart d true joins.flatten = true := by
  have hall := mapM_eq_ok h
  clear h
  induction hall with
  | nil => rfl
  | cons hfirst _ ih => exact apart_append (join_apart hfirst) ih

theorem order_apart {o : Order} {s : Statement} (h : order d o = .ok s) :
    apart d false s = true := by
  have hdirection : apart d true [.words (" " ++ o.direction.keyword)] = true := by
    cases d <;> cases o.direction <;> rfl
  unfold order at h
  split at h
  · obtain ⟨target, htarget, h⟩ := bind_eq_ok h
    cases h
    exact apart_append (column_apart htarget) hdirection
  · cases h
    exact apart_append rfl hdirection

theorem conditions_apart {q : Query} {parts : List Statement} (h : conditions d q = .ok parts) :
    ∀ s ∈ parts, apart d false s = true := by
  obtain ⟨scopes, hscopes, h⟩ := bind_eq_ok h
  obtain ⟨clauses, hclauses, h⟩ := bind_eq_ok h
  cases h
  exact withScopes_apart (each_apart (fun _ _ => test_apart) hscopes)
    (clauseList_apart true q.clauses hclauses)

/-- The pieces of a statement that selects rows stay apart. -/
theorem select_apart {q : Query} {s : Statement} (h : select d q = .ok s) :
    apart d false s = true := by
  obtain ⟨columns, hcolumns, h⟩ := bind_eq_ok h
  obtain ⟨aggregates, haggregates, h⟩ := bind_eq_ok h
  obtain ⟨joins, hjoins, h⟩ := bind_eq_ok h
  obtain ⟨conditions, hconditions, h⟩ := bind_eq_ok h
  obtain ⟨orders, horders, h⟩ := bind_eq_ok h
  cases h
  have hcomma : isBridge d ", " = true := by cases d <;> rfl
  have hfrom : isBridge d " FROM " = true := by cases d <;> rfl
  have hwhere : isBridge d " WHERE " = true := by cases d <;> rfl
  have horderBy : isBridge d " ORDER BY " = true := by cases d <;> rfl
  have houtputs : apart d false (Statement.joinWith ", " (columns ++ aggregates)) = true := by
    refine apart_joinWith hcomma fun s hs => ?_
    rcases List.mem_append.mp hs with hs | hs
    · exact projection_apart hcolumns s hs
    · exact each_apart (fun _ _ => aggregate_apart) haggregates s hs
  simp only [List.append_assoc, List.cons_append]
  refine apart_lead (top_isLead q) (apart_append houtputs ?_)
  refine apart_bridge hfrom (apart_append (tableAs_apart ..) ?_)
  refine apart_append (joins_apart hjoins) ?_
  refine apart_append (apart_withLead hwhere and_isBridge (conditions_apart hconditions)) ?_
  refine apart_append (apart_withLead horderBy hcomma
    (each_apart (fun _ _ => order_apart) horders)) ?_
  simp [apart, paging_apart]

/-- So do those of a condition alone. -/
theorem condition_apart {q : Query} {s : Statement} (h : condition d q = .ok s) :
    apart d false s = true := by
  obtain ⟨parts, hparts, h⟩ := bind_eq_ok h
  cases h
  exact apart_joinWith and_isBridge (conditions_apart hparts)

end

end Winnow.Sql
