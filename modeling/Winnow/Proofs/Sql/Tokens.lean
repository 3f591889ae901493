import Winnow.Proofs.Sql.Pieces

/-!
# Tokens of a statement

A statement is cut into tokens as its dialect quotes: a name between quotes, in
which the closing quote written twice stands for itself, a literal between
apostrophes, a placeholder, a word, or a single sign.  `Scan` is what is being
read, `Scan.step` reads one character, and `tokenize` reads a text.

Pieces that stay apart (`apart`) can be read one by one, whatever the names are:

    apart d false s → tokenize d (s.sql d) = s.tokens d 0            (tokenize_sql)

and putting the bound values in for the placeholders gives the pieces with
their values:

    fill s.bindings 0 (s.tokens d 0) = some (s.valued d)             (fill_tokens)
-/

namespace Winnow.Sql

open Winnow.Text

/-! ## Reading characters -/

/-- A token of a statement. -/
inductive Token where
  | name (identifier : String)
  | literal (text : String)
  /-- A placeholder, with its number where the dialect writes one. -/
  | placeholder (number : Option Nat)
  /-- A placeholder with the value that is bound to it. -/
  | value (value : Value)
  | word (text : String)
  | symbol (c : Char)
  deriving DecidableEq, Repr

/-- What is being read; the characters read of it come newest first. -/
inductive Scan where
  | between
  | name (chars : List Char)
  /-- Behind a closing quote, which may be the first of two. -/
  | nameEnd (chars : List Char)
  | literal (chars : List Char)
  | literalEnd (chars : List Char)
  | placeholder (digits : List Char)
  | word (chars : List Char)
  deriving DecidableEq, Repr

/-- Whether a character belongs to words. -/
def isWordChar (c : Char) : Bool := c.isAlphanum || c == '_'

namespace Scan

/-- The token that is complete when the text ends here. -/
def tokens : Scan → List Token
  | .nameEnd chars => [.name (String.ofList chars.reverse)]
  | .literalEnd chars => [.literal (String.ofList chars.reverse)]
  | .placeholder digits => [.placeholder (some (Nat.ofDigitChars 10 digits.reverse 0))]
  | .word chars => [.word (String.ofList chars.reverse)]
  | .between | .name _ | .literal _ => []

/-- Reads a character that no token before it goes on with. -/
def start (d : Dialect) (c : Char) : List Token × Scan :=
  if c = d.opening then ([], .name [])
  else if c = '\'' then ([], .literal [])
  else if c = '?' ∧ d ≠ .postgres then ([.placeholder none], .between)
  else if c = '$' ∧ d = .postgres then ([], .placeholder [])
  else if isWordChar c then ([], .word [c])
  else if c = ' ' then ([], .between)
  else ([.symbol c], .between)

/-- Completes what was being read and reads a character anew. -/
def restart (d : Dialect) (s : Scan) (c : Char) : List Token × Scan :=
  (s.tokens ++ (start d c).1, (start d c).2)

/-- Reads one character. -/
def step (d : Dialect) (s : Scan) (c : Char) : List Token × Scan :=
  match s with
  | .between => start d c
  | .name chars => ([], if c = d.closing then .nameEnd chars else .name (c :: chars))
  | .nameEnd chars => if c = d.closing then ([], .name (c :: chars)) else restart d s c
  | .literal chars => ([], if c = '\'' then .literalEnd chars else .literal (c :: chars))
  | .literalEnd chars => if c = '\'' then ([], .literal (c :: chars)) else restart d s c
  | .placeholder digits => if c.isDigit then ([], .placeholder (c :: digits)) else restart d s c
  | .word chars => if isWordChar c then ([], .word (c :: chars)) else restart d s c

/-- Reads characters: the tokens completed, and what is being read in the end. -/
def run (d : Dialect) (s : Scan) : List Char → List Token × Scan
  | [] => ([], s)
  | c :: rest =>
    let next := s.step d c
    let last := run d next.2 rest
    (next.1 ++ last.1, last.2)

/-- Whether a token begun has all its quotes. -/
def isEnded : Scan → Bool
  | .name _ | .literal _ => false
  | _ => true

end Scan

/-- The tokens of a text. -/
def tokenize (d : Dialect) (text : String) : List Token :=
  let last := Scan.between.run d text.toList
  last.1 ++ last.2.tokens

/-- Puts values in for placeholders: the `k`-th value for the placeholder with number `k`, or for
the `k`-th from the left where they have none; `n` placeholders came before. -/
def fill (values : List Value) : Nat → List Token → Option (List Token)
  | _, [] => some []
  | n, .placeholder number :: rest => do
    let value ← values[number.getD (n + 1) - 1]?
    let rest ← fill values (n + 1) rest
    some (.value value :: rest)
  | n, token :: rest => do
    let rest ← fill values n rest
    some (token :: rest)

/-! ## Pieces -/

/-- What follows the number of a placeholder in the tokens of a dialect. -/
def placeholderNumber (d : Dialect) (n : Nat) : Option Nat :=
  if d = .postgres then some n else none

namespace Statement

/-- The tokens of pieces that are read one by one; `n` values were bound before. -/
def tokens (d : Dialect) : Nat → Statement → List Token
  | _, [] => []
  | n, .words text :: rest => tokenize d text ++ tokens d n rest
  | n, .name identifier :: rest => .name identifier :: tokens d n rest
  | n, .bound _ :: rest => .placeholder (placeholderNumber d (n + 1)) :: tokens d (n + 1) rest

/-- The tokens of pieces with the values that are bound. -/
def valued (d : Dialect) (s : Statement) : List Token :=
  s.flatMap fun
    | .words text => tokenize d text
    | .name identifier => [.name identifier]
    | .bound value => [.value value]

end Statement

/-- Whether a character ends every name, placeholder and word before it. -/
def isSeparator (c : Char) : Bool := c == ' ' || c == ')' || c == ',' || c == '.'

/-- Whether a token is part of the words of a statement, neither a name nor a value. -/
def Token.isFixed : Token → Bool
  | .literal _ | .word _ | .symbol _ => true
  | .name _ | .placeholder _ | .value _ => false

/-- Whether words can stand where a token may be open, which they then end, and are whole: they
leave no quote open and hold neither names nor placeholders. -/
def wordsApart (d : Dialect) (isOpen : Bool) (text : String) : Bool :=
  (!isOpen || (text.toList.head?.map isSeparator).getD true) &&
    ((Scan.between.run d text.toList).2.isEnded && (tokenize d text).all Token.isFixed)

/-- Whether a token is open behind words. -/
def leavesOpen (d : Dialect) (isOpen : Bool) (text : String) : Bool :=
  (text.toList.isEmpty && isOpen) || (Scan.between.run d text.toList).2 != .between

/-- Whether no two pieces run together; a token may be open before the first. -/
def apart (d : Dialect) (isOpen : Bool) : Statement → Bool
  | [] => true
  | .words text :: rest => wordsApart d isOpen text && apart d (leavesOpen d isOpen text) rest
  | .name _ :: rest | .bound _ :: rest => !isOpen && apart d true rest

/-! ## Runs -/

namespace Scan

variable {d : Dialect}

theorem run_append (s : Scan) (cs rest : List Char) :
    s.run d (cs ++ rest) =
      ((s.run d cs).1 ++ ((s.run d cs).2.run d rest).1, ((s.run d cs).2.run d rest).2) := by
  induction cs generalizing s with
  | nil => simp [run]
  | cons c cs ih =>
    simp only [List.cons_append, run]
    rw [ih]
    simp

theorem separator_cases {c : Char} (h : isSeparator c = true) :
    c = ' ' ∨ c = ')' ∨ c = ',' ∨ c = '.' := by
  unfold isSeparator at h
  simpa [or_assoc] using h

/-- A separator ends what was being read. -/
theorem step_separator {s : Scan} (hs : s.isEnded = true) {c : Char} (hc : isSeparator c = true) :
    s.step d c = s.restart d c := by
  have hclosing : c ≠ d.closing := by
    rcases separator_cases hc with rfl | rfl | rfl | rfl <;> cases d <;> decide
  have hquote : c ≠ '\'' := by
    rcases separator_cases hc with rfl | rfl | rfl | rfl <;> decide
  have hdigit : c.isDigit = false := by
    rcases separator_cases hc with rfl | rfl | rfl | rfl <;> decide
  have hword : isWordChar c = false := by
    rcases separator_cases hc with rfl | rfl | rfl | rfl <;> decide
  cases s with
  | between => rfl
  | name chars => cases hs
  | nameEnd chars => exact if_neg hclosing
  | literal chars => cases hs
  | literalEnd chars => exact if_neg hquote
  | placeholder digits => simp [step, hdigit]
  | word chars => simp [step, hword]

/-- Characters that begin anew are read as if nothing came before them. -/
theorem run_restart {s : Scan} {c : Char} (h : s.step d c = s.restart d c) (rest : List Char) :
    s.run d (c :: rest) =
      (s.tokens ++ (Scan.between.run d (c :: rest)).1, (Scan.between.run d (c :: rest)).2) := by
  have hstart : Scan.between.step d c = start d c := rfl
  simp only [run]
  rw [h, hstart]
  simp [restart]

/-- The characters of a name: its quotes are written twice. -/
theorem run_name (chars cs : List Char) :
    (Scan.name chars).run d
        (cs.flatMap (fun c => if c = d.closing then [c, c] else [c]) ++ [d.closing]) =
      ([], .nameEnd (cs.reverse ++ chars)) := by
  induction cs generalizing chars with
  | nil => simp [run, step]
  | cons c cs ih =>
    rw [List.flatMap_cons, List.append_assoc]
    by_cases hc : c = d.closing
    · rw [if_pos hc]
      have hdouble : (Scan.name chars).run d [c, c] = ([], .name (c :: chars)) := by
        simp [run, step, hc]
      rw [run_append, hdouble, ih]
      simp
    · rw [if_neg hc]
      have hsingle : (Scan.name chars).run d [c] = ([], .name (c :: chars)) := by
        simp [run, step, hc]
      rw [run_append, hsingle, ih]
      simp

theorem run_quote (identifier : String) :
    Scan.between.run d (d.quote identifier).toList =
      ([], .nameEnd identifier.toList.reverse) := by
  have hopening : Scan.between.step d d.opening = ([], .name []) := by
    simp [step, start]
  unfold Dialect.quote Dialect.quoteChars
  rw [String.toList_ofList, List.cons_append, run, hopening, run_name]
  simp

theorem run_digits (digits cs : List Char) (h : ∀ c ∈ cs, c.isDigit = true) :
    (Scan.placeholder digits).run d cs = ([], .placeholder (cs.reverse ++ digits)) := by
  induction cs generalizing digits with
  | nil => rfl
  | cons c cs ih =>
    have hc : (Scan.placeholder digits).step d c = ([], .placeholder (c :: digits)) := by
      simp [step, h c List.mem_cons_self]
    rw [run, hc, ih _ fun c' hc' => h c' (List.mem_cons_of_mem c hc')]
    simp

theorem run_mark {d : Dialect} (h : d ≠ .postgres) (n : Nat) :
    Scan.between.run d (d.placeholder n).toList = ([.placeholder none], .between) := by
  have hmark : d.placeholder n = "?" := by cases d <;> first | rfl | exact absurd rfl h
  rw [hmark]
  cases d with
  | postgres => exact absurd rfl h
  | mysql | sqlite | sqlServer => decide

theorem run_number (n : Nat) :
    Scan.between.run .postgres (Dialect.postgres.placeholder n).toList =
      ([], .placeholder (Nat.toDigits 10 n).reverse) := by
  have hdollar : Scan.between.step .postgres '$' = ([], .placeholder []) := by decide
  have hdigits : ∀ c ∈ Nat.toDigits 10 n, c.isDigit = true :=
    fun c hc => Nat.isDigit_of_mem_toDigits (by decide) (by decide) hc
  simp only [Dialect.placeholder, natText, String.toList_append, String.toList_ofList]
  rw [show "$".toList = ['$'] from rfl, List.cons_append, List.nil_append, run, hdollar,
    run_digits [] _ hdigits]
  simp

/-- A placeholder is read, with its number where it has one. -/
theorem run_placeholder (n : Nat) :
    (Scan.between.run d (d.placeholder n).toList).1 ++
        (Scan.between.run d (d.placeholder n).toList).2.tokens =
      [.placeholder (placeholderNumber d n)] ∧
    (Scan.between.run d (d.placeholder n).toList).2.isEnded = true := by
  by_cases hd : d = .postgres
  · subst hd
    have hnumber : Nat.ofDigitChars 10 (Nat.toDigits 10 n) 0 = n :=
      Nat.ofDigitChars_toDigits (by decide) (by decide)
    rw [run_number]
    simp [tokens, placeholderNumber, hnumber, isEnded]
  · rw [run_mark hd]
    simp [tokens, placeholderNumber, hd, isEnded]

end Scan

/-! ## Pieces are read one by one -/

section
variable {d : Dialect}

theorem apart_false_of_true {s : Statement} (h : apart d true s = true) :
    apart d false s = true := by
  induction s with
  | nil => rfl
  | cons piece rest ih =>
    cases piece with
    | words text =>
      simp only [apart, wordsApart, leavesOpen, Bool.and_eq_true] at h ⊢
      refine ⟨⟨by simp, h.1.2⟩, ?_⟩
      cases hempty : text.toList.isEmpty with
      | false => simpa [hempty] using h.2
      | true =>
        have hnil : text.toList = [] := List.isEmpty_iff.mp hempty
        simp only [hnil, List.isEmpty_nil, Bool.true_and, Bool.true_or] at h
        simpa [hnil, Scan.run] using ih h.2
    | name identifier => cases h
    | bound value => cases h

/-- What may follow an open token may follow any pieces. -/
theorem apart_append {isOpen : Bool} {s t : Statement} (hs : apart d isOpen s = true)
    (ht : apart d true t = true) : apart d isOpen (s ++ t) = true := by
  induction s generalizing isOpen with
  | nil =>
    cases isOpen with
    | true => exact ht
    | false => exact apart_false_of_true ht
  | cons piece rest ih =>
    cases piece with
    | words text =>
      simp only [apart, List.cons_append, Bool.and_eq_true] at hs ⊢
      exact ⟨hs.1, ih hs.2⟩
    | name identifier =>
      simp only [apart, List.cons_append, Bool.and_eq_true] at hs ⊢
      exact ⟨hs.1, ih hs.2⟩
    | bound value =>
      simp only [apart, List.cons_append, Bool.and_eq_true] at hs ⊢
      exact ⟨hs.1, ih hs.2⟩

/-- A run over words: what was open is completed, and the words are read by themselves. -/
theorem run_words {isOpen : Bool} {text : String} (h : wordsApart d isOpen text = true) {s : Scan}
    (hended : s.isEnded = true) (hopen : isOpen = false → s = .between) :
    ∃ next : Scan, (s.run d text.toList).2 = next ∧ next.isEnded = true ∧
      (leavesOpen d isOpen text = false → next = .between) ∧
      (s.run d text.toList).1 ++ next.tokens = s.tokens ++ tokenize d text := by
  refine ⟨_, rfl, ?_⟩
  simp only [wordsApart, Bool.and_eq_true, Bool.or_eq_true, Bool.not_eq_true'] at h
  unfold leavesOpen tokenize
  cases hchars : text.toList with
  | nil =>
    refine ⟨hended, ?_, by simp [Scan.run, Scan.tokens]⟩
    simpa [Scan.run] using hopen
  | cons c rest =>
    rw [hchars] at h
    have hstep : s.step d c = s.restart d c := by
      rcases h.1 with hclosed | hseparator
      · rw [hopen hclosed]
        rfl
      · exact Scan.step_separator hended (by simpa using hseparator)
    rw [Scan.run_restart hstep]
    refine ⟨h.2.1, ?_, by simp⟩
    simp

/-- Pieces that stay apart are read one by one: induction on the pieces, with what is being read
before the first of them. -/
theorem run_write {isOpen : Bool} {st : Statement} (h : apart d isOpen st = true) (n : Nat)
    {s : Scan} (hended : s.isEnded = true) (hopen : isOpen = false → s = .between) :
    (s.run d (st.write d n).toList).1 ++ (s.run d (st.write d n).toList).2.tokens =
      s.tokens ++ st.tokens d n := by
  induction st generalizing isOpen n s with
  | nil => simp [Statement.write, Statement.tokens, Scan.run]
  | cons piece rest ih =>
    cases piece with
    | words text =>
      simp only [apart, Bool.and_eq_true] at h
      obtain ⟨next, hnext, hnextEnded, hnextOpen, hread⟩ := run_words h.1 hended hopen
      simp only [Statement.write, Statement.tokens, String.toList_append]
      rw [Scan.run_append, hnext, List.append_assoc, ih h.2 n hnextEnded hnextOpen,
        ← List.append_assoc, hread, List.append_assoc]
    | name identifier =>
      simp only [apart, Bool.and_eq_true, Bool.not_eq_true'] at h
      rw [hopen h.1]
      simp only [Statement.write, Statement.tokens, String.toList_append]
      rw [Scan.run_append, Scan.run_quote, List.append_assoc, ih h.2 n rfl (by simp)]
      simp [Scan.tokens]
    | bound value =>
      simp only [apart, Bool.and_eq_true, Bool.not_eq_true'] at h
      rw [hopen h.1]
      obtain ⟨hread, hplaceholder⟩ := Scan.run_placeholder (d := d) (n + 1)
      simp only [Statement.write, Statement.tokens, String.toList_append]
      rw [Scan.run_append, List.append_assoc, ih h.2 (n + 1) hplaceholder (by simp),
        ← List.append_assoc, hread]
      rfl

/-- The tokens of the text are those of the pieces, whatever the names are. -/
theorem tokenize_sql {s : Statement} (h : apart d false s = true) :
    tokenize d (s.sql d) = s.tokens d 0 := by
  have hrun := run_write h 0 (s := .between) rfl fun _ => rfl
  rwa [Scan.tokens, List.nil_append] at hrun

/-! ## Values in the place of placeholders -/

theorem valued_append (s t : Statement) : (s ++ t).valued d = s.valued d ++ t.valued d :=
  List.flatMap_append

theorem fill_fixed (values : List Value) (n : Nat) {fixed : List Token}
    (h : fixed.all Token.isFixed = true) (rest : List Token) :
    fill values n (fixed ++ rest) = (fill values n rest).map (fixed ++ ·) := by
  induction fixed with
  | nil => simp
  | cons t fixed ih =>
    simp only [List.all_cons, Bool.and_eq_true] at h
    have hfixed := ih h.2
    cases t with
    | name | placeholder | value => cases h.1
    | literal | word | symbol =>
      rw [List.cons_append, fill, hfixed]
      · cases fill values n rest <;> rfl
      · simp

/-- With the bound values put in, the tokens are those of the pieces with their values: induction
on the pieces, after values that were bound before them. -/
theorem fill_tokens {isOpen : Bool} {s : Statement} (h : apart d isOpen s = true)
    (before : List Value) :
    fill (before ++ s.bindings) before.length (s.tokens d before.length) = some (s.valued d) := by
  induction s generalizing isOpen before with
  | nil => rfl
  | cons piece rest ih =>
    cases piece with
    | words text =>
      simp only [apart, wordsApart, Bool.and_eq_true] at h
      have hrest := ih h.2 before
      rw [Statement.tokens, fill_fixed _ _ h.1.2.2]
      rw [show Statement.bindings (.words text :: rest) = Statement.bindings rest from rfl, hrest]
      rfl
    | name identifier =>
      simp only [apart, Bool.and_eq_true] at h
      have hrest := ih h.2 before
      rw [Statement.tokens, fill]
      · rw [show Statement.bindings (.name identifier :: rest) = Statement.bindings rest from rfl, hrest]
        rfl
      · simp
    | bound value =>
      simp only [apart, Bool.and_eq_true] at h
      have hrest := ih h.2 (before ++ [value])
      rw [List.length_append, List.length_singleton, List.append_assoc, List.singleton_append]
        at hrest
      have hindex : (placeholderNumber d (before.length + 1)).getD (before.length + 1) - 1 =
          before.length := by
        unfold placeholderNumber
        split <;> simp
      rw [Statement.tokens, fill, hindex]
      rw [show Statement.bindings (.bound value :: rest) =
        value :: Statement.bindings rest from rfl, hrest]
      simp [Statement.valued]

/-- With the bound values in the place of its placeholders, a text has the tokens of its pieces. -/
theorem fill_tokenize {s : Statement} (h : apart d false s = true) :
    fill s.bindings 0 (tokenize d (s.sql d)) = some (s.valued d) := by
  rw [tokenize_sql h]
  exact fill_tokens h []

end

end Winnow.Sql
