import Mathlib.Data.List.Forall2
import Winnow.Engine.Like

/-!
# What a pattern matches

The expression of a pattern is read, whatever characters the pattern holds, and
its steps are those that the characters of the pattern stand for, from the
beginning of the text to its end (`read?_expression`).  So a text matches when
the whole of it can be cut into pieces that the characters stand for, in order
(`like_cuts`).
-/

namespace Winnow.Engine

open Winnow.Text

/-! ## Expressions of patterns -/

/-- What the character of a pattern becomes in an expression. -/
def writtenFor (p : Char) : List Char :=
  if p = '%' then ['.', '*'] else if p = '_' then ['.'] else Expression.escape [p]

/-- The signs that the character of a pattern becomes. -/
def signsFor (p : Char) : List Expression.Sign :=
  if p = '%' then [.atom .any, .star] else if p = '_' then [.atom .any] else [.atom (.letter p)]

/-- The step of a search that the character of a pattern becomes. -/
def stepFor (p : Char) : Expression.Step :=
  if p = '%' then .many .any else if p = '_' then .one .any else .one (.letter p)

theorem escape_append (a b : List Char) :
    Expression.escape (a ++ b) = Expression.escape a ++ Expression.escape b := List.flatMap_append

/-- Where the characters between wildcards are written makes no difference: each character of the
pattern has its own part of the expression. -/
theorem expressionFrom_eq (written literal pattern : List Char) :
    expressionFrom written literal pattern =
      written ++ Expression.escape literal ++ pattern.flatMap writtenFor ++ ['$'] := by
  induction pattern generalizing written literal with
  | nil => simp [expressionFrom]
  | cons p pattern ih =>
    have hempty : Expression.escape [] = [] := rfl
    unfold expressionFrom
    rw [List.flatMap_cons, writtenFor]
    split
    · rw [ih, hempty]
      simp
    · split
      · rw [ih, hempty]
        simp
      · rw [ih, escape_append]
        simp

/-- Without a backslash a character that is no mark is itself. -/
theorem signOf?_letter {c : Char} (h : c ∉ Expression.marks) :
    Expression.signOf? c = some (.atom (.letter c)) := by
  have hne : ∀ mark ∈ Expression.marks, c ≠ mark := fun _ hmark heq => h (heq ▸ hmark)
  unfold Expression.signOf?
  rw [if_neg (hne '.' (by decide)), if_neg (hne '*' (by decide)), if_neg (hne '^' (by decide)),
    if_neg (hne '$' (by decide)), if_neg h]

/-- An escaped character is read as itself, also when it is a mark. -/
theorem signs?_escape (c : Char) (rest : List Char) :
    Expression.signs? (Expression.escape [c] ++ rest) =
      (Expression.signs? rest).map (.atom (.letter c) :: ·) := by
  unfold Expression.escape
  rw [List.flatMap_singleton]
  split
  next hmark =>
    rw [List.cons_append, List.cons_append, List.nil_append, Expression.signs?, if_pos hmark]
  next hmark =>
    have hbackslash : c ≠ '\\' := by
      rintro rfl
      exact hmark (by decide)
    rw [List.cons_append, List.nil_append, Expression.signs?, signOf?_letter hmark]
    · cases Expression.signs? rest <;> rfl
    · exact fun _ _ heq => absurd heq hbackslash

theorem signs?_writtenFor (p : Char) (rest : List Char) :
    Expression.signs? (writtenFor p ++ rest) = (Expression.signs? rest).map (signsFor p ++ ·) := by
  unfold writtenFor signsFor
  split
  · cases h : Expression.signs? rest <;> simp [Expression.signs?, Expression.signOf?, h]
  · split
    · cases h : Expression.signs? rest <;> simp [Expression.signs?, Expression.signOf?, h]
    · exact signs?_escape p rest

theorem signs?_pattern (pattern : List Char) :
    Expression.signs? (pattern.flatMap writtenFor ++ ['$']) =
      some (pattern.flatMap signsFor ++ [.finish]) := by
  induction pattern with
  | nil => decide
  | cons p pattern ih =>
    rw [List.flatMap_cons, List.append_assoc, signs?_writtenFor, ih, Option.map_some,
      List.flatMap_cons, List.append_assoc]

/-- Without a star behind it an atom is one step. -/
theorem steps?_atom {a : Expression.Atom} {rest : List Expression.Sign}
    (h : rest.head? ≠ some .star) :
    Expression.steps? (.atom a :: rest) = (Expression.steps? rest).map (.one a :: ·) := by
  rw [Expression.steps?]
  rintro _ rfl
  exact h rfl

/-- No pattern begins with a star: what `%` stands for comes with something to repeat. -/
theorem head?_signsFor (pattern : List Char) :
    (pattern.flatMap signsFor ++ [Expression.Sign.finish]).head? ≠ some .star := by
  cases pattern with
  | nil => decide
  | cons p pattern =>
    rw [List.flatMap_cons, signsFor]
    split
    · simp
    · split <;> simp

theorem steps?_pattern (pattern : List Char) :
    Expression.steps? (pattern.flatMap signsFor ++ [.finish]) =
      some (pattern.map stepFor ++ [.finish]) := by
  induction pattern with
  | nil => decide
  | cons p pattern ih =>
    rw [List.flatMap_cons, List.append_assoc, List.map_cons, List.cons_append, signsFor, stepFor]
    split
    · simp [Expression.steps?, ih]
    · split
      · rw [List.singleton_append, steps?_atom (head?_signsFor pattern), ih, Option.map_some]
      · rw [List.singleton_append, steps?_atom (head?_signsFor pattern), ih, Option.map_some]

/-- The expression of a pattern is read, as one step for each character of the pattern between the
beginning and the end of the text. -/
theorem read?_expression (pattern : String) :
    Expression.read? (expression pattern) =
      some (.start :: (pattern.toList.map stepFor ++ [.finish])) := by
  have hsigns : Expression.signs? (expression pattern).toList =
      some (.start :: (pattern.toList.flatMap signsFor ++ [.finish])) := by
    have hstart : Expression.signOf? '^' = some .start := by decide
    have hempty : Expression.escape [] = [] := rfl
    unfold expression
    rw [String.toList_ofList, expressionFrom_eq, hempty, List.append_nil, List.append_assoc,
      List.singleton_append, Expression.signs?, hstart, signs?_pattern]
    · rfl
    · exact fun _ _ heq => absurd heq (by decide)
  unfold Expression.read?
  rw [hsigns, Option.bind_some, Expression.steps?, steps?_pattern, Option.map_some]

/-! ## Search -/

/-- What is left after characters that an atom stands for. -/
theorem mem_rests {a : Expression.Atom} {text rest : List Char} :
    rest ∈ a.rests text ↔ ∃ piece, text = piece ++ rest ∧ ∀ c ∈ piece, a.accepts c = true := by
  induction text with
  | nil =>
    rw [Expression.Atom.rests, List.mem_singleton]
    constructor
    · rintro rfl
      exact ⟨[], rfl, fun c hc => absurd hc List.not_mem_nil⟩
    · rintro ⟨piece, htext, -⟩
      exact (List.append_eq_nil_iff.mp htext.symm).2
  | cons c text ih =>
    rw [Expression.Atom.rests, List.mem_cons]
    constructor
    · rintro (rfl | hrest)
      · exact ⟨[], rfl, fun c hc => absurd hc List.not_mem_nil⟩
      · split at hrest
        next haccepts =>
          obtain ⟨piece, rfl, hpiece⟩ := ih.mp hrest
          exact ⟨c :: piece, rfl, List.forall_mem_cons.mpr ⟨haccepts, hpiece⟩⟩
        next => cases hrest
    · rintro ⟨piece, htext, hpiece⟩
      cases piece with
      | nil => exact .inl htext.symm
      | cons first piece =>
        obtain ⟨rfl, hbehind⟩ := List.cons.inj htext
        obtain ⟨haccepts, hpiece⟩ := List.forall_mem_cons.mp hpiece
        rw [if_pos haccepts]
        exact .inr (ih.mpr ⟨piece, hbehind, hpiece⟩)

/-- A search that begins at the beginning begins nowhere else. -/
theorem occurs_start (steps : List Expression.Step) (text : String) :
    Expression.occurs (.start :: steps) text =
      Expression.canStep text.toList.length steps text.toList := by
  unfold Expression.occurs
  rw [Bool.eq_iff_iff, List.any_eq_true]
  constructor
  · rintro ⟨rest, hrest, hsteps⟩
    obtain ⟨piece, htext, -⟩ := mem_rests.mp hrest
    obtain ⟨hlength, hsteps⟩ := Bool.and_eq_true_iff.mp hsteps
    have hsuffix : rest <:+ text.toList := ⟨piece, htext.symm⟩
    rwa [hsuffix.eq_of_length (eq_of_beq hlength)] at hsteps
  · intro hsteps
    refine ⟨text.toList, mem_rests.mpr ⟨[], rfl, fun c hc => absurd hc List.not_mem_nil⟩, ?_⟩
    exact Bool.and_eq_true_iff.mpr ⟨beq_self_eq_true _, hsteps⟩

/-! ## Pieces -/

/-- What the character of a pattern stands for. -/
inductive StandsFor : Char → List Char → Prop
  /-- `%` stands for any text, line breaks and no characters at all included. -/
  | anyText (piece : List Char) : StandsFor '%' piece
  /-- `_` stands for any one character. -/
  | anyChar (c : Char) : StandsFor '_' [c]
  /-- Every other character stands for itself up to case. -/
  | letter {p c : Char} (hany : p ≠ '%') (hone : p ≠ '_') (hfold : Text.fold p = Text.fold c) :
      StandsFor p [c]

/-- Whether characters can be cut into the pieces that a pattern stands for. -/
def Fits (pattern cs : List Char) : Prop :=
  ∃ pieces : List (List Char), pieces.flatten = cs ∧ List.Forall₂ StandsFor pattern pieces

theorem fits_nil {cs : List Char} : Fits [] cs ↔ cs = [] := by
  constructor
  · rintro ⟨pieces, rfl, hpieces⟩
    cases hpieces
    rfl
  · rintro rfl
    exact ⟨[], rfl, .nil⟩

theorem fits_cons {p : Char} {pattern cs : List Char} :
    Fits (p :: pattern) cs ↔
      ∃ piece rest, cs = piece ++ rest ∧ StandsFor p piece ∧ Fits pattern rest := by
  constructor
  · rintro ⟨pieces, rfl, hpieces⟩
    cases hpieces with
    | cons hpiece hpieces => exact ⟨_, _, List.flatten_cons, hpiece, _, rfl, hpieces⟩
  · rintro ⟨piece, rest, rfl, hpiece, pieces, rfl, hpieces⟩
    exact ⟨piece :: pieces, List.flatten_cons, .cons hpiece hpieces⟩

theorem standsFor_single {p : Char} (hany : p ≠ '%') {piece : List Char} :
    StandsFor p piece ↔ ∃ c, piece = [c] ∧ (p = '_' ∨ Text.fold p = Text.fold c) := by
  constructor
  · rintro (_ | c | ⟨-, -, hfold⟩)
    · exact absurd rfl hany
    · exact ⟨c, rfl, .inl rfl⟩
    · exact ⟨_, rfl, .inr hfold⟩
  · rintro ⟨c, rfl, hone⟩
    by_cases hunder : p = '_'
    · subst hunder
      exact .anyChar c
    · exact .letter hany hunder (hone.resolve_left hunder)

/-- One step is made over one character. -/
theorem canStep_one {length : Nat} {a : Expression.Atom} {steps : List Expression.Step}
    {cs : List Char} :
    Expression.canStep length (.one a :: steps) cs = true ↔
      ∃ c rest, cs = c :: rest ∧ a.accepts c = true ∧ Expression.canStep length steps rest = true := by
  cases cs with
  | nil => simp [Expression.canStep]
  | cons c rest => simp [Expression.canStep]

/-- Induction on the pattern: a step is made over a piece that its character stands for, and the
next from there. -/
theorem canStep_pattern (length : Nat) (pattern cs : List Char) :
    Expression.canStep length (pattern.map stepFor ++ [.finish]) cs = true ↔ Fits pattern cs := by
  induction pattern generalizing cs with
  | nil => simp [Expression.canStep, fits_nil]
  | cons p pattern ih =>
    rw [List.map_cons, List.cons_append, fits_cons]
    by_cases hany : p = '%'
    · subst hany
      rw [stepFor, if_pos rfl, Expression.canStep, List.any_eq_true]
      constructor
      · rintro ⟨rest, hrest, hsteps⟩
        obtain ⟨piece, hcs, -⟩ := mem_rests.mp hrest
        exact ⟨piece, rest, hcs, .anyText piece, (ih rest).mp hsteps⟩
      · rintro ⟨piece, rest, hcs, -, hfits⟩
        exact ⟨rest, mem_rests.mpr ⟨piece, hcs, fun _ _ => rfl⟩, (ih rest).mpr hfits⟩
    · have hstep : ∃ a, stepFor p = .one a ∧
          ∀ c, a.accepts c = true ↔ p = '_' ∨ Text.fold p = Text.fold c := by
        unfold stepFor
        rw [if_neg hany]
        split
        next hunder => exact ⟨.any, rfl, fun c => iff_of_true rfl (.inl hunder)⟩
        next hunder =>
          refine ⟨.letter p, rfl, fun c => ?_⟩
          rw [Expression.Atom.accepts, sameLetter, beq_iff_eq, or_iff_right hunder]
      obtain ⟨a, hstep, haccepts⟩ := hstep
      rw [hstep, canStep_one]
      constructor
      · rintro ⟨c, rest, rfl, hc, hsteps⟩
        exact ⟨[c], rest, rfl, (standsFor_single hany).mpr ⟨c, rfl, (haccepts c).mp hc⟩,
          (ih rest).mp hsteps⟩
      · rintro ⟨piece, rest, rfl, hpiece, hfits⟩
        obtain ⟨c, rfl, hc⟩ := (standsFor_single hany).mp hpiece
        exact ⟨c, rest, rfl, (haccepts c).mpr hc, (ih rest).mpr hfits⟩

theorem like_iff_fits (text pattern : String) :
    like text pattern = true ↔ Fits pattern.toList text.toList := by
  unfold like
  rw [read?_expression]
  simp only
  rw [occurs_start, canStep_pattern]

/-- The expression of a pattern is always read.  A text matches the pattern exactly when the whole of
it can be cut into consecutive pieces, one for each character of the pattern in order: any piece for
`%`, a piece of one character for `_`, and for any other character a piece of one character that is
the same up to case. -/
theorem like_cuts (text pattern : String) :
    (Expression.read? (expression pattern)).isSome = true ∧
      (like text pattern = true ↔ ∃ pieces : List (List Char),
        pieces.flatten = text.toList ∧ List.Forall₂ StandsFor pattern.toList pieces) := by
  constructor
  · rw [read?_expression]
    rfl
  · exact like_iff_fits text pattern

/-- A pattern with wildcards next to each other and marks of expressions, over a line break. -/
example : expression "a.%_*" = "^a\\..*.\\*$" ∧ like "A.\nb*" "a.%_*" = true ∧
    like "Ab\nb*" "a.%_*" = false := by
  decide +kernel

end Winnow.Engine
