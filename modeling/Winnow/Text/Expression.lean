import Winnow.Text.Case

/-!
# Search expressions

A text can be searched by an expression.  In it `.` stands for any one
character, a line break included, `^` and `$` for the beginning and the end of
the text, and other characters for themselves up to case, those with a meaning
of their own after a backslash.  A star after what stands for one character
stands for any number of such characters.  An expression occurs in a text when
some stretch of the text is what it stands for.

Groups, classes, alternatives and the other counts are not part of the
language: an expression that holds them is not read.
-/

namespace Winnow.Text.Expression

/-! ## Signs -/

/-- What stands for one character. -/
inductive Atom where
  | any
  | letter (c : Char)
  deriving DecidableEq, Repr

/-- A sign of an expression. -/
inductive Sign where
  | atom (a : Atom)
  | star
  | start
  | finish
  deriving DecidableEq, Repr

/-- The characters that stand for themselves only after a backslash. -/
def marks : List Char := "\\.+*?()|[]\x7b\x7d^$#&-~".toList

/-- A text as an expression that stands for it. -/
def escape (cs : List Char) : List Char :=
  cs.flatMap fun c => if c ∈ marks then ['\\', c] else [c]

/-- The sign that a character is without a backslash. -/
def signOf? (c : Char) : Option Sign :=
  if c = '.' then some (.atom .any)
  else if c = '*' then some .star
  else if c = '^' then some .start
  else if c = '$' then some .finish
  else if c ∈ marks then none
  else some (.atom (.letter c))

/-- The signs of an expression. -/
def signs? : List Char → Option (List Sign)
  | [] => some []
  | '\\' :: c :: rest =>
    if c ∈ marks then (signs? rest).map (.atom (.letter c) :: ·) else none
  | c :: rest => do
    let sign ← signOf? c
    let signs ← signs? rest
    some (sign :: signs)

/-! ## Steps -/

/-- A step of a search. -/
inductive Step where
  | one (a : Atom)
  | many (a : Atom)
  | start
  | finish
  deriving DecidableEq, Repr

/-- The steps that signs ask for; a star needs something to repeat. -/
def steps? : List Sign → Option (List Step)
  | [] => some []
  | .atom a :: .star :: rest => (steps? rest).map (.many a :: ·)
  | .atom a :: rest => (steps? rest).map (.one a :: ·)
  | .start :: rest => (steps? rest).map (.start :: ·)
  | .finish :: rest => (steps? rest).map (.finish :: ·)
  | .star :: _ => none

/-- The steps of an expression. -/
def read? (expression : String) : Option (List Step) := (signs? expression.toList).bind steps?

/-! ## Search -/

/-- Whether an atom stands for a character. -/
def Atom.accepts : Atom → Char → Bool
  | .any, _ => true
  | .letter p, c => sameLetter p c

/-- The characters, and what is left of them after each one in front that an atom stands for. -/
def Atom.rests (a : Atom) : List Char → List (List Char)
  | [] => [[]]
  | c :: rest => (c :: rest) :: (if a.accepts c then a.rests rest else [])

/-- Whether steps can be made one after another from here in a text of some length. -/
def canStep (length : Nat) : List Step → List Char → Bool
  | [], _ => true
  | .one _ :: _, [] => false
  | .one a :: steps, c :: rest => a.accepts c && canStep length steps rest
  | .many a :: steps, cs => (a.rests cs).any (canStep length steps)
  | .start :: steps, cs => cs.length == length && canStep length steps cs
  | .finish :: steps, cs => cs.isEmpty && canStep length steps cs

/-- Whether steps can be made from somewhere in a text. -/
def occurs (steps : List Step) (text : String) : Bool :=
  (Atom.any.rests text.toList).any (canStep text.toList.length steps)

end Winnow.Text.Expression
