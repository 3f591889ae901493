import Winnow.Text.CaseTable

/-!
# Letter case beyond ASCII

`fold` maps a character to the representative of its case class, so two
characters are equal up to case when their folds are equal.  `capitalize`
raises the first character of a text and keeps the rest.
-/

namespace Winnow.Text

/-! ## Rows of a table -/

/-- The image of a code point under one row, if the row covers it. -/
def rowImage? (n : Nat) : Nat × Nat × Nat × Int → Option Nat
  | (first, last, stride, delta) =>
    if first ≤ n ∧ n ≤ last ∧ (n - first) % stride = 0 then some ((n : Int) + delta).toNat
    else none

/-- The image of a code point under the first row that covers it, else itself. -/
def tableImage (rows : List (Nat × Nat × Nat × Int)) (n : Nat) : Nat :=
  (rows.findSome? (rowImage? n)).getD n

/-! ## Folding and raising -/

/-- Simple case folding of one character. -/
def fold (c : Char) : Char :=
  if c.toNat < 128 then c.toLower else Char.ofNat (tableImage foldRows c.toNat)

/-- Whether two characters are equal up to case. -/
def sameLetter (a b : Char) : Bool := fold a == fold b

/-- The upper case form of one character, which may have several characters. -/
def raise (c : Char) : List Char :=
  if c.toNat < 128 then [c.toUpper]
  else match upperExpansions.find? (fun entry => entry.1 == c.toNat) with
    | some (_, image) => image.map Char.ofNat
    | none => [Char.ofNat (tableImage upperRows c.toNat)]

/-- The text with its first character raised. -/
def capitalize (s : String) : String :=
  match s.toList with
  | [] => ""
  | c :: rest => String.ofList (raise c ++ rest)

/-- An identifier as a label: underscores become spaces and the first character is raised. -/
def labelOf (name : String) : String := capitalize (replaceUnderscores name)
where
  /-- The text with spaces for its underscores. -/
  replaceUnderscores (s : String) : String :=
    String.ofList (s.toList.map fun c => if c = '_' then ' ' else c)

end Winnow.Text
