import Winnow.Toml.Scalar
import Winnow.Toml.Table

/-!
# Reading settings documents

`Toml.read?` reads the value that a TOML document defines, if it is well
formed.
-/

namespace Winnow.Toml

open Winnow.Text

/-! ## Values -/

mutual

/-- One value and what follows it; `depth` more arrays or tables may open. -/
def takeValue? : Nat → Nat → List Char → Option (Json × List Char)
  | 0, _, _ => none
  | _ + 1, _, [] => none
  | fuel + 1, depth, c :: rest =>
    if c = doubleQuote ∨ c = singleQuote then
      (takeString? c rest).map fun (s, rest) => (.string s, rest)
    else match depth, c with
      | 0, '[' | 0, '{' => none
      | depth + 1, '[' => takeItems? fuel depth [] rest
      | depth + 1, '{' => takeAssignments? fuel depth [] rest
      | _, _ =>
        let (scalar, rest) := takeScalar (c :: rest)
        (scalar? scalar).map fun value => (value, rest)

/-- The items of an array, with those read so far, last first; they may stand on several lines,
and a comma may follow the last. -/
def takeItems? : Nat → Nat → List Json → List Char → Option (Json × List Char)
  | 0, _, _, _ => none
  | fuel + 1, depth, read, cs => do
    match ← skipLines? (cs.length + 1) cs with
    | ']' :: rest => some (.array read.reverse, rest)
    | cs => do
      let (item, rest) ← takeValue? fuel depth cs
      match ← skipLines? (rest.length + 1) rest with
      | ',' :: rest => takeItems? fuel depth (item :: read) rest
      | ']' :: rest => some (.array (item :: read).reverse, rest)
      | _ => none

/-- The assignments of a table within a value, with those read so far, last first; they may stand
on several lines, and a comma may follow the last. -/
def takeAssignments? : Nat → Nat → List (Path × Json) → List Char → Option (Json × List Char)
  | 0, _, _, _ => none
  | fuel + 1, depth, read, cs => do
    match ← skipLines? (cs.length + 1) cs with
    | '}' :: rest => do some (← Table.ofAssignments? read.reverse, rest)
    | cs => do
      let (path, rest) ← takePath? maxKeys [] cs
      let (value, rest) ← match rest with
        | '=' :: rest => takeValue? fuel depth (skipSpace rest)
        | _ => none
      match ← skipLines? (rest.length + 1) rest with
      | ',' :: rest => takeAssignments? fuel depth ((path, value) :: read) rest
      | '}' :: rest => do
        some (← Table.ofAssignments? ((path, value) :: read).reverse, rest)
      | _ => none

end

/-! ## Statements -/

/-- Deepest nesting of arrays and tables in a value. -/
def maxDepth : Nat := 80

/-- One statement, and what follows it on its line. -/
def takeStatement? (cs : List Char) : Option (Statement × List Char) :=
  let fuel := cs.length + 1
  match cs with
  | '[' :: '[' :: rest => do
    match ← takePath? maxKeys [] rest with
    | (path, ']' :: ']' :: rest) => some (.item path, rest)
    | _ => none
  | '[' :: rest => do
    match ← takePath? maxKeys [] rest with
    | (path, ']' :: rest) => some (.table path, rest)
    | _ => none
  | cs => do
    match ← takePath? maxKeys [] cs with
    | (path, '=' :: rest) =>
      let (value, rest) ← takeValue? (2 * fuel) maxDepth (skipSpace rest)
      some (.assign path value, rest)
    | _ => none

/-- The statements of a document, a line for each, with those read so far, last first. -/
def takeStatements? : Nat → List Statement → List Char → Option (List Statement)
  | 0, _, _ => none
  | fuel + 1, read, cs => do
    match ← skipLines? (cs.length + 1) cs with
    | [] => some read.reverse
    | cs => do
      let (statement, rest) ← takeStatement? cs
      takeStatements? fuel (statement :: read) (← endLine? rest)

/-- Drops the mark that a text file may start with. -/
def dropMark : List Char → List Char
  | '\uFEFF' :: rest => rest
  | cs => cs

/-- The value that a document defines. -/
def read? (s : String) : Option Json := do
  let cs := dropMark s.toList
  valueOf? (← takeStatements? (cs.length + 1) [] cs)

end Winnow.Toml
