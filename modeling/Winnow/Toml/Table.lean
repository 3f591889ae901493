import Winnow.Json.Basic
import Winnow.Toml.Text

/-!
# Tables of settings documents

A TOML document defines nested tables statement by statement: by a header, by
a header of an array of tables, or by assigning to a path.  Nothing is defined
twice: a header opens a table that was at most implied by longer headers, and
a dotted path extends only tables that have no header of their own.
-/

namespace Winnow.Toml

/-- What made a table. -/
inductive Origin where
  /-- The header of a table inside it. -/
  | implied
  /-- A path with points. -/
  | dotted
  /-- Its own header. -/
  | header
  deriving DecidableEq, Repr

/-- What a key stands for while a document is read. -/
inductive Node where
  | leaf (value : Json)
  | table (origin : Origin) (entries : List (String × Node))
  /-- Tables under headers of one array; the last is still open. -/
  | tables (earlier : List Json) (last : List (String × Node))

namespace Node

mutual

/-- The value that a key stands for at the end. -/
def toJson : Node → Json
  | .leaf value => value
  | .table _ entries => .object (entriesToJson entries)
  | .tables earlier last => .array (earlier ++ [.object (entriesToJson last)])

/-- The values of the entries of a table. -/
def entriesToJson : List (String × Node) → List (String × Json)
  | [] => []
  | (key, node) :: rest => (key, node.toJson) :: entriesToJson rest

end

end Node

namespace Table

/-- Changes the table that lies down a path from a table.  Missing tables are made; a dotted path
does not enter tables with a header of their own. -/
def update (made : Origin) (change : Origin → Keyed Node → Option (Keyed Node)) :
    Origin → Keyed Node → List String → Option (Keyed Node)
  | origin, entries, [] => change origin entries
  | _, entries, key :: path =>
    match entries.get? key with
    | none => do
      some (entries.put key (.table made (← update made change made [] path)))
    | some (.table origin inner) =>
      if made = .dotted ∧ origin = .header then none
      else do some (entries.put key (.table origin (← update made change origin inner path)))
    | some (.tables earlier last) => do
      some (entries.put key (.tables earlier (← update made change .header last path)))
    | some (.leaf _) => none

/-- Assigns a value to a path, whose key must be new. -/
def assign (path : Path) (value : Json) (entries : Keyed Node) : Option (Keyed Node) :=
  update .dotted (fun _ entries =>
    if entries.has path.key then none else some (entries.put path.key (.leaf value)))
    .header entries path.parents

/-- Opens the table at a path. -/
def openTable (path : Path) (entries : Keyed Node) : Option (Keyed Node) :=
  update .implied (fun _ entries =>
    match entries.get? path.key with
    | none => some (entries.put path.key (.table .header []))
    | some (.table .implied inner) => some (entries.put path.key (.table .header inner))
    | some _ => none) .header entries path.parents

/-- Opens one more table of the array at a path. -/
def openItem (path : Path) (entries : Keyed Node) : Option (Keyed Node) :=
  update .implied (fun _ entries =>
    match entries.get? path.key with
    | none => some (entries.put path.key (.tables [] []))
    | some (.tables earlier last) =>
      some (entries.put path.key (.tables (earlier ++ [.object (Node.entriesToJson last)]) []))
    | some _ => none) .header entries path.parents

/-- The table of assignments alone. -/
def ofAssignments? (assignments : List (Path × Json)) : Option Json := do
  let entries ← assignments.foldlM (fun entries (path, value) => assign path value entries) []
  some (.object (Node.entriesToJson entries))

end Table

/-! ## Statements -/

/-- A statement of a document. -/
inductive Statement where
  | table (path : Path)
  | item (path : Path)
  | assign (path : Path) (value : Json)

/-- What the statements read so far define. -/
structure Draft where
  entries : Keyed Node := []
  /-- The path of the open table. -/
  current : List String := []

/-- Takes one more statement. -/
def Draft.add (d : Draft) : Statement → Option Draft
  | .table path => do
    some ⟨← Table.openTable path d.entries, path.parents ++ [path.key]⟩
  | .item path => do
    some ⟨← Table.openItem path d.entries, path.parents ++ [path.key]⟩
  | .assign path value => do
    let change (_ : Origin) (entries : Keyed Node) := Table.assign path value entries
    some { d with entries := ← Table.update .implied change .header d.entries d.current }

/-- The value that statements define, unless they define something twice. -/
def valueOf? (statements : List Statement) : Option Json := do
  let draft ← statements.foldlM Draft.add {}
  some (.object (Node.entriesToJson draft.entries))

end Winnow.Toml
