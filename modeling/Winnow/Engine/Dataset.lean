import Winnow.Schema.Registry

/-!
# Data sets

Tables of rows by name.  Columns of tables that belong to a registered entity
hold values of their declared types; other tables keep the values of the
document they were loaded from.
-/

namespace Winnow

/-- A row: values by column. -/
abbrev Row := Keyed Value

/-- Tables of rows by name. -/
structure Dataset where
  tables : Keyed (List Row)

namespace Row

/-- The value of a column, null when the row has none. -/
def value (row : Row) (column : String) : Value := (row.get? column).getD .null

/-- The row as data. -/
def toJson (row : Row) : Json := .object (row.map fun (column, v) => (column, v.toJson))

end Row

namespace Dataset

/-- No tables. -/
def empty : Dataset := ⟨[]⟩

/-- The rows of a table; an unknown table has none. -/
def rows (db : Dataset) (table : String) : List Row := (db.tables.get? table).getD []

/-! ## Loading -/

/-- The failure of a document that is no data set. -/
def invalid (message : String) : Failure := ⟨.validation, message⟩

/-- A value of a column of a table, by the declared type if there is one. -/
def loadValue (entity : Option Entity) (table column : String) (json : Json) :
    Except Failure Value :=
  match entity.bind fun e => e.columnType? column with
  | none => .ok (Value.infer json)
  | some type =>
    match Value.ofJson? json type with
    | some v => .ok v
    | none => .error (invalid
      ("Invalid value " ++ json.compact ++ " for column '" ++ table ++ "." ++ column ++ "'"))

/-- A row of a table. -/
def loadRow (entity : Option Entity) (table : String) : Json → Except Failure Row
  | .object members => members.mapM fun (column, json) => do
    .ok (column, ← loadValue entity table column json)
  | _ => .error (invalid ("Rows of '" ++ table ++ "' must be objects"))

/-- The entity with a table; of several the one whose name comes last. -/
def entityOf? (registry : Registry) (table : String) : Option Entity :=
  registry.entities.values.reverse.find? fun e => e.table == table

/-- Loads a document of tables. -/
def load (registry : Registry) : Json → Except Failure Dataset
  | .object tables => do
    let tables ← tables.mapM fun (table, json) =>
      match json with
      | .array rows => do
        .ok (table, ← rows.mapM (loadRow (entityOf? registry table) table))
      | _ => .error (invalid ("Dataset table '" ++ table ++ "' must be an array"))
    .ok ⟨tables⟩
  | _ => .error (invalid "Dataset must be an object of table rows")

end Dataset
end Winnow
