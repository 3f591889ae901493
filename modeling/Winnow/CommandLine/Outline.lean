import Winnow.Settings.Basic
import Winnow.Text.Printable

/-!
# Outlines

An outline shows a nested value with one field a line, indented by its depth.
-/

namespace Winnow.CommandLine

open Winnow.Text

/-- A value to be outlined. -/
inductive Outline where
  | word (text : String)
  /-- A value inside a constructor. -/
  | wrapped (name : String) (item : Outline)
  | record (name : String) (fields : List (String × Outline))

namespace Outline

/-- The blanks in front of a line. -/
def margin (depth : Nat) : String := String.ofList (List.replicate (4 * depth) ' ')

mutual

/-- The outline at a depth, without the margin of its first line. -/
def render (depth : Nat) : Outline → String
  | .word text => text
  | .wrapped name item =>
    name ++ "(\n" ++ margin (depth + 1) ++ render (depth + 1) item ++ ",\n" ++ margin depth ++ ")"
  | .record name fields =>
    name ++ " \x7b\n" ++ renderFields (depth + 1) fields ++ margin depth ++ "\x7d"

/-- The lines of the fields. -/
def renderFields (depth : Nat) : List (String × Outline) → String
  | [] => ""
  | (name, item) :: rest =>
    margin depth ++ name ++ ": " ++ render depth item ++ ",\n" ++ renderFields depth rest

end

/-- A text between quotes. -/
def ofText (s : String) : Outline := .word (quoted s)

/-- A number. -/
def ofNat (n : Nat) : Outline := .word (natText n)

/-- A truth value. -/
def ofBool (b : Bool) : Outline := .word (if b then "true" else "false")

/-- A value that may be absent. -/
def ofOption : Option Outline → Outline
  | some item => .wrapped "Some" item
  | none => .word "None"

/-- The outline of a dialect. -/
def ofDialect : Dialect → Outline
  | .postgres => .word "Postgres"
  | .mysql => .word "MySql"
  | .sqlite => .word "Sqlite"
  | .sqlServer => .word "SqlServer"

/-- The outline of where filters are stored. -/
def ofStorage (s : StorageSettings) : Outline :=
  .record "DatabaseConfig" [
    ("url", ofText s.url),
    ("max_connections", ofNat s.maxConnections),
    ("min_connections", ofNat s.minConnections),
    ("acquire_timeout_seconds", ofNat s.acquireSeconds),
    ("idle_timeout_seconds", ofNat s.idleSeconds)]

/-- The outline of how events are logged. -/
def ofLogging (s : LoggingSettings) : Outline :=
  .record "LoggingConfig" [("level", ofText s.level), ("format", ofText s.format)]

/-- The outline of how queries are compiled. -/
def ofQuery (s : QuerySettings) : Outline :=
  .record "QueryConfig" [
    ("driver", ofDialect s.dialect),
    ("timezone", ofText s.timezone),
    ("strict_rules", ofBool s.strictRules),
    ("max_search_id_length", ofNat s.maxKeyLength),
    ("default_take", ofOption (s.defaultTake.map ofNat))]

/-- The outline of all settings. -/
def ofSettings (s : Settings) : Outline :=
  .record "AppConfig" [
    ("database", ofStorage s.storage),
    ("logging", ofLogging s.logging),
    ("query", ofQuery s.query)]

end Outline
end Winnow.CommandLine
