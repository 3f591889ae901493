import Winnow.Ini
import Winnow.Json.Reader
import Winnow.Json5
import Winnow.Ron
import Winnow.Text.Blank
import Winnow.Toml.Reader
import Winnow.Yaml.Reader

/-!
# Formats of settings

The formats that a file of settings can be written in, told by the ending of
its name.
-/

/-!
## Paths

The last name of a path and its ending.  Slashes and points behind a name do
not count as names of their own, and a path that leads back ends in no name.
-/

namespace Winnow.Path

open Winnow.Text

/-- Whether a piece of a path stays where it is. -/
def stays (piece : String) : Bool := piece.isEmpty || piece == "."

/-- The text in front of the last name, and the last name. -/
def cutLastName? (path : String) : Option (String × String) :=
  match (split '/' path).reverse.dropWhile stays with
  | [] | ".." :: _ => none
  | name :: earlier => some (String.join (earlier.reverse.map (· ++ "/")), name)

/-- A name in front of its ending, and the ending; a point in front of a name begins no ending. -/
def cutEnding (name : String) : String × Option String :=
  match cutLast '.' name.toList with
  | none | some ([], _) => (name, none)
  | some (stem, ending) => (String.ofList stem, some (String.ofList ending))

/-- The ending of the last name. -/
def ending? (path : String) : Option String := do (cutEnding (← cutLastName? path).2).2

/-- The path with another ending, up to its last name. -/
def withEnding? (ending path : String) : Option String := do
  let (lead, name) ← cutLastName? path
  some (lead ++ (cutEnding name).1 ++ "." ++ ending)

end Winnow.Path

namespace Winnow

/-- How a file of settings is written. -/
inductive SettingsFormat where
  | toml
  | json
  | yaml
  | ini
  | ron
  | json5
  deriving DecidableEq, Repr

namespace SettingsFormat

/-- The endings of names of files with the formats that they tell, in the order in which files are
looked for. -/
def endings : List (String × SettingsFormat) := [
  ("toml", .toml), ("json", .json), ("yaml", .yaml), ("yml", .yaml),
  ("ini", .ini), ("ron", .ron), ("json5", .json5)]

/-- The value that a document holds. -/
def readValue? : SettingsFormat → String → Option Json
  | .toml, text => Toml.read? text
  | .json, text => Json.read? text
  | .yaml, text => Yaml.read? text
  | .ini, text => Ini.read? text
  | .ron, text => Ron.read? text
  | .json5, text => Json5.read? text

/-- The table that a document holds. -/
def read? (format : SettingsFormat) (text : String) : Option (Keyed Json) :=
  (format.readValue? text).bind Json.members?

/-- The format that the name of a file tells. -/
def ofPath? (path : String) : Option SettingsFormat := do
  let ending ← Path.ending? path
  (endings.find? fun known => known.1 == ending).map Prod.snd

end SettingsFormat
end Winnow
