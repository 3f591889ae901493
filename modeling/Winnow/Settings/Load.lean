import Winnow.Bounds
import Winnow.Decimal.Shortest
import Winnow.Files
import Winnow.Settings.Basic
import Winnow.Settings.Format
import Winnow.Settings.Layer
import Winnow.Text.Integer

/-!
# Loading settings

Settings come from a base file, a file for the environment that the program
runs in, and variables, each layer over those before.  A file that does not
exist is an empty layer.  What is loaded has been checked.
-/

/-!
## Loose forms

Settings are gathered from files and variables, which do not always tell a
number from a text.  Here a scalar of one type is also read from a scalar of
another when it writes a value of that type, and a record in positions may
have more items than fields.
-/

namespace Winnow.Loose

open Winnow.Text

/-- A text, or the text of a truth value or a number. -/
def string : Wire.Reader String
  | .string s => some s
  | .bool b => some (if b then "true" else "false")
  | .integer n => some (intText n)
  | .decimal x => some x.plainText
  | _ => none

/-- The truth value that a word in any case stands for. -/
def truthOfWord? (s : String) : Option Bool :=
  match lowerAscii s with
  | "true" | "on" | "yes" => some true
  | "false" | "off" | "no" => some false
  | _ => none

/-- A truth value, a word for one, or a number, of which 0 is false. -/
def bool : Wire.Reader Bool
  | .bool b => some b
  | .integer n => some (n != 0)
  | .decimal x => some (x.compare? Decimal.zero != some .eq)
  | .string "1" => some true
  | .string "0" => some false
  | .string s => truthOfWord? s
  | _ => none

/-- A count of 64 bits: a number, rounded and pulled into range when it is a decimal, a text that
writes one, or a truth value, which counts 1 when it is true. -/
def nat64 : Wire.Reader Nat
  | .bool b => some b.toNat
  | .integer n => Wire.nat64 (.integer n)
  | .decimal x => some (x.roundUpTo Bounds.uint64Max)
  | .string s =>
    match truthOfWord? s with
    | some b => some b.toNat
    | none => (readNat64 s).toOption
  | _ => none

/-- A count of 32 bits. -/
def nat32 : Wire.Reader Nat := fun j => (nat64 j).filter (· ≤ Bounds.uint32Max)

/-- A record by name, or in positions, of which those behind the last field do not count. -/
def record (names : List String) : Wire.Reader Wire.Record
  | .array items => some (.byPosition (names.zip items))
  | j => Wire.Record.ofJson? names j

/-- The readers for which a value has many forms. -/
def forms : Wire.Forms := ⟨string, bool, nat32, nat64, record⟩

end Winnow.Loose

namespace Winnow

open Winnow.Text

/-- Why settings cannot be loaded. -/
inductive SettingsFault where
  /-- A file is malformed. -/
  | malformed
  /-- A value has not the expected form. -/
  | unreadable
  /-- A value cannot be used. -/
  | unusable (failure : Failure)
  deriving DecidableEq, Repr

/-- The failure that a fault is. -/
def SettingsFault.failure : SettingsFault → Failure
  | .malformed => Failure.ofSettings "Failed to build config"
  | .unreadable => Failure.ofSettings "Failed to deserialize config"
  | .unusable failure => failure

namespace Settings

/-! ## Files -/

/-- The name with an ending that others can take the place of, so that they add to its own. -/
def openName (name : String) : String :=
  if (Path.ending? name).isSome then name ++ ".dummy" else name

/-- The paths of a file of settings whose name is given without its ending, and their formats. -/
def openPaths (name : String) : List (String × SettingsFormat) :=
  SettingsFormat.endings.filterMap fun (ending, format) =>
    (Path.withEnding? ending (openName name)).map fun path => (path, format)

/-- The paths that a file of settings can have: its name, or its name with an ending. -/
def pathsOf (name : String) : List String := name :: (openPaths name).map Prod.fst

/-- The path and format of a file of settings, if there is one. -/
def findFile? (files : Files) (name : String) : Option (String × SettingsFormat) :=
  if files.has name then (SettingsFormat.ofPath? name).map fun format => (name, format)
  else (openPaths name).find? fun file => files.has file.1

/-- The text without the mark that a text file may start with. -/
def dropMark (text : String) : String :=
  match text.toList with
  | '\uFEFF' :: rest => String.ofList rest
  | _ => text

/-- The layer that a file of settings is. -/
def fileLayer (files : Files) (name : String) : Except SettingsFault (Keyed Json) :=
  match findFile? files name with
  | none => .ok []
  | some (path, format) =>
    match (files.read path).toOption.bind fun text => format.read? (dropMark text) with
    | some table => .ok table
    | none => .error .malformed

/-! ## Variables -/

/-- What the names of variables that are settings start with, in any case. -/
def variableLead : String := "crmhub__"

/-- The names with every separator replaced by a point. -/
def pointed : List Char → List Char
  | '_' :: '_' :: rest => '.' :: pointed rest
  | c :: rest => c :: pointed rest
  | [] => []

/-- The lower case of the letters of ASCII, and of the sign whose lower case is one of them. -/
def lowerLetter (c : Char) : Char := if c = '\u212A' then 'k' else c.toLower

/-- The key of a variable, if it is a setting. -/
def variableKey? (name : String) : Option String :=
  (dropLead? variableLead.toList (name.toList.map lowerLetter)).map fun key =>
    String.ofList (pointed key)

/-- The value that the text of a variable writes: a truth value, a number or the text itself. -/
def variableValue (text : String) : Json :=
  match lowerAscii text with
  | "true" => .bool true
  | "false" => .bool false
  | _ =>
    match readInt64 text with
    | .ok n => .integer n
    | .error _ =>
      match Decimal.read? text with
      | some x => .decimal x
      | none => .string text

/-- The layer that variables are; of two for one key the last counts. -/
def variableLayer (given : List (String × String)) : Keyed Json :=
  Keyed.ofPairs (given.filterMap fun (name, text) =>
    (variableKey? name).map fun key => (key, variableValue text))

/-- The names of all variables that are settings. -/
def variableNames : List String :=
  [("DATABASE", ["URL", "MAX_CONNECTIONS", "MIN_CONNECTIONS", "ACQUIRE_TIMEOUT_SECONDS",
      "IDLE_TIMEOUT_SECONDS"]),
    ("LOGGING", ["LEVEL", "FORMAT"]),
    ("QUERY", ["DRIVER", "TIMEZONE", "STRICT_RULES", "MAX_SEARCH_ID_LENGTH",
      "DEFAULT_TAKE"])].flatMap fun (part, names) =>
    names.map fun name => "CRMHUB__" ++ part ++ "__" ++ name

/-! ## Loading -/

/-- The name of the file for an environment. -/
def environmentFile (environment : String) : String := "config/" ++ environment

/-- The settings of a base file, an environment and variables. -/
def load (files : Files) (base environment : String) (overrides : List (String × String)) :
    Except SettingsFault Settings := do
  let layers := [
    ← fileLayer files base,
    ← fileLayer files (environmentFile environment),
    variableLayer overrides]
  match read Loose.forms (layers.foldl Layer.layTable (.object [])) with
  | none => .error .unreadable
  | some settings =>
    match settings.check with
    | .ok () => .ok settings
    | .error failure => .error (.unusable failure)

end Settings
end Winnow
