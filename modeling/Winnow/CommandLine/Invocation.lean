import Winnow.CommandLine.Form
import Winnow.Sql.Dialect
import Winnow.Text.Integer

/-!
# Invocations

What the program is asked to do: a command with its options, read from
arguments by the forms of the commands.
-/

namespace Winnow.CommandLine

open Winnow.Text

/-- How results are printed. -/
inductive OutputFormat where
  | table
  | json
  deriving DecidableEq, Repr

/-- The entity a command is about. -/
structure Subject where
  /-- Path of the file with the entities. -/
  schema : String
  entity : String
  deriving DecidableEq, Repr

/-- What a listing is to hold. -/
structure ListingOptions where
  /-- Rules as data, or the path of a file after an at sign. -/
  rules : Option String := none
  text : Option String := none
  searchFields : Option String := none
  /-- Whether all searched fields must match. -/
  matchAll : Bool := false
  order : Option String := none
  take : Option Nat := none
  user : Int := 1
  timezone : Option String := none
  now : Option String := none
  /-- Whether rules that do not compile are errors. -/
  strict : Bool := false
  deriving DecidableEq, Repr

/-- What can be done to saved filters. -/
inductive SavedAction where
  | list (identifier : String)
  | default (id : Int)
  | undefault (id : Int)
  | delete (id : Int)
  deriving DecidableEq, Repr

/-- What the program can do. -/
inductive Command where
  | compile (subject : Subject) (listing : ListingOptions) (dialect : Option Dialect)
  | filters (subject : Subject)
  | search (subject : Subject) (listing : ListingOptions) (data : String) (page : Option Nat)
      (pageSize : Nat)
  | saved (user : Int) (isAdmin : Bool) (action : SavedAction)
  | migrate
  | showSettings
  | checkSettings
  deriving DecidableEq, Repr

/-- A command with the options of all commands. -/
structure Invocation where
  /-- Name of the base file of settings. -/
  settings : String := "config/default"
  /-- Name of the environment, which has a file of settings of its own. -/
  environment : String := "development"
  format : OutputFormat := .table
  command : Command
  deriving DecidableEq, Repr

/-! ## Values of options -/

/-- The name of the program. -/
def programName : String := "crmhub"

/-- What the program tells as its version. -/
def versionText : String := programName ++ " 0.1.0\n"

/-- The words that start every call. -/
def callWords : String := "crmhub-cli"

/-- Whether a text writes an integer of 64 bits. -/
def isInt64 (s : String) : Bool := (readInt64 s).toBool

/-- Whether a text writes a count of 64 bits. -/
def isNat64 (s : String) : Bool := (readNat64 s).toBool

/-- Whether a text can be a path. -/
def isPath (s : String) : Bool := !s.isEmpty

/-- The formats by name. -/
def formatsByName : List (String × OutputFormat) := [("table", .table), ("json", .json)]

/-- Whether a text names a format. -/
def isFormat (s : String) : Bool := formatsByName.any fun format => format.1 == s

/-! ## Forms -/

/-- The form of the program. -/
def programForm : Form where
  call := callWords
  about := "Command-line interface for compiling and trying CRMHub filter rules"
  options := [
    { name := "config", letter := some 'c', help := "Path to configuration file",
      value := some "CONFIG", default := some "config/default" },
    { name := "env", help := "Environment overlay loaded from config/\x7benv\x7d",
      value := some "ENV", default := some "development" },
    { name := "format", letter := some 'f', help := "Output format", value := some "FORMAT",
      accepts := isFormat, default := some "table",
      choices := [("table", "Human-readable table"), ("json", "JSON output")] }]
  commands := [
    ("compile", "Compile rules, search and ordering into SQL"),
    ("filters", "Describe the filters of an entity"),
    ("search", "Run a listing against a JSON data set"),
    ("saved", "Saved filter management"),
    ("migrate", "Database migration management"),
    ("config", "Configuration management")]
  version := some versionText

/-- The options that name an entity. -/
def subjectOptions : List OptionForm := [
  { name := "schema", letter := some 's', help := "JSON file holding an array of entity schemas",
    value := some "SCHEMA", accepts := isPath, required := true },
  { name := "entity", letter := some 'e', help := "Entity to list", value := some "ENTITY",
    required := true }]

/-- The options that say what a listing is to hold. -/
def listingOptions : List OptionForm := [
  { name := "rules", letter := some 'r', help := "Rule tree as JSON, or @path to a JSON file",
    value := some "RULES" },
  { name := "q", letter := some 'q', help := "Search text", value := some "Q" },
  { name := "search-fields", help := "\x60;\x60 separated fields to search",
    value := some "SEARCH_FIELDS" },
  { name := "match-all",
    help := "Combine field matches with \x60and\x60 instead of \x60or\x60" },
  { name := "order", letter := some 'o', help := "Order such as \x60name|asc;id|desc\x60",
    value := some "ORDER" },
  { name := "take", letter := some 't', help := "Maximum number of rows", value := some "TAKE",
    accepts := isNat64 },
  { name := "user", help := "Acting user, substituted for \x60me\x60", value := some "USER",
    accepts := isInt64, default := some "1" },
  { name := "timezone", help := "User timezone as a UTC offset", value := some "TIMEZONE" },
  { name := "now", help := "Reference instant for relative dates (RFC 3339)",
    value := some "NOW" },
  { name := "strict", help := "Reject rules that do not compile instead of skipping them" }]

/-- The form of `compile`. -/
def compileForm : Form where
  call := callWords ++ " compile"
  about := "Compile rules, search and ordering into SQL"
  options := subjectOptions ++ listingOptions ++ [
    { name := "driver", help := "Render for this driver instead of the configured one",
      value := some "DRIVER", accepts := fun s => (Dialect.read s).toBool }]

/-- The form of `filters`. -/
def filtersForm : Form where
  call := callWords ++ " filters"
  about := "Describe the filters of an entity"
  options := subjectOptions

/-- The form of `search`. -/
def searchForm : Form where
  call := callWords ++ " search"
  about := "Run a listing against a JSON data set"
  options := subjectOptions ++ listingOptions ++ [
    { name := "data", letter := some 'd',
      help := "JSON file of the form \x7b\"table\": [\x7b...\x7d, ...]\x7d",
      value := some "DATA", accepts := isPath, required := true },
    { name := "page", help := "Page to show (1-based); shows every row when absent",
      value := some "PAGE", accepts := isNat64 },
    { name := "page-size", help := "Rows per page", value := some "PAGE_SIZE",
      accepts := isNat64, default := some "25" }]

/-- The options of all commands on saved filters. -/
def savedOptions : List OptionForm := [
  { name := "user", help := "Acting user", value := some "USER", accepts := isInt64,
    default := some "1" },
  { name := "admin", help := "Act as a super admin" }]

/-- The form of `saved`. -/
def savedForm : Form where
  call := callWords ++ " saved"
  about := "Saved filter management"
  options := savedOptions
  commands := [
    ("list", "List the filters of a listing visible to the user"),
    ("default", "Make a filter the default of its view"),
    ("undefault", "Stop using a filter as default"),
    ("delete", "Delete a filter")]

/-- The form of `migrate`. -/
def migrateForm : Form where
  call := callWords ++ " migrate"
  about := "Database migration management"
  commands := [("run", "Run all pending migrations")]

/-- The form of `config`. -/
def settingsForm : Form where
  call := callWords ++ " config"
  about := "Configuration management"
  commands := [("show", "Show current configuration"), ("validate", "Validate configuration file")]

/-- The form of a further command of another form. -/
def Form.within (f : Form) (name : String) (options : List OptionForm)
    (operands : List (String × String)) : Form where
  call := f.call ++ " " ++ name
  about := ((f.commands.find? fun command => command.1 == name).map Prod.snd).getD ""
  options := options
  operands := operands

/-- The form of a further command of `saved`. -/
def savedActionForm (name : String) : Form :=
  savedForm.within name savedOptions
    (if name == "list" then [("IDENTIFIER", "Listing identifier")] else [("ID", "Filter ID")])

/-! ## Help by name -/

/-- The form that names of commands lead to. -/
def formAt? : List String → Option Form
  | [] => some programForm
  | ["compile"] => some compileForm
  | ["filters"] => some filtersForm
  | ["search"] => some searchForm
  | ["saved"] => some savedForm
  | ["migrate"] => some migrateForm
  | ["config"] => some settingsForm
  | ["saved", name] =>
    if savedForm.commands.any fun command => command.1 == name then some (savedActionForm name)
    else none
  | ["migrate", "run"] => some (migrateForm.within "run" [] [])
  | ["config", name] =>
    if settingsForm.commands.any fun command => command.1 == name then
      some (settingsForm.within name [] [])
    else none
  | _ => none

/-- What asking for help on a command comes to. -/
def helpOn (names : List String) : Stop :=
  match formAt? names with
  | some form => .tell (form.helpText true)
  | none => .misuse

/-! ## Reading arguments -/

/-- The result of reading arguments. -/
abbrev Reading (α : Type) := Except Stop α

/-- The value of an option, or a failure to give it. -/
def needed (g : Given) (name : String) : Reading String :=
  match g.value? name with
  | some value => .ok value
  | none => .error .misuse

/-- The count that an option gives. -/
def count? (g : Given) (name : String) : Option Nat :=
  (g.value? name).bind fun s => (readNat64 s).toOption

/-- The integer that a text writes. -/
def integer (s : String) : Reading Int :=
  match readInt64 s with
  | .ok n => .ok n
  | .error _ => .error .misuse

/-- The acting user. -/
def actingUser (g : Given) : Reading Int :=
  match g.value? "user" with
  | some s => integer s
  | none => .ok 1

/-- The entity that the options name. -/
def subject (g : Given) : Reading Subject := do
  .ok ⟨← needed g "schema", ← needed g "entity"⟩

/-- What the options say of a listing. -/
def listing (g : Given) : Reading ListingOptions := do
  .ok {
    rules := g.value? "rules"
    text := g.value? "q"
    searchFields := g.value? "search-fields"
    matchAll := g.has "match-all"
    order := g.value? "order"
    take := count? g "take"
    user := ← actingUser g
    timezone := g.value? "timezone"
    now := g.value? "now"
    strict := g.has "strict" }

/-- Reads the arguments of `compile`. -/
def readCompile (arguments : List String) : Reading Command := do
  let g ← compileForm.read arguments
  let dialect := (g.value? "driver").bind fun s => (Dialect.read s).toOption
  .ok (.compile (← subject g) (← listing g) dialect)

/-- Reads the arguments of `filters`. -/
def readFilters (arguments : List String) : Reading Command := do
  .ok (.filters (← subject (← filtersForm.read arguments)))

/-- Reads the arguments of `search`. -/
def readSearch (arguments : List String) : Reading Command := do
  let g ← searchForm.read arguments
  .ok (.search (← subject g) (← listing g) (← needed g "data") (count? g "page")
    ((count? g "page-size").getD 25))

/-- The further command that a form was given, and its arguments. -/
def furtherCommand (f : Form) (arguments : List String) :
    Reading (Given × String × List String) := do
  let g ← f.read arguments
  match g.command with
  | some (name, rest) => .ok (g, name, rest)
  | none => .error .misuse

/-- Reads what to do to saved filters; the options of `saved` may stand before or after the
action. -/
def readSaved (arguments : List String) : Reading Command := do
  let (outer, name, rest) ← furtherCommand savedForm arguments
  if name == "help" then .error (helpOn ("saved" :: rest))
  else
    let inner ← (savedActionForm name).read rest
    let user ← actingUser (if inner.has "user" then inner else outer)
    let isAdmin := inner.has "admin" || outer.has "admin"
    let action ← match name, inner.operands with
      | "list", [identifier] => Except.ok (SavedAction.list identifier)
      | "default", [id] => do .ok (.default (← integer id))
      | "undefault", [id] => do .ok (.undefault (← integer id))
      | "delete", [id] => do .ok (.delete (← integer id))
      | _, _ => .error .misuse
    .ok (.saved user isAdmin action)

/-- Reads the name of a further command that takes no arguments. -/
def readPlain (f : Form) (names : List String) (commands : List (String × Command))
    (arguments : List String) : Reading Command := do
  let (_, name, rest) ← furtherCommand f arguments
  match commands.find? fun command => command.1 == name with
  | some (_, command) => do
    let _ ← (f.within name [] []).read rest
    .ok command
  | none => .error (if name == "help" then helpOn (names ++ rest) else .misuse)

/-- Reads a command and its arguments. -/
def readCommand (name : String) (arguments : List String) : Reading Command :=
  match name with
  | "compile" => readCompile arguments
  | "filters" => readFilters arguments
  | "search" => readSearch arguments
  | "saved" => readSaved arguments
  | "migrate" => readPlain migrateForm ["migrate"] [("run", .migrate)] arguments
  | "config" =>
    readPlain settingsForm ["config"] [("show", .showSettings), ("validate", .checkSettings)]
      arguments
  | "help" => .error (helpOn arguments)
  | _ => .error .misuse

/-- Reads the arguments of the program. -/
def Invocation.read (arguments : List String) : Reading Invocation := do
  let (g, name, rest) ← furtherCommand programForm arguments
  .ok {
    settings := (g.value? "config").getD "config/default"
    environment := (g.value? "env").getD "development"
    format := ((g.value? "format").bind fun s =>
      (formatsByName.find? fun format => format.1 == s).map Prod.snd).getD .table
    command := ← readCommand name rest }

end Winnow.CommandLine
