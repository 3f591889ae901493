import Winnow.CommandLine.Grid
import Winnow.CommandLine.Invocation
import Winnow.CommandLine.Outline
import Winnow.Json.Printer
import Winnow.Resource.Listing
import Winnow.SavedFilter.Service
import Winnow.Settings.Load

/-!
# Running commands

What the program prints and how it exits, as a function of its arguments and
of what surrounds it: files, variables and the time.  A command that fails
prints its failure and exits with 1; arguments without the form of a command
exit with 2.
-/

namespace Winnow.CommandLine

open Winnow.Text

/-- What surrounds the program. -/
structure Surroundings where
  files : Files
  /-- Variables that are settings, by name. -/
  overrides : List (String × String) := []
  now : Instant

/-- What the program printed and how it exited. -/
structure Output where
  code : Nat := 0
  stdout : String := ""
  stderr : String := ""
  deriving DecidableEq, Repr

/-! ## Printing -/

/-- Lines as a text. -/
def textOf (lines : List String) : String := String.join (lines.map (· ++ "\n"))

/-- The line of a failure. -/
def failureLine (message : String) : String := "✗ " ++ message

/-- The line of a success. -/
def successLine (message : String) : String := "✓ " ++ message

/-- The line of a value with a name. -/
def valueLine (name value : String) : String := "  " ++ Form.padded 24 (name ++ ":") ++ " " ++ value

/-- A value as indented data. -/
def dataLines (j : Json) : List String := [j.pretty]

/-- The output of a command that succeeds with lines or fails. -/
def Output.of : Except Failure (List String) → Output
  | .ok lines => { stdout := textOf lines }
  | .error failure => { code := 1, stderr := textOf [failureLine failure.text] }

/-- The output when there is no command to run. -/
def Output.stopped : Stop → Output
  | .tell text => { stdout := text }
  | .misuse =>
    { code := 2, stderr := textOf [
        "error: invalid arguments", "", "For more information, try '--help'."] }

/-! ## Inputs -/

/-- The data in a file. -/
def readData (files : Files) (path : String) : Except Failure Json :=
  match files.read path with
  | .ok text => Failure.ofWire (Json.read? text)
  | .error fault =>
    .error ⟨.internal, "Failed to read '" ++ path ++ "': " ++ fault.message⟩

/-- The registry of the entities in a file. -/
def readRegistry (files : Files) (path : String) : Except Failure Registry := do
  let entities ← Failure.ofWire (Wire.list Entity.fromWire (← readData files path))
  Failure.liftCompile (Registry.ofEntities entities)

/-- The settings of an invocation. -/
def loadSettings (s : Surroundings) (i : Invocation) : Except Failure Settings :=
  match Settings.load s.files i.settings i.environment s.overrides with
  | .ok settings => .ok settings
  | .error fault => .error fault.failure

namespace ListingOptions

/-- The path of the file that holds the rules, if one does. -/
def rulesPath? (o : ListingOptions) : Option String := do
  some (String.ofList (← dropLead? ['@'] (← o.rules).toList))

/-- The user that the options name. -/
def caller (o : ListingOptions) (s : Surroundings) : Except Failure Caller := do
  let time ← match o.now with
    | none => .ok s.now
    | some now =>
      match Calendar.readStrict? now.toList with
      | some time => .ok time
      | none => .error ⟨.validation, "Invalid --now '" ++ now ++ "'"⟩
  .ok { user := o.user, timezone := o.timezone, time }

/-- The rules that the options give. -/
def ruleData (o : ListingOptions) (files : Files) : Except Failure (Option Json) :=
  match o.rulesPath?, o.rules with
  | some path, _ => do .ok (some (← readData files path))
  | none, some text => do .ok (some (← Failure.ofWire (Json.read? text)))
  | none, none => .ok none

/-- What the options ask of a listing. -/
def parameters (o : ListingOptions) : Listing.Parameters := {
  text := o.text
  searchFields := o.searchFields
  searchMatch := some (if o.matchAll then .all else .any)
  order := (o.order.map fun s => (splitTrimmed ';' s).map SortField.readCompact).getD []
  take := o.take }

/-- The request that the options make. -/
def request (o : ListingOptions) (files : Files) : Except Failure ListingRequest := do
  .ok { parameters := o.parameters, source := { rules := ← o.ruleData files } }

end ListingOptions

/-- Listings of the entities of a registry, with nothing saved. -/
def listingService (registry : Registry) (settings : QuerySettings) :
    Except Failure ListingService := do
  .ok ⟨← Catalog.ofEntities registry, settings⟩

/-! ## Commands -/

/-- The query settings for a listing. -/
def listingSettings (s : Surroundings) (i : Invocation) (o : ListingOptions) :
    Except Failure QuerySettings := do
  .ok { (← loadSettings s i).query with strictRules := o.strict }

/-- Checks the rules of a request as if they were to be saved. -/
def checkRequest (service : ListingService) (caller : Caller) (entity : String)
    (request : ListingRequest) : Except Failure Unit :=
  match request.source.rules with
  | none => .ok ()
  | some rules => do
    let resource ← service.catalog.get entity
    FilterService.checkRules ⟨service.catalog, service.settings⟩ caller resource rules

/-- Lines that show a rendered query. -/
def renderedLines (format : OutputFormat) (r : Sql.Rendered) : List String :=
  match format with
  | .table =>
    r.sql :: r.bindings.mapIdx fun i v => valueLine ("$" ++ natText (i + 1)) v.display
  | .json =>
    dataLines (Json.ofPairs [
      ("sql", .string r.sql), ("bindings", .array (r.bindings.map Value.toJson))])

/-- Compiles a listing to a query in SQL. -/
def compile (s : Surroundings) (i : Invocation) (subject : Subject) (o : ListingOptions)
    (dialect : Option Dialect) : Except Failure (List String) := do
  let settings ← listingSettings s i o
  let settings := { settings with dialect := dialect.getD settings.dialect }
  let service ← listingService (← readRegistry s.files subject.schema) settings
  let caller ← o.caller s
  let request ← o.request s.files
  checkRequest service caller subject.entity request
  let query ← service.listing {} caller subject.entity request
  .ok (renderedLines i.format (← service.render query))

/-- The cells that show a filter. -/
def filterCells (f : Filter) : List String :=
  [f.id, f.label, f.kind.name, join ", " (f.operators.map Operator.token)]

/-- Shows the filters of an entity. -/
def showFilters (s : Surroundings) (i : Invocation) (subject : Subject) :
    Except Failure (List String) := do
  let registry ← readRegistry s.files subject.schema
  let entity ← Failure.liftCompile (registry.get subject.entity)
  let filters ← Failure.liftCompile (FilterSet.ofEntity entity)
  match i.format with
  | .table =>
    .ok (Grid.render ["id", "label", "type", "operators"] (filters.visible.map filterCells))
  | .json => .ok (dataLines (.array filters.describe))

/-- The columns of the rows of a query. -/
def header (q : Query) : List String :=
  (if q.selects.isEmpty then q.entity.columns.keys else q.selects.map Column.outputName) ++
    q.aggregates.map Aggregate.outputName

/-- The cells that show a row. -/
def rowCells (columns : List String) (row : Row) : List String :=
  columns.map fun column => ((row.get? column).map Value.display).getD ""

/-- Lines that show the rows of a query, with their place in the listing if a page was asked for. -/
def rowLines (format : OutputFormat) (db : Dataset) (q : Query) (page : Option Page) :
    List String :=
  let rows := Engine.execute db q
  match format with
  | .table => Grid.render (header q) (rows.map (rowCells (header q)))
  | .json =>
    match page.bind fun page => page.respond? rows (Engine.count db q) with
    | some response => dataLines (response.toJson Row.toJson)
    | none => dataLines (.array (rows.map Row.toJson))

/-- Runs a listing against the data in a file. -/
def search (s : Surroundings) (i : Invocation) (subject : Subject) (o : ListingOptions)
    (data : String) (page : Option Page) : Except Failure (List String) := do
  let settings ← listingSettings s i o
  let registry ← readRegistry s.files subject.schema
  let db ← Dataset.load registry (← readData s.files data)
  let service ← listingService registry settings
  let caller ← o.caller s
  let query ← service.listing {} caller subject.entity (← o.request s.files)
  let query := (page.map query.paginate).getD query
  .ok (rowLines i.format db query page)

/-- The failure to reach the storage of saved filters. -/
def unreachable (settings : StorageSettings) : Failure :=
  ⟨.database,
    "Cannot reach saved filter store at " ++ Connection.maskPassword settings.url⟩

/-- Runs a command on the storage of saved filters, which is out of reach of the program. -/
def runStored (s : Surroundings) (i : Invocation) : Except Failure (List String) := do
  let settings ← loadSettings s i
  .error (unreachable settings.storage)

/-- The settings as they may be shown. -/
def shownSettings (settings : Settings) : Settings :=
  { settings with storage.url := Connection.maskPassword settings.storage.url }

/-- Shows the settings. -/
def showSettings (s : Surroundings) (i : Invocation) : Except Failure (List String) := do
  let settings := shownSettings (← loadSettings s i)
  match i.format with
  | .table => .ok [(Outline.ofSettings settings).render 0]
  | .json => .ok (dataLines settings.toJson)

/-- Lines that tell of settings without fault. -/
def checkedLines (i : Invocation) (settings : Settings) : List String := [
  successLine ("Configuration '" ++ i.settings ++ "' is valid"),
  valueLine "Database" (shownSettings settings).storage.url,
  valueLine "Driver" settings.query.dialect.name,
  valueLine "Timezone" settings.query.timezone,
  valueLine "Strict rules" (if settings.query.strictRules then "true" else "false")]

/-- Checks the settings; a fault is told before the failure. -/
def checkSettings (s : Surroundings) (i : Invocation) : Output :=
  match loadSettings s i with
  | .ok settings => .of (.ok (checkedLines i settings))
  | .error failure =>
    let output := Output.of (.error failure)
    { output with
      stderr := textOf [failureLine ("Configuration invalid: " ++ failure.text)] ++ output.stderr }

/-! ## The program -/

/-- The paths of the data that a command may read. -/
def Command.paths : Command → List String
  | .compile subject listing _ => subject.schema :: listing.rulesPath?.toList
  | .filters subject => [subject.schema]
  | .search subject listing data _ _ => subject.schema :: data :: listing.rulesPath?.toList
  | _ => []

/-- The paths of all files that an invocation may read. -/
def Invocation.paths (i : Invocation) : List String :=
  Settings.pathsOf i.settings ++ Settings.pathsOf (Settings.environmentFile i.environment) ++
    i.command.paths

/-- Runs the command of an invocation. -/
def Invocation.run (s : Surroundings) (i : Invocation) : Output :=
  match i.command with
  | .compile subject listing dialect => .of (compile s i subject listing dialect)
  | .filters subject => .of (showFilters s i subject)
  | .search subject listing data page size =>
    .of (search s i subject listing data (page.map fun page => Page.make page size))
  | .saved .. | .migrate => .of (runStored s i)
  | .showSettings => .of (showSettings s i)
  | .checkSettings => checkSettings s i

/-- Runs the program. -/
def run (s : Surroundings) (arguments : List String) : Output :=
  match Invocation.read arguments with
  | .ok invocation => invocation.run s
  | .error stop => .stopped stop

end Winnow.CommandLine
