import Winnow.Engine.Execute
import Winnow.Listing.Page
import Winnow.Listing.Period
import Winnow.Listing.Request
import Winnow.Listing.Rules
import Winnow.Listing.Table
import Winnow.Resource.Catalog
import Winnow.SavedFilter.Source
import Winnow.Sql.Writer

/-!
# Listings of resources

The query behind each view of a resource.  The resource is looked up first,
then the source of the rules, then the context of the caller; then the query
is refined by the rules and by what the request asks for.
-/

namespace Winnow

/-- A request for a listing or a table. -/
structure ListingRequest where
  parameters : Listing.Parameters := {}
  source : RuleSource := {}
  /-- The view whose default filter applies. -/
  view : Option String := none

/-- A request for an export. -/
structure ExportRequest where
  source : RuleSource := {}
  /-- The period to export, as a value. -/
  period : Json := .null

/-- Reads the wire form.  Its members are set aside, to be told apart as those of the parts. -/
def ListingRequest.fromWire : Wire.Reader ListingRequest := fun j => do
  let r ← Wire.Record.ofObject? j
  some {
    parameters := ← Listing.Parameters.ofRecord? .setAside r
    source := ← RuleSource.ofRecord? r
    view := ← r.optional "view" Wire.string }

/-- Reads the wire form. -/
def ExportRequest.fromWire : Wire.Reader ExportRequest := fun j => do
  let r ← Wire.Record.ofObject? j
  some {
    source := ← RuleSource.ofRecord? r
    period := ← r.withDefault "period" .null Wire.any }

/-- What listings depend on. -/
structure ListingService where
  catalog : Catalog
  settings : QuerySettings

namespace ListingService

/-- What a listing of a resource starts from. -/
structure Start where
  resource : Resource
  rules : Option Json
  context : CompileContext
  query : Query

/-- The query for all rows of a resource. -/
def baseQuery (s : ListingService) (resource : Resource) : Except Failure Query := do
  .ok (Query.ofEntity (← s.catalog.entity resource))

/-- Looks up what a listing starts from. -/
def start (s : ListingService) (store : FilterStore) (caller : Caller) (resource : Resource)
    (source : RuleSource) (view : String) : Except Failure Start := do
  let rules := source.resolve store resource.identifier view caller.user
  let context ← caller.context s.settings
  .ok ⟨resource, rules, context, ← s.baseQuery resource⟩

/-- Puts the rules of a listing into its query, if it has any. -/
def addRules (s : ListingService) (start : Start) (q : Query) : Except Failure Query :=
  match start.rules with
  | some rules => Failure.liftCompile
    (Listing.addRules start.resource.filters s.catalog.registry start.context rules q)
  | none => .ok q

/-- Refines the query of a listing as requested. -/
def addRequest (s : ListingService) (start : Start) (p : Listing.Parameters) (q : Query) :
    Except Failure Query :=
  Listing.request s.catalog.registry start.context s.settings {} p q

/-- The query of a listing, ordered by the default order of the entity unless the request orders
it. -/
def listing (s : ListingService) (store : FilterStore) (caller : Caller) (identifier : String)
    (request : ListingRequest) : Except Failure Query := do
  let resource ← s.catalog.get identifier
  let view := request.view.getD SavedFilter.defaultView
  let start ← s.start store caller resource request.source view
  let q ← Failure.liftCompile
    (Listing.orderByAll s.catalog.registry start.query.entity.defaultOrder start.query)
  let q ← s.addRules start q
  s.addRequest start request.parameters q

/-- The query of a table, ordered by its columns. -/
def table (s : ListingService) (store : FilterStore) (caller : Caller) (identifier : String)
    (request : ListingRequest) : Except Failure Query := do
  let resource ← s.catalog.get identifier
  let view := request.view.getD SavedFilter.defaultView
  let start ← s.start store caller resource request.source view
  let q ← s.addRules start start.query
  let q ← s.addRequest start { request.parameters with order := [] } q
  Failure.liftCompile
    (Listing.orderTable s.catalog.registry resource.tableColumns request.parameters.order [] q)

/-- The view that exports are. -/
def exportView : String := "export"

/-- The query of an export: the rows of a period, the newest first. -/
def export_ (s : ListingService) (store : FilterStore) (caller : Caller) (identifier : String)
    (request : ExportRequest) : Except Failure Query := do
  let resource ← s.catalog.get identifier
  let column ← match resource.exportColumn with
    | some column => .ok column
    | none => .error ⟨.validation, "Resource '" ++ identifier ++ "' cannot be exported"⟩
  let period ← Failure.liftCompile (Period.ofJson request.period)
  let start ← s.start store caller resource request.source exportView
  let q ← s.addRules start start.query
  Failure.liftCompile (Listing.export_ start.context column period q)

/-- The query of rules alone. -/
def preview (s : ListingService) (context : CompileContext) (identifier : String) (rules : Json) :
    Except Failure Query := do
  let resource ← s.catalog.get identifier
  let q ← s.baseQuery resource
  Failure.liftCompile (Listing.addRules resource.filters s.catalog.registry context rules q)

/-- Renders a query in the configured dialect. -/
def render (s : ListingService) (q : Query) : Except Failure Sql.Rendered :=
  Sql.renderSelect s.settings.dialect q

end ListingService
end Winnow
