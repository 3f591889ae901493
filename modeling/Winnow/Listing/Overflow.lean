import Winnow.Compile.Overflow
import Winnow.Listing.Period
import Winnow.Listing.Rules
import Winnow.Listing.Search

/-!
# Criteria that end the program

Rules, searches and exports arrive at dates by unchecked steps.  Where one of
the dates is not representable, putting the criteria into a query ends the
program instead of giving a query or an error.
-/

namespace Winnow.Listing

open Compile

/-- The operators that the rules of a payload apply. -/
def rulesOperations (filters : FilterSet) (registry : Registry) (context : CompileContext)
    (payload : Json) (q : Query) : List Operation :=
  match Rule.Tree.read? payload with
  | some tree =>
    let tree := tree.fillUser filters context.user
    let joins := if needsJoins filters registry q.entity tree then
      some (joinTargets filters registry q.entity tree) else none
    treeOperations filters ⟨registry, context, joins⟩ tree q
  | none => []

/-- Whether the rules of a payload end the program. -/
def rulesOverflow (filters : FilterSet) (registry : Registry) (context : CompileContext)
    (payload : Json) (q : Query) : Bool :=
  (rulesOperations filters registry context payload q).any Operation.overflows

/-- The operator that tests a value on a search field. -/
def testOperation (env : Environment) (q : Query) (column : SearchableColumn) (value : String) :
    Except CompileError Operation :=
  fieldOperation env q column.field (Filter.plain .text column.field column.field)
    (searchOperation column.operator) (.string value)

/-- The operators that test values on search fields, up to the first test that fails. -/
def testOperations (env : Environment) (q : Query) :
    List (SearchableColumn × String) → List Operation
  | [] => []
  | (column, value) :: rest =>
    (testOperation env q column value).toOption.toList ++
      if (searchPredicate env q column value).isOk then testOperations env q rest else []

/-- The operators that the search of a request applies; none when it looks up a key. -/
def searchOperations (registry : Registry) (context : CompileContext) (settings : QuerySettings)
    (scope : SearchScope) (p : Parameters) (q : Query) : List Operation :=
  match p.searchText?, activeFields p (scope.searchable.getD q.entity.searchable) with
  | some text, .ok fields =>
    let search := SearchText.read fields text
    if (lookedUpKey? settings p search).isSome then []
    else testOperations ⟨registry, context, none⟩ q (searchTests registry q.entity fields search)
  | _, _ => []

/-- Whether a request ends the program. -/
def requestOverflows (registry : Registry) (context : CompileContext) (settings : QuerySettings)
    (scope : SearchScope) (p : Parameters) (q : Query) : Bool :=
  (searchOperations registry context settings scope p q).any Operation.overflows

/-- The dates that a period is resolved with. -/
def periodDates (context : CompileContext) (type : ColumnType) : Period → List Date
  | .window w => context.windowDates type w
  | .range first last =>
    context.localToday ::
      context.boundDates type ((Period.range first last).days? context.localToday)

/-- The dates that an export arrives at by unchecked steps. -/
def exportDates (context : CompileContext) (column : String) (period : Option Period) (q : Query) :
    List Date :=
  match q.entity.columnType? column, period with
  | some type, some period => periodDates context type period
  | _, _ => []

/-- Whether an export ends the program. -/
def exportOverflows (context : CompileContext) (column : String) (period : Option Period)
    (q : Query) : Bool :=
  (exportDates context column period q).any fun date => !date.inRange

end Winnow.Listing
