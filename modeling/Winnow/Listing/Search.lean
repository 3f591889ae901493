import Winnow.Compile.Leaf
import Winnow.Listing.Parameters
import Winnow.Settings.Basic

/-!
# Free-text search

A search text is cut at semicolons into pairs of a field and a value, as far
as the field may be searched, and a term made of the rest.  A pair is tested
on its field and the term on every field.  A term that is a number alone looks
up the primary key instead.  Fields that a value cannot be read for are left
out.
-/

namespace Winnow.Listing

open Winnow.Text

/-! ## Fields -/

/-- The failure of a request that names only fields that may not be searched. -/
def notSearchable (requested acceptable : List String) : Failure :=
  ⟨.authorization, "The search fields [" ++ join ", " requested ++
    "] are not allowed, acceptable fields are: " ++ join ", " acceptable⟩

/-- The declared field that a request names, with the operator it asks for. -/
def narrow (declared : List SearchableColumn) (request : String × Option SearchOperator) :
    Option SearchableColumn :=
  (declared.find? fun c => c.field == request.1).map fun c =>
    ⟨c.field, request.2.getD c.operator⟩

/-- The declared fields that a request names; all when it names none. -/
def activeFields (p : Parameters) (declared : List SearchableColumn) :
    Except Failure (List SearchableColumn) :=
  match p.requestedFields? with
  | none => .ok declared
  | some requested =>
    let narrowed := requested.filterMap (narrow declared)
    if narrowed.isEmpty then
      .error (notSearchable (requested.map Prod.fst) (declared.map SearchableColumn.field))
    else .ok narrowed

/-! ## Search text -/

/-- A search text: pairs of a field and a value, and a term. -/
structure SearchText where
  pairs : List (String × String)
  term : Option String
  deriving DecidableEq, Repr

/-- Whether a character can begin the name of a field in a pair. -/
def startsName (c : Char) : Bool := c.isAlpha || c == '_'

/-- Whether a character can go on the name of a field in a pair. -/
def continuesName (c : Char) : Bool := startsName c || isDigit c || c == '.'

/-- The field and the value of a segment: a name, a colon, and a value on one line. -/
def readPair? (segment : String) : Option (String × String) :=
  let cs := trimStartChars segment.toList
  let field := cs.takeWhile continuesName
  match field, trimStartChars (cs.dropWhile continuesName) with
  | first :: _, ':' :: value =>
    if startsName first && !value.contains '\n' then
      some (String.ofList field, trim (String.ofList value))
    else none
  | _, _ => none

namespace SearchText

/-- The pair that a segment writes on one of the fields. -/
def pairOf? (fields : List SearchableColumn) (segment : String) : Option (String × String) :=
  (readPair? segment).filter fun pair => fields.any fun c => c.field == pair.1

/-- Cuts a search text into the pairs on some fields and the term. -/
def read (fields : List SearchableColumn) (text : String) : SearchText :=
  let segments := split ';' text
  let rest := segments.filter fun segment => (pairOf? fields segment).isNone
  let term := trim (join ";" rest)
  ⟨segments.filterMap (pairOf? fields), if term.isEmpty then none else some term⟩

end SearchText

/-- The primary key that a term is, when it is short enough: a positive number without leading
zeros. -/
def keyOfTerm? (settings : QuerySettings) (term : String) : Option Int :=
  match term.toList with
  | [] => none
  | first :: rest =>
    if term.utf8ByteSize ≤ settings.maxKeyLength && (first :: rest).all isDigit && first != '0' then
      (readInt64 term).toOption
    else none

/-- Whether a term has the form of a number or a telephone number. -/
def isNumeric (term : String) : Bool :=
  let cs := match term.toList with
    | '+' :: rest => rest
    | cs => cs
  cs.any isDigit && cs.all fun c =>
    isDigit c || isBlank c || c == '(' || c == ')' || c == '.' || c == '-'

/-! ## Predicates -/

/-- The operator of a rule that tests a search field. -/
def searchOperation : SearchOperator → Operator
  | .equal => .equal
  | .like => .contains
  | .oneOf => .in_

/-- The predicate of a value on a search field; none when the value cannot be read for it. -/
def searchPredicate (env : Environment) (q : Query) (column : SearchableColumn) (value : String) :
    Except CompileError (Option Predicate) :=
  let filter := Filter.plain .text column.field column.field
  match Compile.fieldPredicate env q column.field filter (searchOperation column.operator)
      (.string value) with
  | .error (.invalidValue ..) => .ok none
  | result => result

/-- Whether a field is an integer key of the entity it belongs to. -/
def isKeyField (registry : Registry) (entity : Entity) (field : String) : Bool :=
  let path := registry.splitPath entity field
  match registry.walk entity path.relations with
  | .ok owner => owner.isKeyColumn path.column
  | .error _ => false

/-- The fields that a term is tested on; keys only when the term is numeric. -/
def termFields (registry : Registry) (entity : Entity) (fields : List SearchableColumn)
    (term : String) : List SearchableColumn :=
  fields.filter fun c => isNumeric term || !isKeyField registry entity c.field

/-- The fields that a search text is tested on, each with its value. -/
def searchTests (registry : Registry) (entity : Entity) (fields : List SearchableColumn)
    (search : SearchText) : List (SearchableColumn × String) :=
  let ofPair (pair : String × String) : Option (SearchableColumn × String) :=
    (fields.find? fun c => c.field == pair.1).map fun c => (c, pair.2)
  let ofTerm (term : String) : List (SearchableColumn × String) :=
    (termFields registry entity fields term).map fun c => (c, term)
  search.pairs.filterMap ofPair ++ (search.term.map ofTerm).getD []

/-- Appends predicates, all or any of which must hold. -/
def addMatches (mode : SearchMatch) (q : Query) : List Predicate → Query
  | [] => q
  | first :: rest =>
    let connective : Connective := match mode with
      | .all => .and
      | .any => .or
    rest.foldl (fun q p => q.addClause connective p) (q.addClause .and first)

/-- The primary key that a search looks up, which it does only when the request names no field. -/
def lookedUpKey? (settings : QuerySettings) (p : Parameters) (search : SearchText) : Option Int :=
  if p.requestedFields?.isSome || !search.pairs.isEmpty then none
  else search.term.bind (keyOfTerm? settings)

/-- The group of what a search text must match. -/
def searchGroup (env : Environment) (settings : QuerySettings) (p : Parameters)
    (fields : List SearchableColumn) (text : String) (q : Query) : Except CompileError Query :=
  let search := SearchText.read fields text
  match lookedUpKey? settings p search with
  | some key => .ok (q.group.addComparison q.entity.primaryKey .eq (.integer key) .and)
  | none => do
    let tests := searchTests env.registry q.entity fields search
    let predicates ← tests.mapM fun (column, value) => searchPredicate env q column value
    .ok (addMatches (p.searchMatch.getD .any) q.group (predicates.filterMap fun p => p))

/-- A search of a listing: the fields that may be searched when they are not those of the entity,
and what is added to the group of the search. -/
structure SearchScope where
  searchable : Option (List SearchableColumn) := none
  extend : Query → Except CompileError Query := .ok

/-- The text that is searched for, unless it is blank. -/
def Parameters.searchText? (p : Parameters) : Option String :=
  (p.text.map trim).filter fun text => !text.isEmpty

/-- Puts the search for the text of a request into a query as one group. -/
def search (registry : Registry) (context : CompileContext) (settings : QuerySettings)
    (scope : SearchScope) (p : Parameters) (q : Query) : Except Failure Query :=
  match p.searchText? with
  | none => .ok q
  | some text => do
    let fields ← activeFields p (scope.searchable.getD q.entity.searchable)
    let found ← Failure.liftCompile
      (searchGroup ⟨registry, context, none⟩ settings p fields text q)
    let group ← Failure.liftCompile (scope.extend (q.group.addGroup .and found))
    .ok ((q.inheritRemoved group).addGroup .and group)

end Winnow.Listing
