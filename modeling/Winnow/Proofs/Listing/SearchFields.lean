import Winnow.Proofs.Listing.Closed
import Winnow.Proofs.Text.Cutting

/-!
# The fields that a search reads

A predicate reads columns of the rows that it is about and, through questions
about related rows, of those (`Predicate.Reads`).  The predicate of a search
field reads what the field names and nothing else (`fieldPredicate_reads`), and
a search adds to a query at most one clause, of such predicates
(`searchGroup_cases`, `search_cases`).  So a search reads declared fields only,
those that the request names if it names any, or the primary key instead
(`search_whitelisted`).
-/

namespace Winnow

/-! ## Reading -/

/-- The names of the columns that are read. -/
def Column.names : Column → List String
  | .field _ name => [name]
  | .dateTimeParts _ date time => [date, time]

/-- Whether a predicate reads the column at the end of a path: of the rows that it is about, or
through relations that its questions follow. -/
inductive Predicate.Reads : Predicate → List String → Prop where
  | column {p : Predicate} {t : Test} {name : String} :
      t ∈ predicateTests p → name ∈ t.column.names → p.Reads [name]
  | related {p : Predicate} {link : Link} {q : Query} {clause : Clause} {path : List String} :
      (link, q) ∈ predicateQuestions p → clause ∈ q.clauses → clause.predicate.Reads path →
        p.Reads (link.name :: path)

/-- The clause that a group becomes reads what the clauses of the group read. -/
theorem Query.reads_of_groupPredicate {g : Query} {p : Predicate} (hp : g.groupPredicate = some p)
    {path : List String} (h : p.Reads path) :
    ∃ clause ∈ g.clauses, clause.predicate.Reads path := by
  obtain ⟨htests, hquestions⟩ := Query.of_groupPredicate hp
  cases h with
  | column ht hname =>
    obtain ⟨clause, hclause, ht⟩ := htests _ ht
    exact ⟨clause, hclause, .column ht hname⟩
  | related hasked hinner hreads =>
    obtain ⟨clause, hclause, hasked⟩ := hquestions _ hasked
    exact ⟨clause, hclause, .related hasked hinner hreads⟩

namespace Compile

section
variable {env : Environment} {filter : Filter} {operator : Operator} {value : Json}
  {p : Predicate} {path : List String}

theorem columnPredicate_reads {qualifier name field : String} {declared : Option ColumnType}
    (h : columnPredicate env (.field qualifier name) declared filter operator value field =
      .ok (some p)) (hreads : p.Reads path) : path = [name] := by
  cases hreads with
  | column ht hname =>
    rw [(Operation.predicate_typed h _ ht).1] at hname
    rw [List.mem_singleton.mp hname]
  | related hasked =>
    rw [Operation.predicate_questions h] at hasked
    cases hasked

/-- Induction on the path: each relation is a question, and only the last one tests a column. -/
theorem relatedPredicate_reads {field column : String} {relations : List String} {q : Query}
    (h : relatedPredicate env filter operator value field column relations q = .ok (some p))
    (hreads : p.Reads path) : path = relations ++ [column] := by
  induction relations generalizing q p path with
  | nil => exact columnPredicate_reads h hreads
  | cons relation rest ih =>
    unfold relatedPredicate at h
    obtain ⟨⟨link, related⟩, hlink, h⟩ := bind_eq_ok h
    obtain ⟨inner, hinner, h⟩ := bind_eq_ok h
    obtain ⟨p', rfl, rfl⟩ := Option.map_eq_some_iff.mp (Except.ok.inj h)
    rw [Query.relationQuery_eq] at hlink
    obtain ⟨_, -, heq⟩ := map_eq_ok hlink
    cases heq
    cases hreads with
    | column ht => cases ht
    | related hasked hclause hreads =>
      rw [predicateQuestions, List.mem_singleton] at hasked
      cases hasked
      cases List.mem_singleton.mp hclause
      rw [ih hinner hreads]
      rfl

/-- Without joins, and not of two columns, the predicate of a field reads the path of the field. -/
theorem fieldPredicate_reads (hjoins : env.joins = none) (hparts : filter.dateTimeParts = none)
    {q : Query} {field : String} (h : fieldPredicate env q field filter operator value = .ok (some p))
    (hreads : p.Reads path) :
    path = (env.registry.splitPath q.entity field).relations ++
      [(env.registry.splitPath q.entity field).column] := by
  unfold fieldPredicate at h
  rw [hparts] at h
  simp only at h
  have hunjoined : joinOf? env q (env.registry.splitPath q.entity field) = none := by
    unfold joinOf?
    rw [hjoins]
    exact ite_self _
  rw [hunjoined] at h
  split at h
  next hown =>
    have hrelations : (env.registry.splitPath q.entity field).relations = [] := by
      simpa [FieldPath.isRelated] using hown
    rw [hrelations]
    exact columnPredicate_reads h hreads
  next => exact relatedPredicate_reads h hreads

end

end Compile

/-! ## Groups of clauses -/

namespace Query

section
variable {g : Query} (h : g = { g.group with clauses := g.clauses }) (q : Query)
  (connective : Connective)

include h

/-- A group of clauses and nothing else becomes one clause and changes nothing else. -/
theorem addGroup_of_clauses :
    q.addGroup connective g = q.addPredicate connective g.groupPredicate := by
  have hparts : q.addParts g = q := by
    rw [h]
    cases q
    simp [addParts, group, ofEntity, load]
  rw [addGroup_eq, hparts]

theorem absorb_of_clauses :
    q.absorb connective g = q.addPredicate connective g.groupPredicate := by
  have hremoved : q.inheritRemoved g = q := by
    rw [h]
    rfl
  unfold absorb
  rw [hremoved, addGroup_of_clauses h]

end

/-- A group with one predicate at most becomes that predicate. -/
theorem groupPredicate_addPredicate (q : Query) (connective : Connective) (p : Option Predicate) :
    (q.group.addPredicate connective p).groupPredicate = p := by
  cases p <;> rfl

theorem addPredicate_of_clauses (q : Query) (connective : Connective) (p : Option Predicate) :
    q.group.addPredicate connective p =
      { (q.group.addPredicate connective p).group with
        clauses := (q.group.addPredicate connective p).clauses } := by
  cases p <;> rfl

end Query

namespace Listing

open Winnow.Text Compile

/-! ## Searches -/

/-- The connective between matches. -/
def SearchMatch.connective : SearchMatch → Connective
  | .all => .and
  | .any => .or

/-- The clauses that matches become; the first one follows nothing. -/
def matchClauses (mode : SearchMatch) : List Predicate → List Clause
  | [] => []
  | first :: rest => ⟨.and, first⟩ :: rest.map fun p => ⟨mode.connective, p⟩

theorem predicate_of_matchClauses {mode : SearchMatch} {ps : List Predicate} {clause : Clause}
    (h : clause ∈ matchClauses mode ps) : clause.predicate ∈ ps := by
  cases ps with
  | nil => cases h
  | cons first rest =>
    rcases List.mem_cons.mp h with rfl | h
    · exact List.mem_cons_self
    · obtain ⟨p, hp, rfl⟩ := List.mem_map.mp h
      exact List.mem_cons_of_mem first hp

theorem addMatches_eq (mode : SearchMatch) (q : Query) (ps : List Predicate) :
    addMatches mode q ps = { q with clauses := q.clauses ++ matchClauses mode ps } := by
  have hfold : ∀ (connective : Connective) (ps : List Predicate) (q : Query),
      ps.foldl (fun q p => q.addClause connective p) q = q.addClauses connective ps := by
    intro connective ps
    induction ps with
    | nil => exact fun q => (q.addClauses_nil connective).symm
    | cons p ps ih =>
      intro q
      rw [List.foldl_cons, ih]
      simp [Query.addClause, Query.addClauses]
  cases ps with
  | nil =>
    cases q
    simp [addMatches, matchClauses]
  | cons first rest =>
    have hmatches : addMatches mode q (first :: rest) =
        (q.addClause .and first).addClauses mode.connective rest := by
      cases mode <;> exact hfold ..
    rw [hmatches]
    simp [Query.addClause, Query.addClauses, matchClauses]

section
variable {env : Environment} {registry : Registry} {context : CompileContext}
  {settings : QuerySettings} {scope : SearchScope} {p : Parameters} {q r found : Query}
  {fields : List SearchableColumn} {text : String}

/-- A search looks up a key, or matches what is read of its fields. -/
theorem searchGroup_cases (h : searchGroup env settings p fields text q = .ok found) :
    (∃ key, lookedUpKey? settings p (SearchText.read fields text) = some key ∧
      found = q.group.addComparison q.entity.primaryKey .eq (.integer key) .and) ∨
    (lookedUpKey? settings p (SearchText.read fields text) = none ∧
      ∃ predicates,
        (searchTests env.registry q.entity fields (SearchText.read fields text)).mapM
          (fun test => searchPredicate env q test.1 test.2) = .ok predicates ∧
        found = addMatches (p.searchMatch.getD .any) q.group
          (predicates.filterMap fun p => p)) := by
  unfold searchGroup at h
  simp only at h
  split at h
  next key hkey =>
    cases h
    exact .inl ⟨key, hkey, rfl⟩
  next hkey =>
    obtain ⟨predicates, hpredicates, h⟩ := bind_eq_ok h
    cases h
    exact .inr ⟨hkey, predicates, hpredicates, rfl⟩

theorem searchGroup_clauses (h : searchGroup env settings p fields text q = .ok found) :
    found = { q.group with clauses := found.clauses } := by
  rcases searchGroup_cases h with ⟨key, -, rfl⟩ | ⟨-, predicates, -, rfl⟩
  · rfl
  · rw [addMatches_eq]

/-- A search that looks for something puts its group into what is extended, and that into the
query. -/
theorem search_cases (h : search registry context settings scope p q = .ok r) :
    (p.searchText? = none ∧ r = q) ∨ ∃ text fields found group,
      p.searchText? = some text ∧
      activeFields p (scope.searchable.getD q.entity.searchable) = .ok fields ∧
      searchGroup ⟨registry, context, none⟩ settings p fields text q = .ok found ∧
      scope.extend (q.group.addPredicate .and found.groupPredicate) = .ok group ∧
      r = q.absorb .and group := by
  unfold search at h
  split at h
  next htext =>
    cases h
    exact .inl ⟨htext, rfl⟩
  next text htext =>
    obtain ⟨fields, hfields, h⟩ := bind_eq_ok h
    obtain ⟨found, hfound, h⟩ := bind_eq_ok h
    obtain ⟨group, hgroup, h⟩ := bind_eq_ok h
    cases h
    have hfound := liftCompile_eq_ok hfound
    have hgroup := liftCompile_eq_ok hgroup
    have hclauses := searchGroup_clauses hfound
    rw [Query.addGroup_of_clauses (by rw [hclauses]; rfl)] at hgroup
    exact .inr ⟨text, fields, found, group, htext, hfields, hfound, hgroup, rfl⟩

/-- Without an extension a search appends at most one clause and changes nothing else. -/
theorem absorb_of_unextended (hextend : scope.extend = .ok) {predicate : Option Predicate}
    {group : Query} (hgroup : scope.extend (q.group.addPredicate .and predicate) = .ok group) :
    q.absorb .and group = q.addPredicate .and predicate := by
  rw [hextend] at hgroup
  cases hgroup
  rw [Query.absorb_of_clauses (q.addPredicate_of_clauses .and predicate),
    q.groupPredicate_addPredicate]

end

/-! ## Fields of a request -/

/-- Whether a request may search a field: it is declared, and named if the request names fields. -/
def Parameters.MaySearch (p : Parameters) (declared : List SearchableColumn) (field : String) :
    Prop :=
  field ∈ declared.map SearchableColumn.field ∧
    ∀ requested, p.requestedFields? = some requested → field ∈ requested.map Prod.fst

/-- Whether a request looks up a primary key: it names no field, in pairs neither, and searches for
a key. -/
def Parameters.LooksUpKey (p : Parameters) (settings : QuerySettings)
    (declared : List SearchableColumn) : Prop :=
  p.requestedFields? = none ∧ ∃ text, p.searchText? = some text ∧
    (SearchText.read declared text).pairs = [] ∧ (keyOfTerm? settings text).isSome = true

section
variable {p : Parameters} {declared fields : List SearchableColumn}

theorem activeFields_of_unnamed (h : p.requestedFields? = none) :
    activeFields p declared = .ok declared := by
  unfold activeFields
  rw [h]

theorem narrow_eq_some {request : String × Option SearchOperator} {column : SearchableColumn}
    (h : narrow declared request = some column) :
    column.field = request.1 ∧ column.field ∈ declared.map SearchableColumn.field := by
  obtain ⟨found, hfound, rfl⟩ := Option.map_eq_some_iff.mp h
  have hmem : found ∈ declared := List.mem_of_find?_eq_some hfound
  exact ⟨eq_of_beq (List.find?_some hfound :), List.mem_map.mpr ⟨found, hmem, rfl⟩⟩

/-- The fields of a search are ones that the request may search. -/
theorem maySearch_of_active (h : activeFields p declared = .ok fields) {column : SearchableColumn}
    (hcolumn : column ∈ fields) : p.MaySearch declared column.field := by
  unfold activeFields at h
  split at h
  next hnone =>
    cases h
    refine ⟨List.mem_map_of_mem hcolumn, fun requested hrequested => ?_⟩
    rw [hnone] at hrequested
    cases hrequested
  next requested hrequested =>
    simp only at h
    split at h
    · cases h
    · cases h
      obtain ⟨request, hrequest, hnarrow⟩ := List.mem_filterMap.mp hcolumn
      obtain ⟨hfield, hdeclared⟩ := narrow_eq_some hnarrow
      refine ⟨hdeclared, fun other hother => ?_⟩
      cases hrequested.symm.trans hother
      exact hfield ▸ List.mem_map_of_mem hrequest

/-- A request that names only fields that are not declared is refused. -/
theorem activeFields_refused {requested : List (String × Option SearchOperator)}
    (h : p.requestedFields? = some requested)
    (hundeclared : ∀ field ∈ requested.map Prod.fst,
      field ∉ declared.map SearchableColumn.field) :
    activeFields p declared =
      .error (notSearchable (requested.map Prod.fst) (declared.map SearchableColumn.field)) := by
  have hnarrowed : requested.filterMap (narrow declared) = [] := by
    rw [List.filterMap_eq_nil_iff]
    intro request hrequest
    cases hnarrow : narrow declared request with
    | none => rfl
    | some column =>
      obtain ⟨hfield, hdeclared⟩ := narrow_eq_some hnarrow
      exact absurd (hfield ▸ hdeclared) (hundeclared _ (List.mem_map_of_mem hrequest))
  unfold activeFields
  rw [h]
  simp only
  rw [hnarrowed]
  rfl

end

/-! ## Search texts -/

namespace SearchText

theorem isNone_pairOf? (fields : List SearchableColumn) (s : String) :
    (pairOf? fields s).isNone =
      decide (∀ pair ∈ readPair? s, pair.1 ∉ fields.map SearchableColumn.field) := by
  rw [Bool.eq_iff_iff, decide_eq_true_iff, Option.isNone_iff_eq_none, pairOf?,
    Option.filter_eq_none_iff]
  refine forall₂_congr fun pair _ => ?_
  rw [List.any_eq_true, List.mem_map]
  simp only [beq_iff_eq]

/-- The term is what is left of a text without the segments that are pairs on the fields. -/
theorem read_term (fields : List SearchableColumn) (text : String) :
    (read fields text).term =
      Option.guard (fun term => !term.isEmpty) (trim (join ";" ((split ';' text).filter fun s =>
        decide (∀ pair ∈ readPair? s, pair.1 ∉ fields.map SearchableColumn.field)))) := by
  unfold read Option.guard
  simp only [isNone_pairOf?]
  split <;> simp_all

/-- Without pairs the term is the text. -/
theorem read_term_of_unpaired {fields : List SearchableColumn} {text : String}
    (h : (read fields text).pairs = []) :
    (read fields text).term = Option.guard (fun term => !term.isEmpty) (trim text) := by
  have hsemicolon : ";" = String.singleton ';' := rfl
  have hall : (split ';' text).filter (fun s =>
      decide (∀ pair ∈ readPair? s, pair.1 ∉ fields.map SearchableColumn.field)) =
        split ';' text := by
    rw [List.filter_eq_self]
    intro s hs
    rw [← isNone_pairOf?, Option.isNone_iff_eq_none]
    exact List.filterMap_eq_nil_iff.mp h s hs
  rw [read_term, hall, hsemicolon, join_split]

end SearchText

theorem trim_searchText {p : Parameters} {text : String} (h : p.searchText? = some text) :
    trim text = text := by
  obtain ⟨hmap, -⟩ := Option.filter_eq_some_iff.mp h
  obtain ⟨q, -, rfl⟩ := Option.map_eq_some_iff.mp hmap
  exact trim_trim q

/-! ## What a search reads -/

section
variable {registry : Registry} {context : CompileContext} {settings : QuerySettings}
  {p : Parameters} {q found : Query} {declared fields : List SearchableColumn}

theorem field_of_searchTests {e : Entity} {search : SearchText}
    {test : SearchableColumn × String} (h : test ∈ searchTests registry e fields search) :
    test.1 ∈ fields := by
  unfold searchTests at h
  rcases List.mem_append.mp h with hpair | hterm
  · obtain ⟨pair, -, htest⟩ := List.mem_filterMap.mp hpair
    obtain ⟨column, hcolumn, rfl⟩ := Option.map_eq_some_iff.mp htest
    exact List.mem_of_find?_eq_some (p := fun c : SearchableColumn => c.field == pair.1) hcolumn
  · cases hsearch : search.term with
    | none =>
      rw [hsearch] at hterm
      cases hterm
    | some term =>
      rw [hsearch] at hterm
      obtain ⟨column, hcolumn, rfl⟩ := List.mem_map.mp hterm
      exact (List.mem_filter.mp hcolumn).1

/-- The predicate of a search field reads the field. -/
theorem searchPredicate_reads {column : SearchableColumn} {value : String} {predicate : Predicate}
    (h : searchPredicate ⟨registry, context, none⟩ q column value = .ok (some predicate))
    {path : List String} (hreads : predicate.Reads path) : join "." path = column.field := by
  rw [fieldPredicate_reads rfl rfl (searchPredicate_eq_ok h) hreads]
  exact registry.join_splitPath q.entity column.field

theorem looksUpKey_of_key {text : String} (htext : p.searchText? = some text)
    (hfields : activeFields p declared = .ok fields) {key : Int}
    (h : lookedUpKey? settings p (SearchText.read fields text) = some key) :
    p.LooksUpKey settings declared := by
  unfold lookedUpKey? at h
  split at h
  · cases h
  next hplain =>
    obtain ⟨hunnamed, hunpaired⟩ := not_or.mp (mt Bool.or_eq_true_iff.mpr hplain)
    have hunnamed : p.requestedFields? = none := by simpa using hunnamed
    cases (activeFields_of_unnamed hunnamed).symm.trans hfields
    have hunpaired : (SearchText.read declared text).pairs = [] := by simpa using hunpaired
    refine ⟨hunnamed, text, htext, hunpaired, ?_⟩
    obtain ⟨term, hterm, hkey⟩ := Option.bind_eq_some_iff.mp h
    rw [SearchText.read_term_of_unpaired hunpaired, trim_searchText htext] at hterm
    rw [(Option.guard_eq_some_iff.mp hterm).1, hkey]
    rfl

/-- The clauses of a search read fields that the request may search, or the primary key. -/
theorem searchGroup_reads {text : String} (htext : p.searchText? = some text)
    (hfields : activeFields p declared = .ok fields)
    (h : searchGroup ⟨registry, context, none⟩ settings p fields text q = .ok found)
    {clause : Clause} (hclause : clause ∈ found.clauses) {path : List String}
    (hreads : clause.predicate.Reads path) :
    p.MaySearch declared (join "." path) ∨
      (path = [q.entity.primaryKey] ∧ p.LooksUpKey settings declared) := by
  rcases searchGroup_cases h with ⟨key, hkey, rfl⟩ | ⟨-, predicates, hpredicates, rfl⟩
  · refine .inr ⟨?_, looksUpKey_of_key htext hfields hkey⟩
    cases List.mem_singleton.mp hclause
    cases hreads with
    | column ht hname =>
      rw [predicateTests, List.mem_singleton] at ht
      subst ht
      rw [List.mem_singleton.mp hname]
    | related hasked => cases hasked
  · rw [addMatches_eq] at hclause
    obtain ⟨_, hfound, rfl⟩ := List.mem_filterMap.mp (predicate_of_matchClauses hclause)
    obtain ⟨test, htest, hread⟩ := of_mem_mapM hpredicates hfound
    rw [searchPredicate_reads hread hreads]
    exact .inl (maySearch_of_active hfields (field_of_searchTests htest))

end

/-- A search reads fields that are declared, and named if the request names fields, whatever the
search text is; or it looks up the primary key.  It adds a clause with what its extension makes of
it, if there is one.  A request that searches, and names only fields that are not declared, is
refused with the declared ones.  The term of a search is what is left of the text without its pairs
on searched fields. -/
theorem search_whitelisted (registry : Registry) (context : CompileContext)
    (settings : QuerySettings) (scope : SearchScope) (p : Parameters) (q : Query) :
    let declared := scope.searchable.getD q.entity.searchable
    (∀ r, search registry context settings scope p q = .ok r → r = q ∨
      ∃ predicate group, scope.extend (q.group.addPredicate .and predicate) = .ok group ∧
        r = q.absorb .and group ∧ (scope.extend = .ok → r = q.addPredicate .and predicate) ∧
        ∀ found, predicate = some found → ∀ path, found.Reads path →
          p.MaySearch declared (join "." path) ∨
            (path = [q.entity.primaryKey] ∧ p.LooksUpKey settings declared)) ∧
    (∀ requested, p.searchText?.isSome = true → p.requestedFields? = some requested →
      (∀ field ∈ requested.map Prod.fst, field ∉ declared.map SearchableColumn.field) →
        request registry context settings scope p q = .error ⟨.authorization,
          "The search fields [" ++ join ", " (requested.map Prod.fst) ++
            "] are not allowed, acceptable fields are: " ++
              join ", " (declared.map SearchableColumn.field)⟩) ∧
    ∀ fields text, join ";" (split ';' text) = text ∧
      (SearchText.read fields text).term =
        Option.guard (fun term => !term.isEmpty) (trim (join ";" ((split ';' text).filter fun s =>
          decide (∀ pair ∈ readPair? s, pair.1 ∉ fields.map SearchableColumn.field)))) := by
  intro declared
  refine ⟨fun r h => ?_, fun requested htext hrequested hundeclared => ?_, fun fields text =>
    ⟨join_split ';' text, SearchText.read_term fields text⟩⟩
  · rcases search_cases h with ⟨-, hsame⟩ | ⟨text, fields, found, group, htext, hfields, hfound,
      hgroup, hr⟩
    · exact .inl hsame
    · refine .inr ⟨found.groupPredicate, group, hgroup, hr, fun hextend => ?_,
        fun predicate hpredicate path hreads => ?_⟩
      · rw [hr, absorb_of_unextended hextend hgroup]
      · obtain ⟨clause, hclause, hreads⟩ := Query.reads_of_groupPredicate hpredicate hreads
        exact searchGroup_reads htext hfields hfound hclause hreads
  · obtain ⟨text, htext⟩ := Option.isSome_iff_exists.mp htext
    have hsearch : search registry context settings scope p q =
        .error (notSearchable (requested.map Prod.fst)
          (declared.map SearchableColumn.field)) := by
      unfold search
      rw [htext]
      simp only
      rw [activeFields_refused hrequested hundeclared]
      rfl
    unfold request
    rw [hsearch]
    rfl

/-- Contacts searched by name or company: a pair on another field is part of the term, and other
fields cannot be asked for. -/
theorem search_whitelisted_sample :
    let scope : SearchScope := { searchable := some [⟨"name", .like⟩, ⟨"company.name", .equal⟩] }
    let q := Query.ofEntity Sample.contact
    let named : Parameters :=
      { text := some "name:An; id:7 ", searchFields := some "id; company.name:like" }
    let unnamed : Parameters := { text := some "Ann", searchFields := some "id;company_id:in" }
    (∃ r predicate, search Sample.registry Sample.context {} scope named q = .ok r ∧
      r = q.addPredicate .and (some predicate) ∧
      ∀ path, predicate.Reads path → join "." path = "company.name") ∧
    (SearchText.read [⟨"company.name", .like⟩] "name:An; id:7").term = some "name:An; id:7" ∧
    request Sample.registry Sample.context {} scope unnamed q = .error ⟨.authorization,
      "The search fields [id, company_id] are not allowed, acceptable fields are: " ++
        "name, company.name"⟩ := by
  intro scope q named unnamed
  have hnamed : named.requestedFields? = some [("id", none), ("company.name", some .like)] := by
    decide +kernel
  have hunnamed : unnamed.requestedFields? = some [("id", none), ("company_id", some .oneOf)] := by
    decide +kernel
  obtain ⟨hreads, -, hterm⟩ := search_whitelisted Sample.registry Sample.context {} scope named q
  obtain ⟨-, hrefused, -⟩ := search_whitelisted Sample.registry Sample.context {} scope unnamed q
  refine ⟨?_, ?_, hrefused _ (by decide +kernel) hunnamed (by decide +kernel)⟩
  · have hrun : (search Sample.registry Sample.context {} scope named q).toOption.map
        (fun r => r.clauses.length) = some 1 := by
      decide +kernel
    cases h : search Sample.registry Sample.context {} scope named q with
    | error failure =>
      rw [h] at hrun
      cases hrun
    | ok r =>
      rw [h] at hrun
      rcases hreads r h with rfl | ⟨predicate, group, -, -, hr, hpaths⟩
      · cases hrun
      · cases predicate with
        | none =>
          rw [hr rfl] at hrun
          cases hrun
        | some predicate =>
          refine ⟨r, predicate, rfl, hr rfl, fun path hpath => ?_⟩
          rcases hpaths predicate rfl path hpath with ⟨hdeclared, hrequested⟩ | ⟨-, hkey, -⟩
          · have hrequested := hrequested _ hnamed
            simp [scope] at hdeclared hrequested
            rcases hdeclared with hname | hname
            · rw [hname] at hrequested
              exact absurd hrequested (by decide)
            · exact hname
          · rw [hnamed] at hkey
            cases hkey
  · rw [(hterm _ _).2]
    decide +kernel

end Listing
end Winnow
