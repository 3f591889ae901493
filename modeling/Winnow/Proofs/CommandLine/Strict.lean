import Winnow.CommandLine.Run
import Winnow.Proofs.Filter.Derived
import Winnow.Proofs.Listing.Leniency
import Winnow.Proofs.Listing.Rendering
import Winnow.Proofs.SavedFilter.Failures

/-!
# The strict option

Both commands on listings can be told that rules which do not compile are
errors.  Compiling a listing then fails just when the check of its rules does,
and with its failure; running one never looks at the option and skips such rules
(`strict_rules`).
-/

namespace Winnow

open Compile

namespace CommandLine

/-! ## Parts of a command -/

/-- The listings of the entities in a file, and the user who asks for one. -/
def prepare (s : Surroundings) (i : Invocation) (subject : Subject) (o : ListingOptions) :
    Except Failure (ListingService × Caller) := do
  let settings ← listingSettings s i o
  let registry ← readRegistry s.files subject.schema
  let service ← listingService registry settings
  .ok (service, ← o.caller s)

/-- The check of the rules that the options give, as before they are saved. -/
def validateRules (s : Surroundings) (i : Invocation) (subject : Subject) (o : ListingOptions) :
    Except Failure Unit := do
  let (service, caller) ← prepare s i subject o
  match ← o.ruleData s.files with
  | none => .ok ()
  | some payload => do
    let resource ← service.catalog.get subject.entity
    FilterService.checkRules ⟨service.catalog, service.settings⟩ caller resource payload

/-- The data in a file, as rows of the entities in another. -/
def loadData (s : Surroundings) (subject : Subject) (data : String) : Except Failure Dataset := do
  let registry ← readRegistry s.files subject.schema
  Dataset.load registry (← readData s.files data)

/-- Listings that are rendered in a dialect, when one is asked for. -/
def inDialect (service : ListingService) (dialect : Option Dialect) : ListingService :=
  { service with
    settings := { service.settings with dialect := dialect.getD service.settings.dialect } }

/-- What the options ask for with certain rules. -/
def requestWith (o : ListingOptions) (rules : Option Json) : ListingRequest :=
  { parameters := o.parameters, source := { rules } }

/-- Whether a listing skips a rule of a payload: the rule cannot be compiled, and wherever it comes
the query is left as it was. -/
def Skips (service : ListingService) (caller : Caller) (resource : Resource) (payload : Json)
    (rule : Connective × Rule.Leaf) : Prop :=
  ∃ context entity, caller.context service.settings = .ok context ∧
    service.catalog.entity resource = .ok entity ∧
    rule ∈ Listing.placedRules resource.filters context payload ∧
    let env : Environment := ⟨service.catalog.registry, context,
      Listing.rulesJoins resource.filters service.catalog.registry context payload entity⟩
    (compileLeaf resource.filters env rule.2 rule.1 (Query.ofEntity entity)).isOk = false ∧
      ∀ start : Query, start.group = Query.ofEntity entity →
        compileNode resource.filters env rule.1 start (.leaf rule.2) = .ok start

section
variable {s : Surroundings} {i : Invocation} {subject : Subject} {o : ListingOptions}

/-- Compiling a listing checks its rules first. -/
theorem compile_eq (dialect : Option Dialect) :
    compile s i subject o dialect = (prepare s i subject o).bind fun (service, caller) =>
      (o.request s.files).bind fun request =>
        (checkRequest service caller subject.entity request).bind fun _ =>
          ((inDialect service dialect).listing {} caller subject.entity request).bind fun query =>
            ((inDialect service dialect).render query).map (renderedLines i.format) := by
  unfold compile prepare listingService
  simp only [bind, Except.bind]
  cases listingSettings s i o with
  | error failure => rfl
  | ok settings =>
    cases readRegistry s.files subject.schema with
    | error failure => rfl
    | ok registry =>
      simp only
      cases Catalog.ofEntities registry with
      | error failure => rfl
      | ok catalog =>
        simp only
        cases o.caller s <;> rfl

/-- Running a listing needs the same parts. -/
theorem prepare_of_search {data : String} {page : Option Page} {lines : List String}
    (h : search s i subject o data page = .ok lines) :
    ∃ service caller, prepare s i subject o = .ok (service, caller) := by
  obtain ⟨settings, hsettings, h⟩ := bind_eq_ok h
  obtain ⟨registry, hregistry, h⟩ := bind_eq_ok h
  obtain ⟨rows, -, h⟩ := bind_eq_ok h
  obtain ⟨db, -, h⟩ := bind_eq_ok h
  obtain ⟨service, hservice, h⟩ := bind_eq_ok h
  obtain ⟨caller, hcaller, -⟩ := bind_eq_ok h
  refine ⟨service, caller, ?_⟩
  unfold prepare
  simp only [hsettings, hregistry, hservice, hcaller, bind, Except.bind]

/-- Running a listing does not look at the option. -/
theorem search_strict (strict : Bool) (data : String) (page : Option Page) :
    search s i subject { o with strict } data page = search s i subject o data page := by
  unfold search listingSettings listingService
  simp only [bind, Except.bind]
  cases loadSettings s i with
  | error failure => rfl
  | ok settings =>
    cases readRegistry s.files subject.schema with
    | error failure => rfl
    | ok registry =>
      cases readData s.files data with
      | error failure => rfl
      | ok rows =>
        simp only
        cases Dataset.load registry rows with
        | error failure => rfl
        | ok db =>
          simp only
          -- the two settings differ in the option alone, which no listing reads
          cases Catalog.ofEntities registry <;> rfl

section
variable {service : ListingService} {caller : Caller}
  (hprepare : prepare s i subject o = .ok (service, caller))

include hprepare

theorem prepare_parts : ∃ settings registry, listingSettings s i o = .ok settings ∧
    readRegistry s.files subject.schema = .ok registry ∧
    Catalog.ofEntities registry = .ok service.catalog ∧ service.settings = settings ∧
    o.caller s = .ok caller := by
  obtain ⟨settings, hsettings, h⟩ := bind_eq_ok hprepare
  obtain ⟨registry, hregistry, h⟩ := bind_eq_ok h
  obtain ⟨made, hmade, h⟩ := bind_eq_ok h
  obtain ⟨user, huser, h⟩ := bind_eq_ok h
  cases h
  obtain ⟨catalog, hcatalog, hmade⟩ := bind_eq_ok hmade
  cases hmade
  exact ⟨settings, registry, hsettings, hregistry, hcatalog, rfl, huser⟩

theorem strictRules_of_prepare : service.settings.strictRules = o.strict := by
  obtain ⟨settings, -, hsettings, -, -, hsame, -⟩ := prepare_parts hprepare
  obtain ⟨loaded, -, hsettings⟩ := bind_eq_ok hsettings
  cases hsettings
  rw [hsame]

theorem derived_of_prepare {identifier : String} {resource : Resource}
    (hresource : service.catalog.get identifier = .ok resource) :
    resource.filters.IsDerived := by
  obtain ⟨-, registry, -, -, hcatalog, -⟩ := prepare_parts hprepare
  exact Catalog.ofEntities_derived hcatalog hresource

/-- The check of rules is the one that compiling makes. -/
theorem validateRules_eq : validateRules s i subject o = (o.request s.files).bind fun request =>
    checkRequest service caller subject.entity request := by
  unfold validateRules ListingOptions.request checkRequest
  simp only [hprepare, bind, Except.bind]
  cases o.ruleData s.files with
  | error failure => rfl
  | ok rules => cases rules <;> rfl

/-- Running a listing does not check its rules. -/
theorem search_eq (data : String) (page : Option Page) :
    search s i subject o data page = (loadData s subject data).bind fun db =>
      (o.request s.files).bind fun request =>
        (service.listing {} caller subject.entity request).map fun query =>
          rowLines i.format db ((page.map query.paginate).getD query) page := by
  obtain ⟨settings, registry, hsettings, hregistry, hcatalog, rfl, hcaller⟩ :=
    prepare_parts hprepare
  unfold search loadData listingService
  simp only [hsettings, hregistry, hcatalog, hcaller, bind, Except.bind]
  cases readData s.files data with
  | error failure => rfl
  | ok rows =>
    simp only
    cases Dataset.load registry rows with
    | error failure => rfl
    | ok db =>
      cases o.request s.files with
      | error failure => rfl
      | ok request =>
        simp only
        cases service.listing {} caller subject.entity request <;> rfl

/-- A listing that is run has a query. -/
theorem listing_of_search {data : String} {page : Option Page}
    (h : (search s i subject o data page).isOk = true) : ∃ query request,
      service.listing {} caller subject.entity request = .ok query := by
  obtain ⟨lines, h⟩ := ok_of_isOk h
  rw [search_eq hprepare] at h
  obtain ⟨db, -, h⟩ := bind_eq_ok h
  obtain ⟨request, -, h⟩ := bind_eq_ok h
  obtain ⟨query, hlisting, -⟩ := map_eq_ok h
  exact ⟨query, request, hlisting⟩

/-! ## Success -/

omit hprepare in
/-- Rules have no part in whether a listing succeeds. -/
theorem listing_isOk (rules : Option Json) :
    (service.listing {} caller subject.entity (requestWith o rules)).isOk =
      (service.listing {} caller subject.entity (requestWith o none)).isOk := by
  rw [← map_isOk Query.group, ← map_isOk Query.group
    (service.listing {} caller subject.entity (requestWith o none))]
  exact congrArg Except.isOk
    (service.listing_group_congr {} caller subject.entity (requestWith o none) { rules })

/-- A listing that succeeds is rendered. -/
theorem rendered_isOk (dialect : Option Dialect) (request : ListingRequest) :
    (((inDialect service dialect).listing {} caller subject.entity request).bind fun query =>
      ((inDialect service dialect).render query).map (renderedLines i.format)).isOk =
      (service.listing {} caller subject.entity request).isOk := by
  rw [show (inDialect service dialect).listing {} caller subject.entity request =
    service.listing {} caller subject.entity request from rfl]
  cases hlisting : service.listing {} caller subject.entity request with
  | error failure => rfl
  | ok query =>
    have hfilters : ∀ resource, service.catalog.get subject.entity = .ok resource →
        resource.filters.Plain ∧ resource.filters.SingleColumns := by
      intro resource hresource
      have hderived := derived_of_prepare hprepare hresource
      exact ⟨hderived.plain, hderived.singleColumns⟩
    obtain ⟨rendered, hrendered⟩ := @ListingService.listing_render_ok
      (inDialect service dialect) _ _ _ _ _ hfilters hlisting
    simp only [Except.bind, hrendered]
    rfl

end

/-- Rules that pass the check can be read. -/
theorem ruleData_isOk (h : (validateRules s i subject o).isOk = true) :
    (o.ruleData s.files).isOk = true := by
  obtain ⟨passed, h⟩ := ok_of_isOk h
  obtain ⟨made, -, h⟩ := bind_eq_ok h
  obtain ⟨rules, hrules, -⟩ := bind_eq_ok h
  rw [hrules]
  rfl

/-- Compiling a listing fails with the failure of the check. -/
theorem compile_of_check {failure : Failure} (hcheck : validateRules s i subject o = .error failure)
    (dialect : Option Dialect) : compile s i subject o dialect = .error failure := by
  rw [compile_eq]
  cases hprepare : prepare s i subject o with
  | error found =>
    unfold validateRules at hcheck
    rw [hprepare] at hcheck
    cases hcheck
    rfl
  | ok made =>
    obtain ⟨service, caller⟩ := made
    rw [validateRules_eq hprepare] at hcheck
    simp only [Except.bind]
    rcases bind_eq_error hcheck with hrequest | ⟨request, hrequest, hcheck⟩
    · simp only [hrequest]
    · simp only [hrequest, hcheck]

/-- Compiling a listing succeeds when its rules pass the check and it would without them. -/
theorem compile_isOk (dialect : Option Dialect) :
    (compile s i subject o dialect).isOk =
      ((compile s i subject { o with rules := none } dialect).isOk &&
        (validateRules s i subject o).isOk) := by
  rw [compile_eq, compile_eq,
    show prepare s i subject { o with rules := none } = prepare s i subject o from rfl]
  cases hprepare : prepare s i subject o with
  | error failure => rfl
  | ok made =>
    obtain ⟨service, caller⟩ := made
    rw [validateRules_eq hprepare]
    show _ = ((((inDialect service dialect).listing {} caller subject.entity
      (requestWith o none)).bind _).isOk && _)
    rw [rendered_isOk hprepare]
    unfold ListingOptions.request
    cases o.ruleData s.files with
    | error failure => exact (Bool.and_false _).symm
    | ok rules =>
      show ((checkRequest service caller subject.entity (requestWith o rules)).bind _).isOk =
        (_ && (checkRequest service caller subject.entity (requestWith o rules)).isOk)
      cases checkRequest service caller subject.entity (requestWith o rules) with
      | error failure => exact (Bool.and_false _).symm
      | ok _ =>
        -- the check is passed: what is left depends on the rules neither in the listing nor after it
        refine Eq.trans ?_ (Bool.and_true _).symm
        refine (rendered_isOk hprepare dialect (requestWith o rules)).trans ?_
        exact listing_isOk rules

/-- Running a listing succeeds when its rules can be read and it would without them. -/
theorem search_isOk (data : String) (page : Option Page) :
    (search s i subject o data page).isOk =
      ((search s i subject { o with rules := none } data page).isOk &&
        (o.ruleData s.files).isOk) := by
  cases hprepare : prepare s i subject o with
  | error failure =>
    have hfails : ∀ rules, (search s i subject { o with rules } data page).isOk = false := by
      intro rules
      cases hsearch : search s i subject { o with rules } data page with
      | error failure => rfl
      | ok lines =>
        obtain ⟨service, caller, hmade⟩ := prepare_of_search hsearch
        cases hprepare.symm.trans hmade
    exact (hfails o.rules).trans (congrArg (· && _) (hfails none)).symm
  | ok made =>
    obtain ⟨service, caller⟩ := made
    have hbare : prepare s i subject { o with rules := none } = .ok (service, caller) := hprepare
    rw [search_eq hprepare, search_eq hbare]
    cases loadData s subject data with
    | error failure => rfl
    | ok db =>
      unfold ListingOptions.request
      cases o.ruleData s.files with
      | error failure => exact (Bool.and_false _).symm
      | ok rules =>
        refine Eq.trans ?_ (Bool.and_true _).symm
        refine (map_isOk _ _).trans (Eq.trans ?_ (map_isOk _ _).symm)
        exact listing_isOk rules

/-! ## Skipped rules -/

section
variable {service : ListingService} {caller : Caller} {resource : Resource} {payload : Json}
  (hprepare : prepare s i subject o = .ok (service, caller))
  (hresource : service.catalog.get subject.entity = .ok resource)
  (hpayload : o.ruleData s.files = .ok (some payload))

include hprepare hresource hpayload

theorem validateRules_payload : validateRules s i subject o =
    FilterService.checkRules ⟨service.catalog, service.settings⟩ caller resource payload := by
  unfold validateRules
  simp only [hprepare, hpayload, hresource, bind, Except.bind]

/-- Rules that are a tree pass the strict check just when each of them can be compiled in the
listing. -/
theorem validateRules_isOk_iff (hstrict : o.strict = true) (htree : IsTree payload)
    {context : CompileContext} {entity : Entity}
    (hcontext : caller.context service.settings = .ok context)
    (hentity : service.catalog.entity resource = .ok entity) :
    (validateRules s i subject o).isOk = true ↔
      ∀ rule ∈ Listing.placedRules resource.filters context payload,
        (compileLeaf resource.filters ⟨service.catalog.registry, context,
          Listing.rulesJoins resource.filters service.catalog.registry context payload entity⟩
          rule.2 rule.1 (Query.ofEntity entity)).isOk = true := by
  obtain ⟨tree, hread⟩ := htree
  have hplain := (derived_of_prepare hprepare hresource).plain
  have hrules : service.settings.strictRules = true :=
    (strictRules_of_prepare hprepare).trans hstrict
  have hchecked := @FilterService.checkRules_isOk_iff ⟨service.catalog, service.settings⟩ payload tree
    hrules hread caller resource (hplain.eachCustom _) context entity hcontext hentity
  rw [validateRules_payload hprepare hresource hpayload, hchecked]
  refine forall₂_congr fun rule _ => ?_
  have hsame := compileLeaf_validating resource.filters
    ⟨service.catalog.registry, context,
      Listing.rulesJoins resource.filters service.catalog.registry context payload entity⟩
    (hplain.eachCustom _) .strict rule.2 rule.1 (Query.ofEntity entity)
  exact Iff.of_eq (congrArg (fun x => x.isOk = true) hsame)

/-- Rules that pass the strict check are all used. -/
theorem not_skips (hstrict : o.strict = true) (hcheck : (validateRules s i subject o).isOk = true)
    (rule : Connective × Rule.Leaf) : ¬Skips service caller resource payload rule := by
  rintro ⟨context, entity, hcontext, hentity, hrule, hfails, -⟩
  obtain ⟨passed, hpassed⟩ := ok_of_isOk hcheck
  rw [validateRules_payload hprepare hresource hpayload] at hpassed
  have htree := FilterService.isTree_of_checkRules _ caller hpassed
  have hall := (validateRules_isOk_iff hprepare hresource hpayload hstrict htree hcontext
    hentity).mp hcheck rule hrule
  rw [hfails] at hall
  cases hall

/-- Of rules that do not pass it a listing skips one. -/
theorem exists_skips (hstrict : o.strict = true) (htree : IsTree payload)
    (hcheck : (validateRules s i subject o).isOk = false) {query : Query}
    {request : ListingRequest}
    (hlisting : service.listing {} caller subject.entity request = .ok query) :
    ∃ rule, Skips service caller resource payload rule := by
  obtain ⟨found, hfound, hlisting⟩ := bind_eq_ok hlisting
  cases hresource.symm.trans hfound
  obtain ⟨start, hstart, -⟩ := bind_eq_ok hlisting
  obtain ⟨context, hcontext, hstart⟩ := bind_eq_ok hstart
  obtain ⟨base, hbase, -⟩ := bind_eq_ok hstart
  obtain ⟨entity, hentity, -⟩ := bind_eq_ok hbase
  rw [← Bool.not_eq_true, validateRules_isOk_iff hprepare hresource hpayload hstrict htree hcontext
    hentity] at hcheck
  obtain ⟨rule, hrejected⟩ := not_forall.mp hcheck
  obtain ⟨hrule, hfails⟩ := not_forall.mp hrejected
  have hfails := Bool.eq_false_iff.mpr hfails
  exact ⟨rule, context, entity, hcontext, hentity, hrule, hfails, fun _ hstart =>
    skips_leaf (FilterService.context_validation hcontext) hfails hstart⟩

end

/-! ## Main result -/

/-- Told to be strict, compiling a listing fails with the failure of the check of its rules, and
otherwise as it would without rules.  Running one does the same as without the option: it fails when
the rules cannot be read or when it would without rules, so it rejects what the check rejects only
where it never succeeds on rules that fail the check.  Where the check succeeds no rule is skipped,
and where it fails on a tree and the listing is run all the same, one is. -/
theorem strict_rules (s : Surroundings) (i : Invocation) (subject : Subject) (o : ListingOptions)
    (dialect : Option Dialect) (data : String) (page : Option Page) (hstrict : o.strict = true) :
    let bare := { o with rules := none }
    let check := validateRules s i subject o
    let compiled := compile s i subject o dialect
    let found := search s i subject o data page
    let unruled := search s i subject bare data page
    (∀ failure, check = .error failure → compiled = .error failure) ∧
    compiled.isOk = ((compile s i subject bare dialect).isOk && check.isOk) ∧
    found = search s i subject { o with strict := false } data page ∧
    found.isOk = (unruled.isOk && (o.ruleData s.files).isOk) ∧
    (found.isOk = (unruled.isOk && check.isOk) ↔ (found.isOk = true → check.isOk = true)) ∧
    ∀ service caller resource payload, prepare s i subject o = .ok (service, caller) →
      service.catalog.get subject.entity = .ok resource →
      o.ruleData s.files = .ok (some payload) →
      (compiled.isOk = true → ∀ rule, ¬Skips service caller resource payload rule) ∧
      (found.isOk = true → IsTree payload →
        (check.isOk = true ↔ ∀ rule, ¬Skips service caller resource payload rule)) := by
  intro bare check compiled found unruled
  have hcompiled : compiled.isOk = ((compile s i subject bare dialect).isOk && check.isOk) :=
    compile_isOk dialect
  have hfound : found.isOk = (unruled.isOk && (o.ruleData s.files).isOk) := search_isOk data page
  refine ⟨fun failure hcheck => ?_, hcompiled, (search_strict false data page).symm, hfound,
    ⟨fun hsame hok => ?_, fun honly => ?_⟩,
    fun service caller resource payload hprepare hresource hpayload =>
      ⟨fun hok => ?_, fun hok htree => ⟨fun hpasses => ?_, fun hnone => ?_⟩⟩⟩
  · exact compile_of_check hcheck dialect
  · rw [hsame, Bool.and_eq_true] at hok
    exact hok.2
  · -- the other difference, rules that cannot be read, the check rejects as well
    rw [hfound]
    rw [hfound] at honly
    have hread := @ruleData_isOk s i subject o
    revert hread honly
    cases unruled.isOk <;> cases (o.ruleData s.files).isOk <;> cases check.isOk <;> decide
  · rw [hcompiled, Bool.and_eq_true] at hok
    exact not_skips hprepare hresource hpayload hstrict hok.2
  · exact not_skips hprepare hresource hpayload hstrict hpasses
  · by_contra hfails
    obtain ⟨query, request, hlisting⟩ := listing_of_search hprepare hok
    obtain ⟨rule, hskips⟩ := exists_skips hprepare hresource hpayload hstrict htree
      (Bool.eq_false_iff.mpr hfails) hlisting
    exact hnone rule hskips

/-! ## A sample -/

/-- Deals that are described in one file and listed in another. -/
def ofDeals : Surroundings where
  files := Files.ofReads [
    ("schema.json", .ok ("[\x7b\"name\":\"deals\",\"table\":\"deals\"," ++
      "\"columns\":\x7b\"id\":\"integer\",\"name\":\"text\"\x7d\x7d]")),
    ("data.json", .ok "\x7b\"deals\":[\x7b\"id\":1,\"name\":\"Alpha\"\x7d]\x7d")]
  now := ⟨0, 0⟩

def deals : Subject := ⟨"schema.json", "deals"⟩

/-- Strict options with one rule, on a filter of this name. -/
def strictlyOn (filter : String) : ListingOptions where
  rules := some ("[\x7b\"type\":\"rule\",\"query\":\x7b\"rule\":\"" ++ filter ++
    "\",\"operator\":\"equal\",\"value\":\"x\"\x7d\x7d]")
  strict := true

def searchDeals (filter : String) : Invocation where
  command := .search deals (strictlyOn filter) "data.json" none 25

/-- A rule on an unknown filter does not pass the check. -/
theorem missing_fails : (validateRules ofDeals (searchDeals "missing") deals
    (strictlyOn "missing")).isOk = false := by
  decide +kernel

/-- The listing is run with it all the same. -/
theorem missing_searched : (search ofDeals (searchDeals "missing") deals (strictlyOn "missing")
    "data.json" none).isOk = true := by
  decide +kernel

/-- A rule on a filter that there is compiles; one on an unknown filter does not, and it is skipped
where the listing is run. -/
theorem strict_rules_sample :
    (compile ofDeals (searchDeals "name") deals (strictlyOn "name") none).isOk = true ∧
    (compile ofDeals (searchDeals "missing") deals (strictlyOn "missing") none).isOk = false ∧
    ∃ service caller resource payload rule,
      prepare ofDeals (searchDeals "missing") deals (strictlyOn "missing") = .ok (service, caller) ∧
      Skips service caller resource payload rule := by
  have hmade : (prepare ofDeals (searchDeals "missing") deals (strictlyOn "missing")).toOption.any
      (fun made => (made.1.catalog.get "deals").isOk) = true := by
    decide +kernel
  have hread : (((strictlyOn "missing").ruleData ofDeals.files).toOption.bind id).any
      (fun payload => (Rule.Tree.read payload).isOk) = true := by
    decide +kernel
  obtain ⟨⟨service, caller⟩, hprepare, hget⟩ := (Option.any_eq_true _ _).mp hmade
  obtain ⟨resource, hresource⟩ := ok_of_isOk hget
  obtain ⟨payload, hpayload, htree⟩ := (Option.any_eq_true _ _).mp hread
  obtain ⟨rules, hrules, rfl⟩ := Option.bind_eq_some_iff.mp hpayload
  have hprepare := ok_of_toOption hprepare
  obtain ⟨-, hcompiled, -, -, -, hskips⟩ := strict_rules ofDeals (searchDeals "missing") deals
    (strictlyOn "missing") none "data.json" none rfl
  have hiff := (hskips service caller resource payload hprepare hresource
    (ok_of_toOption hrules)).2 missing_searched (ok_of_isOk htree)
  rw [missing_fails, Bool.and_false] at hcompiled
  rw [missing_fails] at hiff
  have hsome : ∃ rule, Skips service caller resource payload rule := by
    by_contra hnone
    exact absurd (hiff.mpr fun rule hskipped => hnone ⟨rule, hskipped⟩) (by decide)
  obtain ⟨rule, hskipped⟩ := hsome
  have hcompiles : (compile ofDeals (searchDeals "name") deals (strictlyOn "name") none).isOk =
      true := by
    decide +kernel
  exact ⟨hcompiles, hcompiled, service, caller, resource, payload, rule, hprepare, hskipped⟩

/-- So a strict search can succeed on rules that fail the strict check. -/
theorem strict_search_skips :
    ¬ ∀ (s : Surroundings) (i : Invocation) (subject : Subject) (o : ListingOptions)
        (data : String) (page : Option Page), o.strict = true →
      (search s i subject o data page).isOk = true →
        (validateRules s i subject o).isOk = true := by
  intro h
  have hpasses := h ofDeals (searchDeals "missing") deals (strictlyOn "missing") "data.json" none
    rfl missing_searched
  rw [missing_fails] at hpasses
  cases hpasses

end

end CommandLine
end Winnow
