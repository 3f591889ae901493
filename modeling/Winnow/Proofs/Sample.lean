import Winnow.Proofs.Compile.Resolved
import Winnow.Proofs.Compile.Targets
import Winnow.Proofs.Condition.Readings

/-!
# A sample

Contacts that may belong to a company, two of which do, and filters on the name
of a contact and on the name of its company.
-/

namespace Winnow.Sample

open Engine Compile Condition

def company : Entity := (Entity.make "company" "companies").addColumn "name" .text

def contact : Entity :=
  (((Entity.make "contact" "contacts").addColumn "name" .text).addColumn "company_id"
    .integer).addRelation "company" (Relation.belongsTo "company" "company_id")

def registry : Registry := ⟨[("company", company), ("contact", contact)]⟩

/-- A contact with a name, at a company if there is one. -/
def contactRow (id : Int) (name : String) (company : Value) : Row :=
  [("company_id", company), ("id", .integer id), ("name", .text name)]

/-- The second contact has no company. -/
def dataset : Dataset :=
  ⟨[("companies", [[("id", .integer 1), ("name", .text "Globex")]]),
    ("contacts", [contactRow 1 "Ann" (.integer 1), contactRow 2 "Ben" .null,
      contactRow 3 "Cid" (.integer 1)])]⟩

/-- Filters on the name of a contact and on that of its company. -/
def filters : FilterSet :=
  ⟨[Filter.plain .text "name" "Name",
    { Filter.plain .text "company" "Company" with column := some "company.name" }]⟩

def context : CompileContext := { now := ⟨0, 0⟩ }

/-- A rule on a filter. -/
def rule (filter operator : String) (value : Json) : Rule.Node :=
  .leaf ⟨filter, operator, none, value⟩

/-- Contacts other than Cid that have no company or one with a certain name, and a rule on a filter
that does not exist. -/
def tree : Rule.Tree :=
  ⟨.and, [.group .or [rule "company" "is_null" .null, rule "company" "begins_with" (.string "glo")],
    rule "name" "not_equal" (.string "Cid"), rule "missing" "equal" .null], by simp⟩

/-- Contacts without a company, or with one that has no name. -/
def missingCompany : Rule.Tree := ⟨.and, [rule "company" "is_null" .null], by simp⟩

/-- Contacts with a company of a certain name. -/
def ofCompany : Rule.Tree := ⟨.and, [rule "company" "begins_with" (.string "glo")], by simp⟩

theorem filters_plain : filters.Plain := by
  intro f hf
  simp [filters, Filter.plain] at hf
  rcases hf with rfl | rfl <;> simp

/-- A contact belongs to one company at most. -/
theorem uniqueToOne : UniqueToOne dataset registry contact := by
  intro e he relation found related hrelated hfound row hrow
  have he : e = company ∨ e = contact := by
    rcases he with rfl | ⟨name, hname⟩
    · exact .inr rfl
    · unfold Registry.get at hname
      cases hget : registry.entities.get? name with
      | none => simp [hget] at hname
      | some found =>
        rw [hget] at hname
        cases hname
        have := Keyed.mem_of_get? hget
        simp only [registry, List.mem_cons, List.not_mem_nil, or_false, Prod.mk.injEq] at this
        exact this.imp And.right And.right
  rcases he with rfl | rfl
  · cases hrelated
  · by_cases hrelation : "company" = relation
    · subst hrelation
      cases hrelated
      revert row
      decide
    · have hnone : contact.relation? relation = none := if_neg hrelation
      unfold Registry.related at hrelated
      rw [hnone] at hrelated
      cases hrelated

/-- Only the company of a contact is ever joined, and its alias is not the name of the table. -/
theorem aliasesApart (tree : Rule.Tree) :
    AliasesApart contact.table (IsJoined filters registry contact tree) := by
  have hjoined : ∀ path, IsJoined filters registry contact tree path → path = ["company"] := by
    rintro path ⟨hne, leaf, -, target, htarget, -, hstart⟩
    have hrelations : target.relations = ["company"] := by
      unfold leafPath? at htarget
      cases hget : filters.get? leaf.rule with
      | none => simp [hget] at htarget
      | some filter =>
        have hmem : filter ∈ filters.filters := List.mem_of_find?_eq_some hget
        rw [hget] at htarget
        simp only [filters, List.mem_cons, List.not_mem_nil, or_false] at hmem
        rcases hmem with rfl | rfl
        · cases htarget
        · cases htarget
          rfl
    rw [hrelations] at hstart
    obtain ⟨rest, hrest⟩ := hstart
    cases path with
    | nil => exact absurd rfl hne
    | cons first others =>
      simp only [List.cons_append, List.cons.injEq, List.append_eq_nil_iff] at hrest
      rw [hrest.1, hrest.2.1]
  intro path hpath
  rw [hjoined path hpath]
  exact ⟨by decide, fun other hother _ => (hjoined other hother).symm⟩

/-- The name of a missing company does not begin with anything. -/
theorem ofCompany_rejects (row : Row) (hrow : row ∈ dataset.rows contact.table) (leaf : Rule.Leaf)
    (hleaf : leaf ∈ ofCompany.leaves) :
    ¬ AcceptsMissing dataset registry context filters contact leaf row := by
  rintro ⟨⟨path, hpath, -, hreached⟩, c, hc, hnull⟩
  have hleaf : leaf = ⟨"company", "begins_with", none, .string "glo"⟩ := List.mem_singleton.mp hleaf
  rw [hleaf] at hpath hc
  cases hpath
  have hrejects : ∀ row ∈ dataset.rows contact.table, reached dataset registry contact ["company"]
      row = [] → (ofLeaf dataset registry context filters contact
        ⟨"company", "begins_with", none, .string "glo"⟩).toOption.join.map (fun c => c .null row) =
          some false := by
    decide +kernel
  have := hrejects row hrow hreached
  rw [hc] at this
  exact absurd (hnull.symm.trans (Option.some.inj this)) (by decide)

end Winnow.Sample
