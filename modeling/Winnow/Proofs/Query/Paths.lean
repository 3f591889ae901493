import Winnow.Proofs.Engine.JoinAliases

/-!
# Joining the paths of field references

Three walks follow the relations of a field reference: splitting the reference
takes as many of its segments as lead on, the test for to-one paths follows
them, and so does joining, which adds a join for every beginning of the path
(`joinPath_hasJoin`).  They agree: a reference is split in one way, and its path
can be joined exactly when it is to-one (`paths_agree`).
-/

namespace Winnow
namespace Query

section
variable {registry : Registry} {q r : Query}

/-- Whether one query has the joins of another, and one under the alias of each of some paths, and
no other. -/
def AddsPaths (q r : Query) (walked : List (List String)) : Prop :=
  ∀ name, r.hasJoin name = true ↔
    q.hasJoin name = true ∨ ∃ path ∈ walked, Text.join "_" path = name

theorem AddsPaths.step (registry : Registry) (q : Query) : KeptByStep registry (AddsPaths q) := by
  intro r walked path join h _ halias _ name
  rw [hasJoin_addJoin, h name, halias, or_assoc]
  simp only [List.mem_append, List.mem_singleton, or_and_right, exists_or, exists_eq_left]

/-- Joining a path takes the aliases of its beginnings and no others. -/
theorem joinPath_hasJoin {path : List String} {tableAlias : String}
    (h : q.joinPath registry path = .ok (tableAlias, r)) (name : String) :
    r.hasJoin name = true ↔ q.hasJoin name = true ∨
      ∃ front, front ≠ [] ∧ front <+: path ∧ Text.join "_" front = name := by
  have hnone : AddsPaths q q [] := by simp [AddsPaths]
  obtain ⟨-, -, hadded⟩ := joinPath_steps (AddsPaths.step registry q) hnone h
  rw [hadded name]
  constructor
  · rintro (htaken | ⟨front, hfront, hname⟩)
    · exact .inl htaken
    · obtain ⟨hne, hprefix⟩ := mem_stepsFrom hfront
      exact .inr ⟨front, hne, hprefix, hname⟩
  · rintro (htaken | ⟨front, hne, hprefix, hname⟩)
    · exact .inl htaken
    · exact .inr ⟨front, mem_stepsFrom_of_start [] hne hprefix, hname⟩

end

end Query

/-! ## Staff

Employees have a manager and reports, who are employees too, and a column whose
name has a point. -/

namespace Staff

def employee : Entity :=
  ((((Entity.make "employees" "employees").addColumn "manager_id" .integer).addColumn "name.first"
    .text).addRelation "manager" (Relation.belongsTo "employees" "manager_id")).addRelation
      "reports" (Relation.hasMany "employees" "manager_id")

def registry : Registry := ⟨[("employees", employee)]⟩

end Staff

namespace Query

/-- A field reference is split in one way: into the longest path in front of it that can be walked
and leaves a segment, and the column that is left.  When the entity is registered, a column of
several segments does not begin with a relation of the entity that the path leads to.  A path can
be joined to a query of the entity exactly when it is to-one; the alias of its end is then the
relations joined with underscores, and the aliases of its beginnings are taken, those of joins from
before, and no others. -/
theorem paths_agree (registry : Registry) (e : Entity) :
    (∀ field, ∃ target, registry.SplitsAt e field (registry.splitPath e field) target ∧
      (∀ path other, registry.SplitsAt e field path other → path = registry.splitPath e field) ∧
      ∀ entities name, Registry.ofEntities entities = .ok registry → registry.get name = .ok e →
        ∀ first next rest,
          Text.split '.' (registry.splitPath e field).column = first :: next :: rest →
            target.relation? first = none) ∧
    ∀ (q : Query) (path : List String), q.entity = e → path ≠ [] →
      (registry.isToOnePath e path = true ↔ (q.joinPath registry path).isOk = true) ∧
      ∀ tableAlias r, q.joinPath registry path = .ok (tableAlias, r) →
        tableAlias = Text.join "_" path ∧
        ∀ name, r.hasJoin name = true ↔ q.hasJoin name = true ∨
          ∃ front, front ≠ [] ∧ front <+: path ∧ Text.join "_" front = name := by
  constructor
  · intro field
    obtain ⟨target, hsplits⟩ := registry.splitPath_splits e field
    refine ⟨target, hsplits, fun path other hother => hother.eq_splitPath, ?_⟩
    intro entities name hregistry he first next rest hcolumn
    exact hsplits.relation?_eq_none hregistry he hcolumn
  · rintro q path rfl hne
    refine ⟨joinPath_isOk_iff.symm, fun tableAlias r hjoin => ⟨?_, joinPath_hasJoin hjoin⟩⟩
    exact joinFrom_alias hjoin hne

/-- The first name of the manager of a manager. -/
theorem paths_agree_staff :
    let field := "manager.manager.name.first"
    let path : FieldPath := ⟨["manager", "manager"], "name.first"⟩
    (∃ target, Staff.registry.SplitsAt Staff.employee field path target ∧
      target.relation? "name" = none) ∧
    Staff.registry.isToOnePath Staff.employee path.relations = true ∧
    ∃ r, (ofEntity Staff.employee).joinPath Staff.registry path.relations =
        .ok ("manager_manager", r) ∧
      r.hasJoin "manager" = true ∧ r.hasJoin "manager_manager" = true := by
  intro field path
  obtain ⟨hsplit, hjoin⟩ := paths_agree Staff.registry Staff.employee
  obtain ⟨target, hsplits, -, hcolumn⟩ := hsplit field
  have hpath : Staff.registry.splitPath Staff.employee field = path := by decide +kernel
  rw [hpath] at hsplits hcolumn
  obtain ⟨htoOne, hjoined⟩ := hjoin (ofEntity Staff.employee) path.relations rfl (by decide)
  have htrue : Staff.registry.isToOnePath Staff.employee path.relations = true := by decide +kernel
  obtain ⟨⟨tableAlias, r⟩, hr⟩ := ok_of_isOk (htoOne.mp htrue)
  obtain ⟨halias, hnames⟩ := hjoined tableAlias r hr
  have hname : tableAlias = "manager_manager" := halias.trans (by decide +kernel)
  refine ⟨⟨target, hsplits, ?_⟩, htrue, r, hname ▸ hr, ?_, ?_⟩
  · exact hcolumn [Staff.employee] "employees" rfl rfl "name" "first" [] (by decide +kernel)
  · exact (hnames "manager").mpr (.inr ⟨["manager"], by decide, by decide, by decide +kernel⟩)
  · exact (hnames "manager_manager").mpr
      (.inr ⟨["manager", "manager"], by decide, by decide, by decide +kernel⟩)

end Query
end Winnow
