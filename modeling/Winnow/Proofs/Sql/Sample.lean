import Winnow.Query.Builder

/-!
# A sample query

Deals that are not deleted, with the name of their company and the number of
their subdeals, that either have no amount or carry a certain tag.
-/

namespace Winnow.Sql.Sample

def company : Entity :=
  ((Entity.make "company" "companies").addColumn "name" .text).addScope
    (GlobalScope.softDeletes "deleted_at")

def tag : Entity := (Entity.make "tag" "tags").addColumn "name" .text

/-- A deal may belong to a company and to another deal, and has tags through a table that tags
other rows too. -/
def deal : Entity :=
  ((((((Entity.make "deal" "deals").addColumn "amount" .integer).addColumn "company_id"
    .integer).addRelation "company" (Relation.belongsTo "company" "company_id")).addRelation
    "subdeals" (Relation.hasMany "deal" "parent_id")).addRelation "tags"
    ((Relation.belongsToMany "tag" "taggables" "taggable_id" "tag_id").withMorph "taggable_type"
      "deal")).addScope (GlobalScope.softDeletes "deleted_at")

def registry : Registry := ⟨[("company", company), ("deal", deal), ("tag", tag)]⟩

/-- The query of the sample. -/
def built : Except CompileError Query := do
  let (company, q) ← (Query.ofEntity deal).joinPath registry ["company"]
  let (_, q) ← q.countRelated registry "subdeals"
  let (link, tags) ← q.relationQuery registry "tags"
  let tags := tags.addComparison "name" .eq (.text "hot") .and
  .ok (((q.addNull "amount" false .and).addRelated .or link tags false).addOrder
    (.column (.field company "name")) .ascending |>.take 5)

/-- The query of the sample. -/
def query : Query := built.toOption.getD (Query.ofEntity deal)

/-- Rows of a table that have a value in a column. -/
def valued (table column : String) (value : Value) : Query :=
  (Query.ofEntity (Entity.make "row" table)).addComparison column .eq value .and

end Winnow.Sql.Sample
