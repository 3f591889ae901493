import Winnow.Query.Basic

/-!
# Rule trees

Rules are conditions on filters, combined by groups with AND or OR to any
depth.  A tree is a root group that is not empty.
-/

namespace Winnow.Rule

/-- A condition on one filter. -/
structure Leaf where
  /-- Identifier of the filter. -/
  rule : String
  /-- Token of the operator as it was submitted. -/
  operator : String
  /-- The selected operand of a filter with operands. -/
  operand : Option String
  value : Json

/-- A group of nodes or a leaf. -/
inductive Node where
  | group (condition : Connective) (children : List Node)
  | leaf (leaf : Leaf)

/-- A root group with at least one child. -/
structure Tree where
  condition : Connective
  children : List Node
  children_ne_nil : children ≠ []

/-! ## Leaves -/

mutual

/-- The leaves of a node, depth first. -/
def Node.leaves : Node → List Leaf
  | .group _ children => nodeLeaves children
  | .leaf l => [l]

/-- The leaves of several nodes, depth first. -/
def nodeLeaves : List Node → List Leaf
  | [] => []
  | node :: rest => node.leaves ++ nodeLeaves rest

end

mutual

/-- The node with every leaf replaced. -/
def Node.mapLeaves (f : Leaf → Leaf) : Node → Node
  | .group condition children => .group condition (mapNodeLeaves f children)
  | .leaf l => .leaf (f l)

/-- The nodes with every leaf replaced. -/
def mapNodeLeaves (f : Leaf → Leaf) : List Node → List Node
  | [] => []
  | node :: rest => node.mapLeaves f :: mapNodeLeaves f rest

end

theorem mapNodeLeaves_ne_nil {f : Leaf → Leaf} {nodes : List Node} (h : nodes ≠ []) :
    mapNodeLeaves f nodes ≠ [] := by
  cases nodes with
  | nil => exact absurd rfl h
  | cons node rest => simp [mapNodeLeaves]

namespace Tree

/-- The tree with a root group, which must have a child. -/
def ofGroup (condition : Connective) (children : List Node) : Except CompileError Tree :=
  match children with
  | [] => .error (.malformedTree .emptyRoot)
  | node :: rest => .ok ⟨condition, node :: rest, by simp⟩

/-- The tree with a root node, which must be a group. -/
def ofNode : Node → Except CompileError Tree
  | .group condition children => ofGroup condition children
  | .leaf _ => .error (.malformedTree .rootNotGroup)

/-- The root group as a node. -/
def root (t : Tree) : Node := .group t.condition t.children

/-- The leaves, depth first. -/
def leaves (t : Tree) : List Leaf := nodeLeaves t.children

/-- The tree with every leaf replaced. -/
def mapLeaves (f : Leaf → Leaf) (t : Tree) : Tree :=
  ⟨t.condition, mapNodeLeaves f t.children, mapNodeLeaves_ne_nil t.children_ne_nil⟩

end Tree
end Winnow.Rule
