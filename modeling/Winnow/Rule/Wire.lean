import Winnow.Json.Reader
import Winnow.Rule.Tree

/-!
# The wire form of rule trees

A node is a record of its type and its content: a group with a condition and
children, or a rule.  A payload is a group node, the content of a group, an
array of nodes, which are joined by AND, or a text that holds one of these as
a document.

The content of a node in the form of an object is set aside before it is read;
in the form of an array it stands in its place, after the type.
-/

namespace Winnow.Rule

/-! ## Reading nodes -/

/-- The types of node. -/
inductive Tag where
  | group
  | rule
  deriving DecidableEq

/-- The names of the types of node. -/
def tags : List (String × Tag) := [("group", .group), ("rule", .rule)]

/-- Reads how the rules of a group are joined. -/
def conditionFromWire (standing : Wire.Standing) : Wire.Reader Connective :=
  Wire.oneOfIn standing [("AND", .and), ("OR", .or), ("and", .and), ("or", .or)]

/-- Reads the content of a rule. -/
def Leaf.fromWire : Wire.Reader Leaf := fun j => do
  let r ← Wire.Record.ofJson? ["rule", "operator", "operand", "value"] j
  some ⟨← r.required "rule" Wire.string, ← r.required "operator" Wire.string,
    ← r.optional "operand" Wire.string, ← r.withDefault "value" .null Wire.any⟩

/-- The condition among the members of a group. -/
def conditionOf (standing : Wire.Standing) (members : List (String × Json)) : Option Connective :=
  match Keyed.get? members "condition" with
  | some j => conditionFromWire standing j
  | none => some .and

mutual

/-- Reads a node. -/
def Node.fromWire (standing : Wire.Standing) : Json → Option Node
  | .object members =>
    match (Keyed.get? members "type").bind (Wire.oneOfIn standing tags) with
    | some tag => queryFromWire tag members
    | none => none
  | .array [tag, content] =>
    match Wire.labelIn standing tags tag with
    | some tag => contentFromWire standing tag content
    | none => none
  | _ => none

/-- Reads the content of a node among its members. -/
def queryFromWire (tag : Tag) : List (String × Json) → Option Node
  | [] => none
  | (name, j) :: rest =>
    if name = "query" then contentFromWire .setAside tag j else queryFromWire tag rest

/-- Reads the content of a node of a type. -/
def contentFromWire (standing : Wire.Standing) (tag : Tag) : Json → Option Node
  | .object members =>
    match tag with
    | .rule => (Leaf.fromWire (.object members)).map .leaf
    | .group =>
      match conditionOf standing members, childrenFromWire standing members with
      | some condition, some children => some (.group condition children)
      | _, _ => none
  | .array items =>
    match tag with
    | .rule => (Leaf.fromWire (.array items)).map .leaf
    | .group => groupFromItems standing items
  | _ => none

/-- Reads the content of a group in positions. -/
def groupFromItems (standing : Wire.Standing) : List Json → Option Node
  | [] => some (.group .and [])
  | [condition] => (conditionFromWire standing condition).map (.group · [])
  | [condition, children] =>
    match conditionFromWire standing condition, nodesFromWire standing children with
    | some condition, some children => some (.group condition children)
    | _, _ => none
  | _ => none

/-- Reads the children among the members of a group. -/
def childrenFromWire (standing : Wire.Standing) : List (String × Json) → Option (List Node)
  | [] => some []
  | (name, j) :: rest =>
    if name = "children" then nodesFromWire standing j else childrenFromWire standing rest

/-- Reads an array of nodes. -/
def nodesFromWire (standing : Wire.Standing) : Json → Option (List Node)
  | .array items => itemsFromWire standing items
  | _ => none

/-- Reads the nodes of an array. -/
def itemsFromWire (standing : Wire.Standing) : List Json → Option (List Node)
  | [] => some []
  | j :: rest =>
    match Node.fromWire standing j, itemsFromWire standing rest with
    | some node, some nodes => some (node :: nodes)
    | _, _ => none

end

/-! ## Reading trees -/

namespace Tree

/-- What was read, or the error that a node has not the right form. -/
def orInvalid {α : Type} : Option α → Except CompileError α
  | some a => .ok a
  | none => .error (.malformedTree .invalidNode)

/-- Reads a payload that is no text. -/
def ofData : Json → Except CompileError Tree
  | .null => .error (.malformedTree .noRules)
  | .array items => do ofGroup .and (← orInvalid (itemsFromWire .inPlace items))
  | .object members =>
    if Keyed.has members "type" then do
      ofNode (← orInvalid (Node.fromWire .inPlace (.object members)))
    else if Keyed.has members "children" then do
      ofNode (← orInvalid (contentFromWire .inPlace .group (.object members)))
    else .error (.malformedTree .notRules)
  | _ => .error (.malformedTree .notRules)

/-- Reads a payload. -/
def read : Json → Except CompileError Tree
  | .string text =>
    match Json.read? text with
    | none => .error (.malformedTree .invalidText)
    | some (.string _) => .error (.malformedTree .textHoldsText)
    | some j => ofData j
  | j => ofData j

/-- Reads a payload where one that cannot be used means no rules. -/
def read? (payload : Json) : Option Tree := (read payload).toOption

end Tree

/-! ## Writing -/

/-- The name of a condition. -/
def conditionName : Connective → String
  | .and => "AND"
  | .or => "OR"

/-- A node of a type with its content. -/
def tagged (type : String) (content : List (String × Json)) : Json :=
  Json.ofPairs [("type", .string type), ("query", Json.ofPairs content)]

/-- The wire form of a leaf. -/
def Leaf.toJson (l : Leaf) : Json :=
  let operand := match l.operand with
    | some operand => [("operand", Json.string operand)]
    | none => []
  tagged "rule"
    ([("rule", .string l.rule), ("operator", .string l.operator)] ++ operand ++
      [("value", l.value)])

mutual

/-- The wire form of a node. -/
def Node.toJson : Node → Json
  | .group condition children =>
    tagged "group"
      [("condition", .string (conditionName condition)),
        ("children", .array (nodesToJson children))]
  | .leaf l => l.toJson

/-- The wire forms of several nodes. -/
def nodesToJson : List Node → List Json
  | [] => []
  | node :: rest => node.toJson :: nodesToJson rest

end

/-- The wire form of a tree. -/
def Tree.toJson (t : Tree) : Json := t.root.toJson

end Winnow.Rule
