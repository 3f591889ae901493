import Winnow.Proofs.Keyed
import Winnow.Rule.Wire

/-!
# Rules are read as they were written

Whatever is written for a tree is read as that tree again (`Node.fromWire_toJson`),
in its place or set aside.  Data set aside has more forms for names than data
in its place, and what both take is read the same (`Node.fromWire_setAside`).  So
the content of a group says the same alone as in a group node, where it is set
aside, as long as it is taken alone; with plain names it always is
(`contentFromWire_of_plainNames`).
-/

namespace Winnow.Rule

open Wire

/-! ## Members -/

theorem queryFromWire_eq (tag : Tag) (members : List (String × Json)) :
    queryFromWire tag members =
      (Keyed.get? members "query").bind (contentFromWire .setAside tag) := by
  induction members with
  | nil => rfl
  | cons member rest ih =>
    obtain ⟨name, j⟩ := member
    rw [queryFromWire, Keyed.get?]
    by_cases hname : name = "query"
    · rw [if_pos hname, if_pos hname, Option.bind_some]
    · rw [if_neg hname, if_neg hname, ih]

theorem childrenFromWire_eq (standing : Standing) (members : List (String × Json)) :
    childrenFromWire standing members =
      match Keyed.get? members "children" with
      | some j => nodesFromWire standing j
      | none => some [] := by
  induction members with
  | nil => rfl
  | cons member rest ih =>
    obtain ⟨name, j⟩ := member
    rw [childrenFromWire, Keyed.get?]
    by_cases hname : name = "children"
    · rw [if_pos hname, if_pos hname]
    · rw [if_neg hname, if_neg hname, ih]

/-- The members of a node with a type and a content. -/
theorem get?_node (type : String) (content : Json) :
    Keyed.get? (Keyed.ofPairs [("type", .string type), ("query", content)]) "type" =
        some (.string type) ∧
      Keyed.get? (Keyed.ofPairs [("type", .string type), ("query", content)]) "query" =
        some content := by
  constructor
  · simp [Keyed.ofPairs, Keyed.get?_put]
  · simp [Keyed.ofPairs, Keyed.get?_put]

/-- The content of a node with a type is set aside, wherever the node stands. -/
theorem Node.fromWire_node (standing : Standing) {type : String} {tag : Tag} (content : Json)
    (htag : choose tags type = some tag) :
    Node.fromWire standing (Json.ofPairs [("type", .string type), ("query", content)]) =
      contentFromWire .setAside tag content := by
  obtain ⟨htype, hquery⟩ := get?_node type content
  have hname : oneOfIn standing tags (.string type) = some tag := htag
  rw [Json.ofPairs, Node.fromWire, htype, Option.bind_some, hname]
  simp only
  rw [queryFromWire_eq, hquery, Option.bind_some]

/-! ## What is written -/

theorem Leaf.fromWire_toJson (standing : Standing) (l : Leaf) :
    Node.fromWire standing l.toJson = some (.leaf l) := by
  obtain ⟨rule, operator, operand, value⟩ := l
  have htag : choose tags "rule" = some .rule := by decide
  rw [Leaf.toJson, tagged, Node.fromWire_node standing _ htag, Json.ofPairs, contentFromWire,
    Leaf.fromWire]
  cases operand with
  | none =>
    simp [Record.ofJson?, Record.required, Record.optional, Record.withDefault, Record.find?,
      Keyed.ofPairs, Keyed.get?_put, Keyed.get?, Wire.string, Wire.any, Json.text?]
  | some operand =>
    simp [Record.ofJson?, Record.required, Record.optional, Record.withDefault, Record.find?,
      Keyed.ofPairs, Keyed.get?_put, nullable, Wire.string, Wire.any, Json.text?]

mutual

theorem Node.fromWire_toJson (standing : Standing) : (node : Node) →
    Node.fromWire standing node.toJson = some node
  | .leaf l => by
    rw [Node.toJson]
    exact Leaf.fromWire_toJson standing l
  | .group condition children => by
    have htag : choose tags "group" = some .group := by decide
    have hcondition : conditionOf .setAside (Keyed.ofPairs
        [("condition", .string (conditionName condition)),
          ("children", .array (nodesToJson children))]) = some condition := by
      unfold conditionOf
      simp only [Keyed.ofPairs, List.foldl, Keyed.get?_put]
      cases condition <;> rfl
    have hchildren : Keyed.get? (Keyed.ofPairs
        [("condition", Json.string (conditionName condition)),
          ("children", .array (nodesToJson children))]) "children" =
        some (.array (nodesToJson children)) := by
      simp [Keyed.ofPairs, Keyed.get?_put]
    rw [Node.toJson, tagged, Node.fromWire_node standing _ htag, Json.ofPairs, contentFromWire,
      hcondition, childrenFromWire_eq, hchildren]
    simp only
    rw [nodesFromWire, itemsFromWire_toJson .setAside children]

theorem itemsFromWire_toJson (standing : Standing) : (nodes : List Node) →
    itemsFromWire standing (nodesToJson nodes) = some nodes
  | [] => rfl
  | node :: rest => by
    rw [nodesToJson, itemsFromWire, Node.fromWire_toJson standing node,
      itemsFromWire_toJson standing rest]

end

/-! ## In place and set aside -/

-- the readers differ at names only, so each function keeps what the ones it calls keep
theorem name_setAside {j : Json} {s : String} (h : name .inPlace j = some s) :
    name .setAside j = some s := by
  unfold name at h ⊢
  split at h
  next => exact h
  next => exact h
  next => cases h
  next => cases h

theorem oneOfIn_setAside {α : Type} {choices : List (String × α)} {j : Json} {a : α}
    (h : oneOfIn .inPlace choices j = some a) : oneOfIn .setAside choices j = some a := by
  obtain ⟨s, hname, hchoice⟩ := Option.bind_eq_some_iff.mp h
  exact Option.bind_eq_some_iff.mpr ⟨s, name_setAside hname, hchoice⟩

theorem labelIn_setAside {α : Type} {choices : List (String × α)} {j : Json} {a : α}
    (h : labelIn .inPlace choices j = some a) : labelIn .setAside choices j = some a := by
  unfold labelIn at h ⊢
  split at h
  next => exact h
  next => cases h

theorem conditionOf_setAside {members : List (String × Json)} {condition : Connective}
    (h : conditionOf .inPlace members = some condition) :
    conditionOf .setAside members = some condition := by
  unfold conditionOf at h ⊢
  split at h
  next => exact oneOfIn_setAside h
  next => exact h

mutual

theorem Node.fromWire_setAside : (j : Json) → ∀ {node : Node},
    Node.fromWire .inPlace j = some node → Node.fromWire .setAside j = some node
  | .object members, node, h => by
    rw [Node.fromWire] at h ⊢
    split at h
    next tag htag =>
      obtain ⟨type, htype, hname⟩ := Option.bind_eq_some_iff.mp htag
      rw [htype, Option.bind_some, oneOfIn_setAside hname]
      exact h
    next => cases h
  | .array [label, content], node, h => by
    rw [Node.fromWire] at h ⊢
    split at h
    next tag htag =>
      rw [labelIn_setAside htag]
      exact contentFromWire_setAside tag content h
    next => cases h

/-- What is taken as the content of a node in its place is read the same when it is set aside. -/
theorem contentFromWire_setAside (tag : Tag) : (j : Json) → ∀ {node : Node},
    contentFromWire .inPlace tag j = some node → contentFromWire .setAside tag j = some node
  | .object members, node, h => by
    cases tag with
    | rule => exact h
    | group =>
      rw [contentFromWire] at h ⊢
      split at h
      next condition children hcondition hchildren =>
        rw [conditionOf_setAside hcondition, childrenFromWire_setAside members hchildren]
        exact h
      next => cases h
  | .array items, node, h => by
    cases tag with
    | rule => exact h
    | group =>
      rw [contentFromWire] at h ⊢
      exact groupFromItems_setAside items h

theorem groupFromItems_setAside : (items : List Json) → ∀ {node : Node},
    groupFromItems .inPlace items = some node → groupFromItems .setAside items = some node
  | [], node, h => h
  | [condition], node, h => by
    rw [groupFromItems] at h ⊢
    obtain ⟨read, hread, rfl⟩ := Option.map_eq_some_iff.mp h
    rw [conditionFromWire, oneOfIn_setAside hread, Option.map_some]
  | [condition, children], node, h => by
    rw [groupFromItems] at h ⊢
    split at h
    next read nodes hread hnodes =>
      rw [conditionFromWire, oneOfIn_setAside hread, nodesFromWire_setAside children hnodes]
      exact h
    next => cases h

theorem childrenFromWire_setAside : (members : List (String × Json)) → ∀ {nodes : List Node},
    childrenFromWire .inPlace members = some nodes →
      childrenFromWire .setAside members = some nodes
  | [], nodes, h => h
  | (name, j) :: rest, nodes, h => by
    rw [childrenFromWire] at h ⊢
    split
    next hname =>
      rw [if_pos hname] at h
      exact nodesFromWire_setAside j h
    next hname =>
      rw [if_neg hname] at h
      exact childrenFromWire_setAside rest h

theorem nodesFromWire_setAside : (j : Json) → ∀ {nodes : List Node},
    nodesFromWire .inPlace j = some nodes → nodesFromWire .setAside j = some nodes
  | .array items, nodes, h => by
    rw [nodesFromWire] at h ⊢
    exact itemsFromWire_setAside items h

theorem itemsFromWire_setAside : (items : List Json) → ∀ {nodes : List Node},
    itemsFromWire .inPlace items = some nodes → itemsFromWire .setAside items = some nodes
  | [], nodes, h => h
  | j :: rest, nodes, h => by
    rw [itemsFromWire] at h ⊢
    split at h
    next node others hnode hothers =>
      rw [Node.fromWire_setAside j hnode, itemsFromWire_setAside rest hothers]
      exact h
    next => cases h

end

/-! ## Plain names -/

/-- Whether a member is no name that only data set aside takes: a name as that of the only member of
an object, which is empty. -/
def HasPlain (field : String) (j : Json) : Prop :=
  ∀ name, j.member? field ≠ some (.object [(name, .object [])])

/-- Whether the names that stand in the content of a group are plain: its condition, and the types
of its children, none of which stands in positions. -/
def PlainNames (members : List (String × Json)) : Prop :=
  HasPlain "condition" (.object members) ∧
    ∀ items, Keyed.get? members "children" = some (.array items) →
      ∀ item ∈ items, item.items? = none ∧ HasPlain "type" item

theorem oneOfIn_of_plain {α : Type} {choices : List (String × α)} {j : Json}
    (h : ∀ name, j ≠ .object [(name, .object [])]) :
    oneOfIn .inPlace choices j = oneOfIn .setAside choices j := by
  have hname : name .inPlace j = name .setAside j := by
    unfold name
    split
    · rfl
    · rfl
    · next s => exact absurd rfl (h s)
    · rfl
  unfold oneOfIn
  rw [hname]

theorem Node.fromWire_of_plain {j : Json} (hitems : j.items? = none) (htype : HasPlain "type" j) :
    Node.fromWire .inPlace j = Node.fromWire .setAside j := by
  cases j with
  | object members =>
    rw [Node.fromWire, Node.fromWire]
    cases hget : Keyed.get? members "type" with
    | none => rfl
    | some type =>
      have hplain : ∀ name, type ≠ .object [(name, .object [])] :=
        fun name heq => htype name (hget.trans (congrArg some heq))
      rw [Option.bind_some, Option.bind_some, oneOfIn_of_plain hplain]
  | array items => cases hitems
  | null | bool _ | integer _ | decimal _ | string _ => rfl

theorem itemsFromWire_of_plain {items : List Json}
    (h : ∀ item ∈ items, item.items? = none ∧ HasPlain "type" item) :
    itemsFromWire .inPlace items = itemsFromWire .setAside items := by
  induction items with
  | nil => rfl
  | cons j rest ih =>
    obtain ⟨⟨hitems, htype⟩, hrest⟩ := List.forall_mem_cons.mp h
    rw [itemsFromWire, itemsFromWire, Node.fromWire_of_plain hitems htype, ih hrest]

/-- With plain names the content of a group is read in its place as when it is set aside. -/
theorem contentFromWire_of_plainNames {members : List (String × Json)} (h : PlainNames members) :
    contentFromWire .inPlace .group (.object members) =
      contentFromWire .setAside .group (.object members) := by
  obtain ⟨hcondition, hchildren⟩ := h
  have hconditions : conditionOf .inPlace members = conditionOf .setAside members := by
    unfold conditionOf
    cases hget : Keyed.get? members "condition" with
    | none => rfl
    | some j =>
      exact oneOfIn_of_plain fun name heq => hcondition name (hget.trans (congrArg some heq))
  have hnodes : childrenFromWire .inPlace members = childrenFromWire .setAside members := by
    rw [childrenFromWire_eq, childrenFromWire_eq]
    cases hget : Keyed.get? members "children" with
    | none => rfl
    | some j =>
      cases j with
      | array items => exact itemsFromWire_of_plain (hchildren items hget)
      | null | bool _ | integer _ | decimal _ | string _ | object _ => rfl
  rw [contentFromWire, contentFromWire, hconditions, hnodes]

/-! ## Trees -/

namespace Tree

theorem ofGroup_eq {condition : Connective} {children : List Node} (h : children ≠ []) :
    ofGroup condition children = .ok ⟨condition, children, h⟩ := by
  cases children with
  | nil => exact absurd rfl h
  | cons node rest => rfl

/-- A payload with a type is read as a node. -/
theorem read_typed (type : String) (content : Json) :
    read (Json.ofPairs [("type", .string type), ("query", content)]) =
      (do ofNode (← orInvalid (Node.fromWire .inPlace
        (Json.ofPairs [("type", .string type), ("query", content)])))) := by
  have htype : Keyed.has (Keyed.ofPairs [("type", .string type), ("query", content)]) "type" =
      true := by
    rw [Keyed.has, (get?_node type content).1]
    rfl
  show ofData (.object _) = _
  rw [ofData, if_pos htype, Json.ofPairs]

/-- What is written for a tree is read as the tree. -/
theorem read_toJson (t : Tree) : read t.toJson = .ok t := by
  have hread := Node.fromWire_toJson .inPlace t.root
  unfold Tree.toJson root at hread ⊢
  rw [Node.toJson, tagged] at hread ⊢
  rw [read_typed, hread]
  exact ofGroup_eq t.children_ne_nil

theorem read_array (nodes : List Node) (h : nodes ≠ []) :
    read (.array (nodesToJson nodes)) = .ok ⟨.and, nodes, h⟩ := by
  show (do ofGroup .and (← orInvalid (itemsFromWire .inPlace (nodesToJson nodes)))) = _
  rw [itemsFromWire_toJson]
  exact ofGroup_eq h

/-- The content of a group alone is read in its place. -/
theorem read_content {members : List (String × Json)} (hchildren : Keyed.has members "children")
    (htype : Keyed.has members "type" = false) :
    read (.object members) =
      (do ofNode (← orInvalid (contentFromWire .inPlace .group (.object members)))) := by
  show (if Keyed.has members "type" then _ else if Keyed.has members "children" then _ else _) = _
  rw [htype, if_neg Bool.false_ne_true, if_pos hchildren]

/-- In a group node its content is set aside. -/
theorem read_node (content : Json) :
    read (Json.ofPairs [("type", .string "group"), ("query", content)]) =
      (do ofNode (← orInvalid (contentFromWire .setAside .group content))) := by
  have htag : choose tags "group" = some .group := by decide
  rw [read_typed, Node.fromWire_node .inPlace content htag]

end Tree

/-- What is written for a tree is read as the tree, so that whatever was accepted is read again as
the same, and an array of written nodes is read as their group by AND.  The content of a group is
read alone as in a group node, with plain names in any case, and else where it is accepted. -/
theorem read_as_written :
    (∀ t : Tree, Tree.read t.toJson = .ok t) ∧
      (∀ (payload : Json) (t : Tree), Tree.read payload = .ok t →
        Tree.read t.toJson = .ok t ∧ t.children ≠ []) ∧
      (∀ (nodes : List Node) (h : nodes ≠ []),
        Tree.read (.array (nodesToJson nodes)) = .ok ⟨.and, nodes, h⟩) ∧
      ∀ members : List (String × Json), Keyed.has members "children" = true →
        Keyed.has members "type" = false →
          (∀ t, Tree.read (.object members) = .ok t →
            Tree.read (Json.ofPairs [("type", .string "group"), ("query", .object members)]) =
              .ok t) ∧
          (∀ t, Tree.read (Json.ofPairs [("type", .string "group"), ("query", .object members)]) =
              .ok t →
            Tree.read (.object members) = .ok t ∨
              Tree.read (.object members) = .error (.malformedTree .invalidNode)) ∧
          (PlainNames members → Tree.read (.object members) =
            Tree.read (Json.ofPairs [("type", .string "group"), ("query", .object members)])) := by
  refine ⟨Tree.read_toJson, fun _ t _ => ⟨t.read_toJson, t.children_ne_nil⟩, Tree.read_array, ?_⟩
  intro members hchildren htype
  rw [Tree.read_content hchildren htype, Tree.read_node]
  cases hcontent : contentFromWire .inPlace .group (.object members) with
  | none =>
    refine ⟨fun t h => (by cases h), fun t _ => .inr rfl, fun hplain => ?_⟩
    rw [← contentFromWire_of_plainNames hplain, hcontent]
  | some node =>
    rw [contentFromWire_setAside .group _ hcontent]
    exact ⟨fun t h => h, fun t h => .inl h, fun _ => rfl⟩

/-- A group by OR says the same alone as in a node. -/
theorem read_as_written_sample :
    let members : List (String × Json) :=
      [("children", .array [(Leaf.mk "title" "equal" none .null).toJson]),
        ("condition", .string "or")]
    Tree.read (.object members) =
      Tree.read (Json.ofPairs [("type", .string "group"), ("query", .object members)]) := by
  intro members
  obtain ⟨-, -, hplain⟩ := read_as_written.2.2.2 members rfl rfl
  refine hplain ⟨fun name h => (by cases h), fun items h => ?_⟩
  cases h
  intro item hitem
  rw [List.mem_singleton.mp hitem]
  exact ⟨rfl, fun name h => (by cases h)⟩

/-- In a group node the condition of its content may be the name of an empty object, alone it may
not. -/
theorem condition_set_aside :
    Tree.read (.object [("children", .array [(Leaf.mk "title" "equal" none .null).toJson]),
        ("condition", .object [("AND", .object [])])]) = .error (.malformedTree .invalidNode) ∧
      Tree.read (Json.ofPairs [("type", .string "group"), ("query",
        .object [("children", .array [(Leaf.mk "title" "equal" none .null).toJson]),
          ("condition", .object [("AND", .object [])])])]) =
        .ok ⟨.and, [.leaf ⟨"title", "equal", none, .null⟩], by simp⟩ := by
  constructor
  · rfl
  · rfl

end Winnow.Rule
