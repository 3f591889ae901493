import Winnow.Yaml.Scalar
import Winnow.Yaml.Text

/-!
# Reading documents

`Yaml.read?` reads the value of a YAML document.  A text holds at most one
document; without one it stands for an empty object.  Collections are written
in blocks, told by columns, or in brackets; a node can be named by an anchor
and used again.  A key is a scalar other than null, and no key stands twice in
a mapping.
-/

namespace Winnow.Yaml

/-! ## Nodes -/

/-- A node of a document. -/
inductive Node where
  | scalar (s : Scalar)
  | collection (value : Json)

namespace Node

/-- The node without content. -/
def empty : Node := .scalar .null

/-- The node as data. -/
def toJson? : Node → Option Json
  | .scalar s => s.toJson?
  | .collection value => some value

/-- The scalar that the node is. -/
def scalar? : Node → Option Scalar
  | .scalar s => some s
  | .collection _ => none

/-- A sequence of nodes. -/
def ofItems? (items : List Node) : Option Node := do
  some (.collection (.array (← items.mapM toJson?)))

/-- An entry of a mapping by its name. -/
def entry? (member : Node × Node) : Option (String × Json) := do
  some (← (← member.1.scalar?).name?, ← member.2.toJson?)

/-- A mapping of nodes, whose keys are different scalars. -/
def ofMembers? (members : List (Node × Node)) : Option Node := do
  let keys ← members.mapM fun member => member.1.scalar?
  if keys.eraseDups.length < keys.length then none
  else some (.collection (Json.ofPairs (← members.mapM entry?)))

end Node

/-! ## Steps of reading -/

/-- What is known while a document is read: the place, the nodes with anchors, and the handles of
tags with what they stand for. -/
structure State where
  cursor : Cursor
  anchors : Keyed Node := []
  handles : Keyed String := []

/-- A step of reading, which may fail. -/
abbrev Reading (α : Type) := StateT State Option α

namespace Reading

/-- The place. -/
def place : Reading Cursor := fun s => some (s.cursor, s)

/-- Goes to another place. -/
def goTo (cursor : Cursor) : Reading Unit := fun s => some ((), { s with cursor })

/-- Takes something at the place. -/
def take {α : Type} (f : Cursor → Option (α × Cursor)) : Reading α := do
  let (a, cursor) ← f (← place)
  goTo cursor
  return a

/-- Skips the blanks of the line. -/
def skipSpaces : Reading Unit := do goTo (← place).skipSpaces

/-- Skips some characters of the line. -/
def skip (count : Nat) : Reading Unit := do goTo ((← place).skip count)

/-- Goes to the next word, which no tab indents in the columns up to one. -/
def toWord (column : Int) : Reading Unit := do goTo (← (← place).word? column)

/-- Goes to the next word within brackets, which stands right of a column when it stands on a
later line. -/
def toFlowWord (column : Int) : Reading Unit := do
  let start ← place
  toWord column
  let c ← place
  if c.atEnd || (start.crosses c && c.column ≤ column) then failure

end Reading

open Reading

/-! ## Properties of nodes -/

/-- The anchor and the tag of a node. -/
structure Properties where
  anchor : Option String := none
  tag : Option Tag := none

namespace Properties

/-- Whether there is neither. -/
def isNone (p : Properties) : Bool := p.anchor.isNone && p.tag.isNone

/-- Names a node. -/
def name (p : Properties) (node : Node) : Reading Node := fun s =>
  match p.anchor with
  | some anchor => some (node, { s with anchors := s.anchors.put anchor node })
  | none => some (node, s)

/-- The node without content under the properties. -/
def empty (p : Properties) : Node :=
  if p.isNone then Node.empty else .scalar (Scalar.read p.tag "")

end Properties

/-- The characters of a word that names something. -/
def nameChars (cs : List Char) : List Char :=
  cs.takeWhile fun c => !isSpace c && c ≠ '\n' && !isFlowMark c

/-- The name behind a mark. -/
def takeName : Reading String := do
  let name := nameChars ((← place).rest.drop 1)
  if name.isEmpty then failure
  skip (name.length + 1)
  return String.ofList name

/-- What the tags of the common types start with. -/
def commonLead : String := "tag:yaml.org,2002:"

/-- The tag that a word with a handle writes; a handle in two marks must be known. -/
def tagOf? (handles : Keyed String) (word : List Char) : Option Tag :=
  match Text.cutFirst '!' (word.drop 1) with
  | none => some .other
  | some (handle, name) =>
    let handle := "!" ++ String.ofList handle ++ "!"
    match handles.get? handle with
    | some lead => some (if lead == commonLead then .common (String.ofList name) else .other)
    | none => if handle == "!!" then some (.common (String.ofList name)) else none

/-- A tag: a word, or a full name in angle brackets. -/
def takeTag : Reading Tag := do
  let c ← place
  if c.rest.take 2 == ['!', '<'] then
    let name := c.rest.takeWhile fun x => x ≠ '>' && x ≠ '\n'
    if (c.rest.drop name.length).head? ≠ some '>' then failure
    skip (name.length + 1)
    return .other
  else
    let word := nameChars c.rest
    let tag ← tagOf? (← get).handles word
    skip word.length
    return tag

/-- The properties of a node and the blanks behind them. -/
def takeProperties (inFlow : Bool) : Nat → Properties → Reading Properties
  | 0, p => return p
  | fuel + 1, p => do
    let further (p : Properties) : Reading Properties := do
      let c ← place
      if !endsWord c.rest && !(inFlow && startsFlowMark c.rest) then failure
      skipSpaces
      takeProperties inFlow fuel p
    match (← place).rest.head?, p.anchor, p.tag with
    | some '&', none, _ => do further { p with anchor := some (← takeName) }
    | some '!', _, none => do further { p with tag := some (← takeTag) }
    | some '&', _, _ | some '!', _, _ => failure
    | _, _, _ => return p

/-- The node that a name stands for. -/
def takeAlias : Reading Node := do
  let name ← takeName
  (← get).anchors.get? name

/-- A text between quotes. -/
def takeQuotedNode (column : Int) : Reading Node := do
  let quote ← (← place).rest.head?
  skip 1
  let s ← take fun c => takeQuoted? quote column (c.rest.length + 1) [] c
  return .scalar (.text s)

/-- A scalar without quotes. -/
def takePlainNode (inFlow : Bool) (column : Int) (tag : Option Tag) : Reading Node := do
  let s ← take fun c =>
    if startsPlain inFlow c.rest then takePlain? inFlow column (c.rest.length + 1) [] c else none
  return .scalar (Scalar.read tag s)

/-- Whether a quote stands in front. -/
def startsQuoted (cs : List Char) : Bool := cs.head? == some '\x27' || cs.head? == some '\x22'

/-! ## Collections in brackets -/

/-- Whether a colon here parts a key from its value; behind quotes and brackets it always does. -/
def atFlowColon (closed : Bool) (c : Cursor) : Bool :=
  match c.rest with
  | ':' :: rest => closed || endsWord rest || startsFlowMark rest
  | _ => false

/-- Whether a node within brackets is left out here. -/
def atFlowEnd (c : Cursor) : Bool :=
  match c.rest.head? with
  | some x => x = ',' || x = ']' || x = '}'
  | none => false

mutual

/-- A node within brackets of a block at a column, and whether it ends in a quote or a bracket. -/
def flowNode : Nat → Int → Reading (Node × Bool)
  | 0, _ => failure
  | fuel + 1, column => do
    let p ← takeProperties true 3 {}
    if !p.isNone then toFlowWord column
    let c ← place
    if !p.isNone && (atFlowEnd c || atFlowColon false c) then
      return (← p.name p.empty, false)
    match c.rest.head? with
    | some '*' => if p.isNone then return (← takeAlias, false) else failure
    | some '[' => do
      skip 1
      toFlowWord column
      let items ← flowItems fuel column
      return (← p.name (← Node.ofItems? items), true)
    | some '{' => do
      skip 1
      toFlowWord column
      let members ← flowMembers fuel column
      return (← p.name (← Node.ofMembers? members), true)
    | _ =>
      if startsQuoted c.rest then return (← p.name (← takeQuotedNode column), true)
      else return (← p.name (← takePlainNode true column p.tag), false)

/-- A node within brackets that may be left out. -/
def flowNodeOrEmpty : Nat → Int → Reading Node
  | 0, _ => failure
  | fuel + 1, column => do
    let c ← place
    if atFlowEnd c || atFlowColon false c then return Node.empty
    else return (← flowNode fuel column).1

/-- The value behind a colon, or none if there is no colon. -/
def flowValue? : Nat → Int → Bool → Reading (Option Node)
  | 0, _, _ => failure
  | fuel + 1, column, closed => do
    if atFlowColon closed (← place) then
      skip 1
      toFlowWord column
      return some (← flowNodeOrEmpty fuel column)
    else return none

/-- A key that is marked as one, and its value. -/
def flowMarked : Nat → Int → Reading (Node × Node)
  | 0, _ => failure
  | fuel + 1, column => do
    skip 1
    toFlowWord column
    let key ← flowNodeOrEmpty fuel column
    toFlowWord column
    let value ← flowValue? fuel column false
    return (key, value.getD Node.empty)

/-- An item of a sequence: a node, or a mapping of one member. -/
def flowItem : Nat → Int → Reading Node
  | 0, _ => failure
  | fuel + 1, column => do
    let start ← place
    if start.atMark '?' then Node.ofMembers? [← flowMarked fuel column]
    else
      let (node, closed) ←
        if atFlowColon false start then pure (Node.empty, false) else flowNode fuel column
      skipSpaces
      if start.crosses (← place) then return node
      else match ← flowValue? fuel column closed with
        | some value => Node.ofMembers? [(node, value)]
        | none => return node

/-- The items of a sequence up to its end. -/
def flowItems : Nat → Int → Reading (List Node)
  | 0, _ => failure
  | fuel + 1, column => do
    if (← place).rest.head? = some ']' then
      skip 1
      return []
    else
      let item ← flowItem fuel column
      toFlowWord column
      match (← place).rest.head? with
      | some ',' => do
        skip 1
        toFlowWord column
        return item :: (← flowItems fuel column)
      | some ']' => do
        skip 1
        return [item]
      | _ => failure

/-- The members of a mapping up to its end. -/
def flowMembers : Nat → Int → Reading (List (Node × Node))
  | 0, _ => failure
  | fuel + 1, column => do
    if (← place).rest.head? = some '}' then
      skip 1
      return []
    else
      let member ← flowMember fuel column
      toFlowWord column
      match (← place).rest.head? with
      | some ',' => do
        skip 1
        toFlowWord column
        return member :: (← flowMembers fuel column)
      | some '}' => do
        skip 1
        return [member]
      | _ => failure

/-- A member of a mapping. -/
def flowMember : Nat → Int → Reading (Node × Node)
  | 0, _ => failure
  | fuel + 1, column => do
    let start ← place
    if start.atMark '?' then flowMarked fuel column
    else
      let (key, closed) ←
        if atFlowColon false start then pure (Node.empty, false) else flowNode fuel column
      toFlowWord column
      let value ← flowValue? fuel column closed
      return (key, value.getD Node.empty)

end

/-! ## Collections in blocks -/

/-- Greatest distance between the start of a key without a mark and its colon. -/
def maxKeySize : Nat := 1024

/-- A key without a mark of a block at a column, with the colon behind it, all on one line. -/
def blockKey (fuel : Nat) (column : Int) : Reading Node := do
  let start ← place
  let p ← takeProperties false 3 {}
  let c ← place
  let key ← match c.rest.head? with
    | some '*' => if p.isNone then takeAlias else failure
    | some '[' | some '{' => do p.name (← flowNode fuel column).1
    | _ =>
      if startsQuoted c.rest then p.name (← takeQuotedNode column)
      else if startsPlain false c.rest then do
        let (line, _) := plainLine false false c.rest
        skip line.length
        p.name (.scalar (Scalar.read p.tag (String.ofList (dropEndSpaces line))))
      else failure
  skipSpaces
  let c ← place
  if !c.atMark ':' || start.crosses c || maxKeySize < start.rest.length - c.rest.length then failure
  skip 1
  return key

mutual

/-- A node of a block at a column, and the way to the next word.  A collection in a block starts
only where a line or an entry does; `inMapping` tells whether a sequence may stand right below its
key. -/
def blockNode : Nat → Int → Bool → Bool → Reading Node
  | 0, _, _, _ => failure
  | fuel + 1, column, fresh, inMapping => do
    let c ← place
    if fresh && c.atMark '-' then blockSequence fuel c.column
    else if fresh && (c.atMark '?' || (blockKey fuel column (← get)).isSome) then
      blockMapping fuel c.column
    else
      let p ← takeProperties false 3 {}
      let c ← place
      if !p.isNone && c.atLineEnd then
        match ← nodeBelow? fuel column inMapping with
        | some node => p.name node
        | none => p.name p.empty
      else match c.rest.head? with
        | some '|' | some '>' => do
          let s ← take (takeBlockText? column)
          toWord (column - 1)
          p.name (.scalar (.text s))
        | head => do
          let node ← match head with
            | some '*' => if p.isNone then takeAlias else failure
            | some '[' | some '{' => do pure (← flowNode fuel column).1
            | _ =>
              if startsQuoted c.rest then takeQuotedNode column
              else takePlainNode false column p.tag
          if !(← place).atLineEnd then failure
          toWord (column - 1)
          p.name node

/-- The node on the lines below, if there is one. -/
def nodeBelow? : Nat → Int → Bool → Reading (Option Node)
  | 0, _, _ => failure
  | fuel + 1, column, inMapping => do
    toWord column
    let c ← place
    if c.atEnd then return none
    else if column < c.column then return some (← blockNode fuel column true inMapping)
    else if inMapping && c.column == column && c.atMark '-' then
      return some (← blockSequence fuel c.column)
    else return none

/-- The node behind a mark, on its line or on the lines below. -/
def nodeBehind : Nat → Int → Bool → Bool → Reading Node
  | 0, _, _, _ => failure
  | fuel + 1, column, fresh, inMapping => do
    if (← place).atLineEnd then
      return (← nodeBelow? fuel column inMapping).getD Node.empty
    else
      skipSpaces
      blockNode fuel column fresh inMapping

/-- A sequence whose marks stand at a column. -/
def blockSequence : Nat → Nat → Reading Node
  | 0, _ => failure
  | fuel + 1, column => do Node.ofItems? (← blockItems fuel column)

/-- The items of a sequence from a mark on. -/
def blockItems : Nat → Nat → Reading (List Node)
  | 0, _ => failure
  | fuel + 1, column => do
    skip 1
    let start ← place
    let behind := start.skipSpaces
    if (start.rest.takeWhile isSpace).contains '\t' && behind.atMark '-' then failure
    let item ← nodeBehind fuel column true false
    let c ← place
    if c.atEnd || c.column < column then return [item]
    else if c.column = column then
      if c.atMark '-' then return item :: (← blockItems fuel column) else return [item]
    else failure

/-- A mapping whose keys stand at a column. -/
def blockMapping : Nat → Nat → Reading Node
  | 0, _ => failure
  | fuel + 1, column => do Node.ofMembers? (← blockMembers fuel column)

/-- The members of a mapping from a key on. -/
def blockMembers : Nat → Nat → Reading (List (Node × Node))
  | 0, _ => failure
  | fuel + 1, column => do
    let member ←
      if (← place).atMark '?' then markedMember fuel column
      else do
        let key ← blockKey fuel column
        pure (key, ← nodeBehind fuel column false true)
    let c ← place
    if c.atEnd || c.column < column then return [member]
    else if c.column = column then return member :: (← blockMembers fuel column)
    else failure

/-- A member whose key is marked as one. -/
def markedMember : Nat → Nat → Reading (Node × Node)
  | 0, _ => failure
  | fuel + 1, column => do
    skip 1
    let key ← nodeBehind fuel column true true
    let c ← place
    if c.column = column && c.atMark ':' && !c.atEnd then
      skip 1
      return (key, ← nodeBehind fuel column true true)
    else return (key, Node.empty)

end

/-! ## Documents -/

/-- Whether a word is the mark that starts a document. -/
def startsDocument (c : Cursor) : Bool := c.atMarker && c.rest.head? = some '-'

/-- Reads the lines that tell how tags are written, and the mark behind them. -/
def takeDirectives : Nat → Reading Unit
  | 0 => failure
  | fuel + 1 => do
    let c ← place
    match c.rest.head?, c.column with
    | some '%', 0 => do
      let line := c.rest.takeWhile (· ≠ '\n')
      match (Text.split ' ' (String.ofList line)).filter fun word => !word.isEmpty with
      | "%TAG" :: handle :: lead :: _ =>
        modify fun s => { s with handles := s.handles.put handle lead }
      | "%TAG" :: _ | "%YAML" :: [] => failure
      | _ => pure ()
      skip line.length
      toWord (-1)
      takeDirectives fuel
    | _, _ => if startsDocument c then skip 3 else failure

/-- The value of the only document, or an empty object without one. -/
def document (fuel : Nat) : Reading Json := do
  toWord (-1)
  let c ← place
  let marked := startsDocument c || (c.column == 0 && c.rest.head? == some '%')
  if marked then takeDirectives fuel
  if !marked && c.atEnd then
    endDocument
    return .object []
  else
    let node ← nodeBehind fuel (-1) (!marked) false
    endDocument
    node.toJson?
where
  /-- Nothing follows but the mark that ends a document. -/
  endDocument : Reading Unit := do
    let c ← place
    if c.atMarker && c.rest.head? == some '.' then
      skip 3
      if !(← place).atLineEnd then failure
      toWord (-1)
    if !(← place).rest.isEmpty then failure

/-- The value that a text holds. -/
def read? (s : String) : Option Json :=
  let cs := unifyBreaks s.toList
  (document (16 * (cs.length + 1)) { cursor := ⟨0, cs⟩ }).map Prod.fst

end Winnow.Yaml
