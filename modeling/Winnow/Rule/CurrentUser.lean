import Winnow.Filter.FilterSet

/-!
# The current user in rules

In a rule on users the value `me` stands for the current user.  It is replaced
by the identifier of the user: as a number where it is the whole string, as
text where it is one of several items between commas.
-/

namespace Winnow.Rule

open Winnow.Text

/-- Whether an item between commas stands for the current user. -/
def standsForUser (item : String) : Bool := trim item == Filter.currentUser

/-- A string with the current user filled in. -/
def fillText (user : Int) (s : String) : Json :=
  if s = Filter.currentUser then .integer user
  else
    let items := split ',' s
    if items.any standsForUser then
      .string (join "," (items.map fun item => if standsForUser item then intText user else item))
    else .string s

mutual

/-- A value with the current user filled in, in strings and the strings of arrays. -/
def fillUser (user : Int) : Json → Json
  | .string s => fillText user s
  | .array items => .array (fillItems user items)
  | j => j

/-- Items with the current user filled in. -/
def fillItems (user : Int) : List Json → List Json
  | [] => []
  | j :: rest => fillUser user j :: fillItems user rest

end

/-- Whether the values of a leaf are users: those of its filter, or of the selected operand. -/
def selectsUser (f : Filter) (l : Leaf) : Bool :=
  f.userSelector ||
    match l.operand.bind f.operand? with
    | some operand => operand.filter.userSelector
    | none => false

/-- A leaf with the current user filled in. -/
def fillLeaf (filters : FilterSet) (user : Int) (l : Leaf) : Leaf :=
  match filters.get? l.rule with
  | some f => if selectsUser f l then { l with value := fillUser user l.value } else l
  | none => l

/-- A tree with the current user filled in; without a user nothing changes. -/
def Tree.fillUser (t : Tree) (filters : FilterSet) (user : Option Int) : Tree :=
  match user with
  | some user => t.mapLeaves (fillLeaf filters user)
  | none => t

end Winnow.Rule
