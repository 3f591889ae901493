import Winnow.Text.Printable

/-!
# Errors of compiling rules

Each error names its cause; `message` is its wording.  The same errors arise
while filters and schemas are set up and while rules are compiled.
-/

namespace Winnow

/-- Why a payload is no rule tree. -/
inductive TreeFault where
  | noRules
  | emptyRoot
  | rootNotGroup
  | textHoldsText
  | notRules
  /-- The text is no data document. -/
  | invalidText
  /-- Some node has not the form of a group or a rule. -/
  | invalidNode
  deriving DecidableEq, Repr

/-- Why a rule tree, a filter or a schema cannot be used. -/
inductive CompileError where
  /-- The payload is no usable rule tree. -/
  | malformedTree (fault : TreeFault)
  /-- No filter has this identifier. -/
  | unknownFilter (field : String)
  /-- The filter does not support the operator. -/
  | operatorNotAllowed (field operator : String)
  /-- The rule selects no operand of the filter. -/
  | invalidOperand (field : String) (operand : Option String)
  /-- The value cannot be used with the operator and the type of the field. -/
  | invalidValue (field operator reason : String)
  /-- The entity has no such relation. -/
  | unknownRelation (entity relation : String)
  /-- No entity has this name. -/
  | unknownEntity (entity : String)
  /-- The entity has no such column. -/
  | unknownColumn (entity column : String)
  /-- A join along the relation would multiply rows. -/
  | relationNotJoinable (relation : String)
  /-- The filter is set up inconsistently. -/
  | descriptor (field reason : String)
  deriving DecidableEq, Repr

namespace TreeFault

/-- What is said of the fault after the kind of the error. -/
def detail : TreeFault → String
  | .noRules => ": no rules given"
  | .emptyRoot => ": the root group has no rules"
  | .rootNotGroup => ": the root must be a group"
  | .textHoldsText => ": rules must be an object or array"
  | .notRules => ": rules must be a group or an array of rules"
  | .invalidText => ": invalid JSON"
  | .invalidNode => ""

end TreeFault

namespace CompileError

/-- An optional text as it appears in messages. -/
def optionText : Option String → String
  | none => "None"
  | some s => "Some(" ++ Text.quoted s ++ ")"

/-- The wording of the error. -/
def message : CompileError → String
  | .malformedTree fault => "Malformed rule tree" ++ fault.detail
  | .unknownFilter field => "Unknown filter '" ++ field ++ "'"
  | .operatorNotAllowed field operator =>
    "Operator '" ++ operator ++ "' is not allowed for filter '" ++ field ++ "'"
  | .invalidOperand field operand =>
    "Filter '" ++ field ++ "' requires a valid operand, got " ++ optionText operand
  | .invalidValue field operator reason =>
    "Invalid value for '" ++ field ++ "' with operator '" ++ operator ++ "': " ++ reason
  | .unknownRelation entity relation =>
    "Entity '" ++ entity ++ "' has no relation '" ++ relation ++ "'"
  | .unknownEntity entity => "Unknown entity '" ++ entity ++ "'"
  | .unknownColumn entity column =>
    "Entity '" ++ entity ++ "' has no column '" ++ column ++ "'"
  | .relationNotJoinable relation =>
    "Relation '" ++ relation ++ "' is not a to-one relation and cannot be joined"
  | .descriptor field reason => "Invalid filter descriptor '" ++ field ++ "': " ++ reason

end CompileError
end Winnow
