import Winnow.CompileError
import Winnow.Calendar.Offset
import Winnow.Wire

/-!
# Failures of services

A failure has a kind, which fixes its code and status, and a message.  Errors
of compiling rules and faults of timezone offsets become failures here.
-/

namespace Winnow

/-- The kind of a failure. -/
inductive FailureKind where
  | notFound
  | authorization
  | validation
  | conflict
  | internal
  | database
  | configuration
  | serialization
  | notImplemented
  deriving DecidableEq, Repr

namespace FailureKind

/-- Every kind. -/
def all : List FailureKind := [
  .notFound, .authorization, .validation, .conflict, .internal, .database, .configuration,
  .serialization, .notImplemented
]

/-- Stable code of the kind. -/
def code : FailureKind → String
  | .notFound => "NOT_FOUND"
  | .authorization => "AUTHORIZATION"
  | .validation => "VALIDATION"
  | .conflict => "CONFLICT"
  | .internal => "INTERNAL"
  | .database => "DATABASE"
  | .configuration => "CONFIGURATION"
  | .serialization => "SERIALIZATION"
  | .notImplemented => "NOT_IMPLEMENTED"

/-- Name of the kind. -/
def name : FailureKind → String
  | .notFound => "NotFound"
  | .authorization => "Authorization"
  | .validation => "Validation"
  | .conflict => "Conflict"
  | .internal => "Internal"
  | .database => "Database"
  | .configuration => "Configuration"
  | .serialization => "Serialization"
  | .notImplemented => "NotImplemented"

/-- Reads the wire form. -/
def fromWire : Wire.Reader FailureKind := Wire.oneOf (all.map fun k => (k.name, k))

/-- Status of an HTTP answer. -/
def status : FailureKind → Nat
  | .notFound => 404
  | .authorization => 403
  | .validation => 422
  | .conflict => 409
  | .notImplemented => 501
  | .internal | .database | .configuration | .serialization => 500

end FailureKind

/-- A failure of a service. -/
structure Failure where
  kind : FailureKind
  message : String
  deriving DecidableEq, Repr

namespace Failure

/-- Kind and message in one text. -/
def text (f : Failure) : String := f.kind.code ++ ": " ++ f.message

/-- The failure that a compile error is to a service. -/
def ofCompile (e : CompileError) : Failure :=
  match e with
  | .unknownEntity _ => ⟨.internal, e.message⟩
  | _ => ⟨.validation, e.message⟩

/-- A result of compiling as the result of a service. -/
def liftCompile {α : Type} : Except CompileError α → Except Failure α
  | .ok a => .ok a
  | .error e => .error (ofCompile e)

/-- A data value that has not the expected form. -/
def unreadable : Failure := ⟨.serialization, "JSON serialization error"⟩

/-- A decoded value, or the failure that there is none. -/
def ofWire {α : Type} : Option α → Except Failure α
  | some a => .ok a
  | none => .error unreadable

/-- The failure of a text that is no timezone offset. -/
def ofOffset (text : String) : Offset.Fault → Failure
  | .malformed =>
    ⟨.configuration, "Invalid timezone offset '" ++ text ++ "', expected e.g. +02:00"⟩
  | .outOfRange => ⟨.configuration, "Timezone offset '" ++ text ++ "' out of range"⟩

/-- The offset a text writes. -/
def readOffset (text : String) : Except Failure Offset :=
  match Offset.read text with
  | .ok offset => .ok offset
  | .error fault => .error (ofOffset text fault)

end Failure
end Winnow
