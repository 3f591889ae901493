import Winnow.Bounds
import Winnow.Json.Basic
import Winnow.Json.Number

/-!
# Reading the wire form

Readers take a data value to a typed value or refuse it.  A record is an
object with members by name, in which unknown members are ignored, or an array
of its fields in declared order, which may end early where fields have
defaults.  A name out of a fixed list is a string or an object whose only
member has that name and is null.

A record that tells its type beside its content is read in two steps: the
content is set aside until the type is known.  Data set aside has more forms
for a name than data that is read where it stands.
-/

namespace Winnow.Wire

/-- A reader of one type. -/
abbrev Reader (α : Type) := Json → Option α

/-! ## Plain values -/

/-- A string. -/
def string : Reader String := Json.text?

/-- A truth value. -/
def bool : Reader Bool
  | .bool b => some b
  | _ => none

/-- A whole number of 64 bits with a sign. -/
def int64 : Reader Int := Json.int64?

/-- A whole number from 0 up to a bound. -/
def natUpTo (bound : Nat) : Reader Nat
  | .integer n => if 0 ≤ n ∧ n ≤ bound then some n.toNat else none
  | _ => none

/-- A whole number of 64 bits without a sign. -/
def nat64 : Reader Nat := natUpTo Bounds.uint64Max

/-- A whole number of 32 bits without a sign. -/
def nat32 : Reader Nat := natUpTo Bounds.uint32Max

/-- Any value. -/
def any : Reader Json := some

/-! ## Compound values -/

/-- A value or null. -/
def nullable {α : Type} (read : Reader α) : Reader (Option α)
  | .null => some none
  | j => (read j).map some

/-- An array of values. -/
def list {α : Type} (read : Reader α) : Reader (List α)
  | .array items => items.mapM read
  | _ => none

/-- An object as entries by name. -/
def keyed {α : Type} (read : Reader α) : Reader (Keyed α)
  | .object members => members.mapM fun (name, value) => (read value).map (name, ·)
  | _ => none

/-! ## Names -/

/-- Where data is read: in its place, or set aside with the content of a record. -/
inductive Standing where
  | inPlace
  | setAside
  deriving DecidableEq, Repr

/-- A name: a string, or the name of the only member of an object when that member is null or,
in data set aside, empty. -/
def name (standing : Standing) : Reader String
  | .string s => some s
  | .object [(s, .null)] => some s
  | .object [(s, .object [])] => if standing = .setAside then some s else none
  | _ => none

/-- The choice with a name. -/
def choose {α : Type} (choices : List (String × α)) (s : String) : Option α :=
  (choices.find? fun choice => choice.1 == s).map Prod.snd

/-- One of the listed names. -/
def oneOfIn {α : Type} (standing : Standing) (choices : List (String × α)) : Reader α :=
  fun j => (name standing j).bind (choose choices)

/-- One of the listed names, in data read in its place. -/
def oneOf {α : Type} (choices : List (String × α)) : Reader α := oneOfIn .inPlace choices

/-- One of the listed names, or its position among them. -/
def tagOf {α : Type} (choices : List (String × α)) : Reader α
  | .string s => choose choices s
  | .integer n => if 0 ≤ n then choices[n.toNat]?.map Prod.snd else none
  | _ => none

/-- One of the listed names as a plain string or, in data set aside, its position among them. -/
def labelIn {α : Type} (standing : Standing) (choices : List (String × α)) : Reader α
  | .string s => choose choices s
  | j => if standing = .setAside then tagOf choices j else none

/-! ## Records -/

/-- The fields of a record that were given. -/
inductive Record where
  | byName (members : Keyed Json)
  | byPosition (fields : Keyed Json)

namespace Record

/-- The record with the given field names. -/
def ofJson? (names : List String) : Reader Record
  | .object members => some (.byName members)
  | .array items =>
    if items.length ≤ names.length then some (.byPosition (names.zip items)) else none
  | _ => none

/-- The record with members by name only. -/
def ofObject? : Reader Record
  | .object members => some (.byName members)
  | _ => none

/-- A field, if it was given. -/
def find? (r : Record) (field : String) : Option Json :=
  match r with
  | .byName members | .byPosition members => members.get? field

/-- A field that must be given. -/
def required {α : Type} (r : Record) (field : String) (read : Reader α) : Option α :=
  (r.find? field).bind read

/-- A field with a default. -/
def withDefault {α : Type} (r : Record) (field : String) (default : α) (read : Reader α) :
    Option α :=
  match r.find? field with
  | some j => read j
  | none => some default

/-- A field that may be null or left out. -/
def optional {α : Type} (r : Record) (field : String) (read : Reader α) : Option (Option α) :=
  r.withDefault field none (nullable read)

/-- A field that may be null, and be left out of a record by name only. -/
def nullableField {α : Type} (r : Record) (field : String) (read : Reader α) :
    Option (Option α) :=
  match r with
  | .byName _ => r.optional field read
  | .byPosition _ => r.required field (nullable read)

end Record

/-! ## Forms -/

/-- Readers of scalars and of records by the names of their fields.  Sources of data differ in what
they take for one. -/
structure Forms where
  string : Reader String
  bool : Reader Bool
  nat32 : Reader Nat
  nat64 : Reader Nat
  record : List String → Reader Record

/-- The readers for which a value has one form only. -/
def exact : Forms := ⟨string, bool, nat32, nat64, Record.ofJson?⟩

end Winnow.Wire
