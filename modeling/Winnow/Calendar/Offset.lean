import Winnow.Calendar.Reader

/-!
# Offsets from UTC

A timezone is a fixed offset from UTC of less than a day, written `UTC`, `Z`,
`+02:00` or `-0530`.  A local day begins at the instant when clocks at the
offset show midnight.
-/

namespace Winnow

/-- Seconds that local clocks are ahead of UTC. -/
structure Offset where
  seconds : Int
  deriving DecidableEq, Repr, Inhabited

namespace Offset

open Winnow.Text

/-- No offset. -/
def utc : Offset := ⟨0⟩

/-- Why a text is no offset. -/
inductive Fault where
  | malformed
  | outOfRange
  deriving DecidableEq, Repr

/-- The offset after its sign; colons may stand anywhere among the four digits. -/
def readSize (sign : Int) (cs : List Char) : Except Fault Offset :=
  match cs.filter (fun c => c ≠ ':') with
  | [a, b, c, d] =>
    match digit? a, digit? b, digit? c, digit? d with
    | some a, some b, some c, some d =>
      let size : Int := (10 * a + b : Nat) * 3600 + (10 * c + d : Nat) * 60
      if Calendar.offsetInRange (sign * size) then .ok ⟨sign * size⟩ else .error .outOfRange
    | _, _, _, _ => .error .malformed
  | _ => .error .malformed

/-- The offset a text writes. -/
def read (s : String) : Except Fault Offset :=
  let cs := trimChars s.toList
  if cs.isEmpty ∨ cs = ['Z'] ∨ cs.map Char.toLower = ['u', 't', 'c'] then .ok utc
  else match cs with
    | '+' :: rest => readSize 1 rest
    | '-' :: rest => readSize (-1) rest
    | _ => .error .malformed

/-- The date local clocks show at an instant. -/
def dateAt (offset : Offset) (t : Instant) : Date := (t.atOffset offset.seconds).date

/-- The instant a local day begins. -/
def dayStart (offset : Offset) (date : Date) : Instant :=
  (Instant.startOf date).addSeconds (-offset.seconds)

/-- The instant when local clocks show a reading. -/
def instantOf (offset : Offset) (reading : Instant) : Instant :=
  reading.addSeconds (-offset.seconds)

end Offset
end Winnow
