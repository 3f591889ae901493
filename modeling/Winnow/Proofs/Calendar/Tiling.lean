import Winnow.Proofs.Calendar.Fields
import Winnow.Proofs.Compile.Overflow

/-!
# Windows tile the calendar

The weeks, months, quarters and years follow one another without gaps, so each
kind of unit is numbered by whole numbers, and a date lies in the unit with the
greatest number whose first day is not after it (`firstDay_le_iff`).  The last,
this and the next unit of a date are those with the number before that of the
date, its own and the one after (`days?_last`, `days?_this`, `days?_next`), and
everything about how they lie follows from the numbers (`tiles`).
-/

namespace Winnow

open Date

/-- Whether a date lies in a window of a first day and the first day after it. -/
def Date.Within (date : Date) (days : Date × Date) : Prop :=
  days.1.dayNumber ≤ date.dayNumber ∧ date.dayNumber < days.2.dayNumber

instance (date : Date) (days : Date × Date) : Decidable (date.Within days) :=
  inferInstanceAs (Decidable (_ ∧ _))

namespace CalendarUnit

/-! ## Numbers of units -/

/-- The number of the unit that a date lies in. -/
def index (unit : CalendarUnit) (date : Date) : Int :=
  match unit with
  | .week => (date.dayNumber + 3) / 7
  | .month => date.monthIndex
  | .quarter => date.monthIndex / 3
  | .year => date.monthIndex / 12

/-- The first day of the unit with a number. -/
def firstDay (unit : CalendarUnit) (k : Int) : Date :=
  match unit with
  | .week => ⟨7 * k - 3⟩
  | .month => monthFirst k
  | .quarter => monthFirst (3 * k)
  | .year => monthFirst (12 * k)

/-- A unit has begun by a date when its number is at most that of the date. -/
theorem firstDay_le_iff (unit : CalendarUnit) (k : Int) (date : Date) :
    (unit.firstDay k).dayNumber ≤ date.dayNumber ↔ k ≤ unit.index date := by
  cases unit with
  | week =>
    show 7 * k - 3 ≤ date.dayNumber ↔ k ≤ (date.dayNumber + 3) / 7
    omega
  | month => exact monthFirst_le_iff k date
  | quarter =>
    have hmonths := monthFirst_le_iff (3 * k) date
    show (monthFirst (3 * k)).dayNumber ≤ date.dayNumber ↔ k ≤ date.monthIndex / 3
    omega
  | year =>
    have hmonths := monthFirst_le_iff (12 * k) date
    show (monthFirst (12 * k)).dayNumber ≤ date.dayNumber ↔ k ≤ date.monthIndex / 12
    omega

/-- A date lies in the unit that has begun by it and is followed by one that has not. -/
theorem index_eq_iff (unit : CalendarUnit) (k : Int) (date : Date) :
    unit.index date = k ↔ (unit.firstDay k).dayNumber ≤ date.dayNumber ∧
      date.dayNumber < (unit.firstDay (k + 1)).dayNumber := by
  have hfirst := unit.firstDay_le_iff k date
  have hnext := unit.firstDay_le_iff (k + 1) date
  omega

/-- No unit is shorter than a week. -/
theorem firstDay_add_le (unit : CalendarUnit) (k : Int) :
    (unit.firstDay k).dayNumber + 7 ≤ (unit.firstDay (k + 1)).dayNumber := by
  cases unit with
  | week =>
    show 7 * k - 3 + 7 ≤ 7 * (k + 1) - 3
    omega
  | month =>
    have hmonths := monthFirst_add_le (i := k) (j := k + 1) (by omega)
    show (monthFirst k).dayNumber + 7 ≤ (monthFirst (k + 1)).dayNumber
    omega
  | quarter =>
    have hmonths := monthFirst_add_le (i := 3 * k) (j := 3 * (k + 1)) (by omega)
    show (monthFirst (3 * k)).dayNumber + 7 ≤ (monthFirst (3 * (k + 1))).dayNumber
    omega
  | year =>
    have hmonths := monthFirst_add_le (i := 12 * k) (j := 12 * (k + 1)) (by omega)
    show (monthFirst (12 * k)).dayNumber + 7 ≤ (monthFirst (12 * (k + 1))).dayNumber
    omega

/-- The first day of the unit that a date lies in is that of the unit with the number of the
date. -/
theorem start_eq (unit : CalendarUnit) (date : Date) :
    unit.start date = unit.firstDay (unit.index date) := by
  obtain ⟨⟨hleast, hmost⟩, -⟩ := month_bounds date
  have hindex : date.monthIndex = date.year * 12 + (date.month - 1 : Nat) := rfl
  cases unit with
  | week =>
    show (⟨date.dayNumber + -((date.dayNumber + 3) % 7)⟩ : Date) =
      ⟨7 * ((date.dayNumber + 3) / 7) - 3⟩
    rw [Date.mk.injEq]
    omega
  | month =>
    obtain ⟨hyear, hmonth⟩ := monthIndex_div date
    show (⟨monthStart date.year date.month⟩ : Date) = monthFirst date.monthIndex
    unfold monthFirst
    rw [hyear, hmonth]
  | quarter =>
    have hyear : 3 * (date.monthIndex / 3) / 12 = date.year := by omega
    have hmonth : (3 * (date.monthIndex / 3) % 12).toNat = (date.month - 1) / 3 * 3 := by omega
    show (⟨monthStart date.year ((date.month - 1) / 3 * 3 + 1)⟩ : Date) =
      monthFirst (3 * (date.monthIndex / 3))
    unfold monthFirst
    rw [hyear, hmonth]
  | year =>
    have hyear : date.monthIndex / 12 = date.year := by omega
    show (⟨yearStart date.year⟩ : Date) = monthFirst (12 * (date.monthIndex / 12))
    rw [hyear, monthFirst_year]

/-- Some units after the first day of a unit it is the first day of the unit with the number so much
greater. -/
theorem move?_firstDay (unit : CalendarUnit) (k n : Int) :
    unit.move? (unit.firstDay k) n = (unit.firstDay (k + n)).check := by
  cases unit with
  | week =>
    have hday : 7 * k - 3 + 7 * n = 7 * (k + n) - 3 := by omega
    show (⟨7 * k - 3 + 7 * n⟩ : Date).check = (⟨7 * (k + n) - 3⟩ : Date).check
    rw [hday]
  | month => exact addMonths?_monthFirst k n
  | quarter =>
    show (monthFirst (3 * k)).addMonths? (3 * n) = (monthFirst (3 * (k + n))).check
    rw [addMonths?_monthFirst, Int.mul_add]
  | year =>
    show (monthFirst (12 * k)).addMonths? (12 * n) = (monthFirst (12 * (k + n))).check
    rw [addMonths?_monthFirst, Int.mul_add]

/-- The days of the unit with a number: its first one and the first one after it, if both are
representable. -/
def days? (unit : CalendarUnit) (k : Int) : Option (Date × Date) := do
  some (← (unit.firstDay k).check, ← (unit.firstDay (k + 1)).check)

theorem days?_eq_some {unit : CalendarUnit} {k : Int} {days : Date × Date}
    (h : unit.days? k = some days) : days = (unit.firstDay k, unit.firstDay (k + 1)) ∧
      (unit.firstDay k).inRange = true ∧ (unit.firstDay (k + 1)).inRange = true := by
  obtain ⟨start, hstart, h⟩ := Option.bind_eq_some_iff.mp h
  obtain ⟨finish, hfinish, h⟩ := Option.bind_eq_some_iff.mp h
  cases h
  obtain ⟨rfl, hbegin⟩ := check_eq_some hstart
  obtain ⟨rfl, hend⟩ := check_eq_some hfinish
  exact ⟨rfl, hbegin, hend⟩

/-- The dates within the days of a unit are representable and lie in it. -/
theorem within_days? {unit : CalendarUnit} {k : Int} {days : Date × Date}
    (h : unit.days? k = some days) {date : Date} (hdate : date.Within days) :
    date.inRange = true ∧ unit.index date = k := by
  obtain ⟨rfl, hstart, hfinish⟩ := days?_eq_some h
  obtain ⟨hbegun, hover⟩ := hdate
  refine ⟨?_, (unit.index_eq_iff k date).mpr ⟨hbegun, hover⟩⟩
  rw [inRange_iff] at hstart hfinish ⊢
  simp only at hbegun hover
  omega

/-! ## What units begin with -/

/-- Whether a day is the first one of the unit that a date lies in: the Monday of its week, or the
first of its month, of the January, April, July or October of its quarter, or of the January of its
year. -/
def Begins (unit : CalendarUnit) (start date : Date) : Prop :=
  match unit with
  | .week =>
    start.daysSinceMonday = 0 ∧ start.dayNumber ≤ date.dayNumber ∧
      date.dayNumber < start.dayNumber + 7
  | .month => start.year = date.year ∧ start.month = date.month ∧ start.day = 1
  | .quarter =>
    start.year = date.year ∧ start.month ∈ [1, 4, 7, 10] ∧
      (start.month ≤ date.month ∧ date.month < start.month + 3) ∧ start.day = 1
  | .year => start.year = date.year ∧ start.month = 1 ∧ start.day = 1

theorem firstDay_begins (unit : CalendarUnit) (date : Date) :
    unit.Begins (unit.firstDay (unit.index date)) date := by
  obtain ⟨⟨hleast, hmost⟩, -⟩ := month_bounds date
  have hindex : date.monthIndex = date.year * 12 + (date.month - 1 : Nat) := rfl
  cases unit with
  | week =>
    show (7 * ((date.dayNumber + 3) / 7) - 3 + 3) % 7 = 0 ∧
      7 * ((date.dayNumber + 3) / 7) - 3 ≤ date.dayNumber ∧
      date.dayNumber < 7 * ((date.dayNumber + 3) / 7) - 3 + 7
    omega
  | month =>
    obtain ⟨hyear, hmonth, hday⟩ := monthFirst_fields date.monthIndex
    show (monthFirst date.monthIndex).year = date.year ∧
      (monthFirst date.monthIndex).month = date.month ∧ (monthFirst date.monthIndex).day = 1
    rw [hyear, hmonth]
    omega
  | quarter =>
    obtain ⟨hyear, hmonth, hday⟩ := monthFirst_fields (3 * (date.monthIndex / 3))
    show (monthFirst (3 * (date.monthIndex / 3))).year = date.year ∧
      (monthFirst (3 * (date.monthIndex / 3))).month ∈ [1, 4, 7, 10] ∧
      ((monthFirst (3 * (date.monthIndex / 3))).month ≤ date.month ∧
        date.month < (monthFirst (3 * (date.monthIndex / 3))).month + 3) ∧
      (monthFirst (3 * (date.monthIndex / 3))).day = 1
    rw [hyear, hmonth]
    simp only [List.mem_cons, List.not_mem_nil, or_false]
    omega
  | year =>
    obtain ⟨hyear, hmonth, hday⟩ := monthFirst_fields (12 * (date.monthIndex / 12))
    show (monthFirst (12 * (date.monthIndex / 12))).year = date.year ∧
      (monthFirst (12 * (date.monthIndex / 12))).month = 1 ∧
      (monthFirst (12 * (date.monthIndex / 12))).day = 1
    rw [hyear, hmonth]
    omega

end CalendarUnit

/-! ## Windows of units -/

namespace Window

section
variable (unit : CalendarUnit) (today : Date)

theorem days?_this : (Window.this unit).days? today = unit.days? (unit.index today) := by
  unfold days? CalendarUnit.days?
  simp only
  rw [unit.start_eq, unit.move?_firstDay, unit.move?_firstDay, Int.add_zero]

theorem days?_next : (Window.next unit).days? today = unit.days? (unit.index today + 1) := by
  unfold days? CalendarUnit.days?
  simp only
  rw [unit.start_eq, unit.move?_firstDay, unit.move?_firstDay, Int.add_assoc]
  rfl

theorem days?_last : (Window.last unit).days? today = unit.days? (unit.index today - 1) := by
  unfold days? CalendarUnit.days?
  simp only
  rw [unit.start_eq, unit.move?_firstDay, unit.move?_firstDay, Int.add_zero, Int.sub_add_cancel]
  rfl

end

/-- The days of a window when it is resolved on a day.  The Monday of the day's week is looked at
whatever the window is, by a step that is not checked: where it is not representable there is no
window. -/
def resolve? (w : Window) (today : Date) : Option (Date × Date) :=
  if today.weekStart.inRange then w.days? today else none

theorem resolve?_eq_some {w : Window} {today : Date} {days : Date × Date} :
    w.resolve? today = some days ↔ today.weekStart.inRange = true ∧ w.days? today = some days := by
  unfold resolve?
  split
  next hweek => simp [hweek]
  next hweek => simp [hweek]

/-- What a token names is offered for the operator of its window. -/
theorem mem_of_ofToken? {token : String} {w : Window} (h : ofToken? token = some w) :
    w ∈ ofOperator w.operator := by
  have hoffered : ∀ w ∈ upcoming ++ past, w ∈ ofOperator w.operator := by decide
  have hspan : ∀ {lead : String} {cs : List Char} {n : Nat}, readSpan? lead cs = some n →
      n ∈ spans := by
    intro lead cs n hread
    obtain ⟨rest, -, hread⟩ := Option.bind_eq_some_iff.mp hread
    obtain ⟨digits, -, hread⟩ := Option.bind_eq_some_iff.mp hread
    split at hread
    next m hdigits =>
      split at hread
      next hmem =>
        cases hread
        exact hmem
      next => cases hread
    next => cases hread
  unfold ofToken? at h
  simp only at h
  split at h
  next =>
    cases h
    exact hoffered _ (by decide)
  next =>
    split at h
    next found hfind =>
      cases h
      exact hoffered _ (List.mem_of_find?_eq_some hfind)
    next =>
      split at h
      next n hread =>
        cases h
        refine hoffered _ (List.mem_append_left _ (List.mem_append_right _ ?_))
        exact List.mem_map_of_mem (hspan hread)
      next =>
        obtain ⟨n, hread, rfl⟩ := Option.map_eq_some_iff.mp h
        refine hoffered _ (List.mem_append_right _ (List.mem_append_right _ ?_))
        exact List.mem_map_of_mem (hspan hread)

end Window

namespace CalendarUnit

open Window

/-- How the last, this and the next unit lie that are resolved on a day. -/
structure Tiles (unit : CalendarUnit) (today : Date) : Prop where
  /-- The last unit ends where this one starts. -/
  last_ends : ∀ before during, (last unit).resolve? today = some before →
    (this unit).resolve? today = some during → before.2 = during.1
  /-- This unit ends where the next one starts. -/
  this_ends : ∀ during after, (this unit).resolve? today = some during →
    (next unit).resolve? today = some after → during.2 = after.1
  contains : ∀ during, (this unit).resolve? today = some during → today.Within during
  begins : ∀ during, (this unit).resolve? today = some during → unit.Begins during.1 today
  /-- The windows are the same on every day of this unit. -/
  inside : ∀ during, (this unit).resolve? today = some during → ∀ date : Date,
    date.Within during →
      firstMonday.dayNumber ≤ date.dayNumber ∨ ((last unit).resolve? today).isSome →
        ∀ w ∈ [last unit, this unit, next unit], w.resolve? date = w.resolve? today
  /-- On the days of the next unit that unit is this one. -/
  next_is_this : ∀ after, (next unit).resolve? today = some after → ∀ date : Date,
    date.Within after → (this unit).resolve? date = some after
  /-- On the days of the last unit that unit is this one, but for the days before the first
  Monday. -/
  last_is_this : ∀ before, (last unit).resolve? today = some before → ∀ date : Date,
    date.Within before →
      ((this unit).resolve? date = some before ↔ firstMonday.dayNumber ≤ date.dayNumber)

/-- Where the week of a day can be looked at it can be looked at on later days. -/
theorem weekStart_of_le {today date : Date} (htoday : today.weekStart.inRange = true)
    (hle : today.dayNumber ≤ date.dayNumber) (hdate : date.inRange = true) :
    date.weekStart.inRange = true := by
  have hmonday : today.weekStart.dayNumber = today.dayNumber - (today.dayNumber + 3) % 7 := rfl
  have hmonday' : date.weekStart.dayNumber = date.dayNumber - (date.dayNumber + 3) % 7 := rfl
  rw [inRange_iff] at htoday hdate ⊢
  omega

theorem tiles (unit : CalendarUnit) (today : Date) : unit.Tiles today where
  last_ends := by
    intro before during hbefore hduring
    rw [resolve?_eq_some, days?_last] at hbefore
    rw [resolve?_eq_some, days?_this] at hduring
    obtain ⟨rfl, -⟩ := days?_eq_some hbefore.2
    obtain ⟨rfl, -⟩ := days?_eq_some hduring.2
    show unit.firstDay (unit.index today - 1 + 1) = unit.firstDay (unit.index today)
    rw [Int.sub_add_cancel]
  this_ends := by
    intro during after hduring hafter
    rw [resolve?_eq_some, days?_this] at hduring
    rw [resolve?_eq_some, days?_next] at hafter
    obtain ⟨rfl, -⟩ := days?_eq_some hduring.2
    obtain ⟨rfl, -⟩ := days?_eq_some hafter.2
    rfl
  contains := by
    intro during hduring
    rw [resolve?_eq_some, days?_this] at hduring
    obtain ⟨rfl, -⟩ := days?_eq_some hduring.2
    exact (unit.index_eq_iff _ today).mp rfl
  begins := by
    intro during hduring
    rw [resolve?_eq_some, days?_this] at hduring
    obtain ⟨rfl, -⟩ := days?_eq_some hduring.2
    exact unit.firstDay_begins today
  inside := by
    intro during hduring date hdate hmonday w hw
    rw [resolve?_eq_some, days?_this] at hduring
    obtain ⟨hrange, hindex⟩ := within_days? hduring.2 hdate
    have hweek : date.weekStart.inRange = true := by
      rw [weekStart_inRange hrange]
      rcases hmonday with hmonday | hlast
      · exact hmonday
      · -- a whole unit before this one is representable, and the first Monday comes within a week
        obtain ⟨before, hbefore⟩ := Option.isSome_iff_exists.mp hlast
        rw [resolve?_eq_some, days?_last] at hbefore
        obtain ⟨rfl, -⟩ := days?_eq_some hduring.2
        obtain ⟨-, hfirst, -⟩ := days?_eq_some hbefore.2
        have hunit := unit.firstDay_add_le (unit.index today - 1)
        have hfour : firstMonday.dayNumber = first.dayNumber + 4 := rfl
        obtain ⟨hbegun, -⟩ := hdate
        rw [Int.sub_add_cancel] at hunit
        rw [inRange_iff] at hfirst
        simp only at hbegun
        omega
    have hdays : w.days? date = w.days? today := by
      simp only [List.mem_cons, List.not_mem_nil, or_false] at hw
      rcases hw with rfl | rfl | rfl
      · rw [days?_last, days?_last, hindex]
      · rw [days?_this, days?_this, hindex]
      · rw [days?_next, days?_next, hindex]
    unfold resolve?
    rw [if_pos hweek, if_pos hduring.1, hdays]
  next_is_this := by
    intro after hafter date hdate
    rw [resolve?_eq_some, days?_next] at hafter
    obtain ⟨hrange, hindex⟩ := within_days? hafter.2 hdate
    have hlater := (unit.firstDay_le_iff (unit.index today + 1) today).not
    obtain ⟨rfl, -⟩ := days?_eq_some hafter.2
    obtain ⟨hbegun, -⟩ := hdate
    simp only at hbegun
    rw [resolve?_eq_some, days?_this, hindex]
    exact ⟨weekStart_of_le hafter.1 (by omega) hrange, hafter.2⟩
  last_is_this := by
    intro before hbefore date hdate
    rw [resolve?_eq_some, days?_last] at hbefore
    obtain ⟨hrange, hindex⟩ := within_days? hbefore.2 hdate
    rw [resolve?_eq_some, days?_this, hindex, weekStart_inRange hrange]
    exact and_iff_left hbefore.2

end CalendarUnit

namespace Window

/-! ## Windows around today -/

section
variable {today start finish : Date}

/-- A window of days around today has the days it is counted with. -/
theorem around_eq_some {first last : Int}
    (h : (do some (← today.addDays? first, ← today.addDays? last)) = some (start, finish)) :
    start.dayNumber = today.dayNumber + first ∧ finish.dayNumber = today.dayNumber + last := by
  obtain ⟨low, hlow, h⟩ := Option.bind_eq_some_iff.mp h
  obtain ⟨high, hhigh, h⟩ := Option.bind_eq_some_iff.mp h
  cases h
  obtain ⟨rfl, -⟩ := check_eq_some hlow
  obtain ⟨rfl, -⟩ := check_eq_some hhigh
  exact ⟨rfl, rfl⟩

/-- A window of the present or future has days after today. -/
theorem days?_upcoming {w : Window} (hw : w.isPast = false)
    (h : w.days? today = some (start, finish)) :
    start.dayNumber < finish.dayNumber ∧ today.dayNumber < finish.dayNumber := by
  cases w with
  | today | tomorrow | nextDays n =>
    obtain ⟨hstart, hfinish⟩ := around_eq_some h
    omega
  | this unit =>
    rw [days?_this] at h
    obtain ⟨hdays, -⟩ := CalendarUnit.days?_eq_some h
    cases hdays
    have hunit := unit.firstDay_add_le (unit.index today)
    have htoday := (unit.index_eq_iff _ today).mp rfl
    omega
  | next unit =>
    rw [days?_next] at h
    obtain ⟨hdays, -⟩ := CalendarUnit.days?_eq_some h
    cases hdays
    have hunit := unit.firstDay_add_le (unit.index today + 1)
    have htoday := (unit.index_eq_iff _ today).mp rfl
    omega
  | yesterday | last unit | lastDays n => cases hw

/-- A window of the past has days before today and none after it. -/
theorem days?_past {w : Window} (hw : w.isPast = true) (hlength : w ≠ .lastDays 0)
    (h : w.days? today = some (start, finish)) :
    start.dayNumber < finish.dayNumber ∧ start.dayNumber < today.dayNumber ∧
      finish.dayNumber ≤ today.dayNumber + 1 := by
  cases w with
  | yesterday =>
    obtain ⟨hstart, hfinish⟩ := around_eq_some h
    omega
  | lastDays n =>
    have hn : n ≠ 0 := by
      rintro rfl
      exact hlength rfl
    obtain ⟨hstart, hfinish⟩ := around_eq_some h
    omega
  | last unit =>
    rw [days?_last] at h
    obtain ⟨hdays, -⟩ := CalendarUnit.days?_eq_some h
    cases hdays
    have hunit := unit.firstDay_add_le (unit.index today - 1)
    have htoday := (unit.index_eq_iff _ today).mp rfl
    rw [Int.sub_add_cancel] at hunit ⊢
    omega
  | today | tomorrow | this unit | next unit | nextDays n => cases hw

end

/-- On every day the units tile the calendar, and the windows that tokens name have days on the side
of the day that their operator says. -/
theorem windows_tile (today : Date) :
    (∀ unit : CalendarUnit, unit.Tiles today) ∧
      ∀ (token : String) (w : Window) (start finish : Date), ofToken? token = some w →
        w.resolve? today = some (start, finish) →
          start.dayNumber < finish.dayNumber ∧
            (w.operator = .is → today.dayNumber < finish.dayNumber) ∧
            (w.operator = .was → start.dayNumber < today.dayNumber ∧
              finish.dayNumber ≤ today.dayNumber + 1) := by
  refine ⟨fun unit => unit.tiles today, ?_⟩
  intro token w start finish htoken hresolved
  obtain ⟨-, hdays⟩ := resolve?_eq_some.mp hresolved
  have hoffered := mem_of_ofToken? htoken
  unfold operator at hoffered ⊢
  split
  next hpast =>
    have hlength : ∀ w ∈ past, w ≠ .lastDays 0 := by decide
    rw [if_pos hpast] at hoffered
    obtain ⟨hnonempty, haround⟩ := days?_past hpast (hlength w hoffered) hdays
    exact ⟨hnonempty, fun h => (by cases h), fun _ => haround⟩
  next hpast =>
    obtain ⟨hnonempty, hafter⟩ := days?_upcoming (Bool.eq_false_iff.mpr hpast) hdays
    exact ⟨hnonempty, fun _ => hafter, fun h => (by cases h)⟩

/-- On the last of May the last quarter is that which this quarter is on the first of January. -/
theorem windows_tile_sample :
    (last .quarter).resolve? ⟨dayNumberOf 2024 5 31⟩ =
        some (⟨dayNumberOf 2024 1 1⟩, ⟨dayNumberOf 2024 4 1⟩) ∧
      (this .quarter).resolve? ⟨dayNumberOf 2024 1 1⟩ =
        some (⟨dayNumberOf 2024 1 1⟩, ⟨dayNumberOf 2024 4 1⟩) ∧
      dayNumberOf 2024 5 31 < dayNumberOf 2024 7 1 := by
  have hlast : (last .quarter).resolve? ⟨dayNumberOf 2024 5 31⟩ =
      some (⟨dayNumberOf 2024 1 1⟩, ⟨dayNumberOf 2024 4 1⟩) := by decide
  have hthis : (this .quarter).resolve? ⟨dayNumberOf 2024 5 31⟩ =
      some (⟨dayNumberOf 2024 4 1⟩, ⟨dayNumberOf 2024 7 1⟩) := by decide
  obtain ⟨htiles, hwindows⟩ := windows_tile ⟨dayNumberOf 2024 5 31⟩
  refine ⟨hlast, ?_, ?_⟩
  · exact ((htiles .quarter).last_is_this _ hlast _ (by decide)).mpr (by decide)
  · exact (hwindows "this_quarter" _ _ _ (by decide) hthis).2.1 rfl

/-- From the middle of its second year every window can be resolved, and the last year is the first
one; but on the first days of that year, before its first Monday, this year cannot. -/
theorem first_days_unresolved :
    (∀ w ∈ upcoming ++ past, (w.resolve? ⟨dayNumberOf (-262142) 6 1⟩).isSome = true) ∧
      (last .year).resolve? ⟨dayNumberOf (-262142) 6 1⟩ =
        some (⟨dayNumberOf (-262143) 1 1⟩, ⟨dayNumberOf (-262142) 1 1⟩) ∧
      Date.Within ⟨dayNumberOf (-262143) 1 1⟩
        (⟨dayNumberOf (-262143) 1 1⟩, ⟨dayNumberOf (-262142) 1 1⟩) ∧
      (this .year).resolve? ⟨dayNumberOf (-262143) 1 1⟩ = none := by
  decide

end Window
end Winnow
