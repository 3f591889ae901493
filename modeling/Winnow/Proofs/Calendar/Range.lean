import Winnow.Calendar.Window
import Winnow.Proofs.Calendar.LocalDay
import Winnow.Proofs.Calendar.PlainDate

/-!
# Representable dates

Every date that is read, or moved to by a checked step, is representable
(`ofFields?_inRange`, `readInstant?_inRange`, `Window.days?_inRange`).  Steps
between local and universal time are not checked, and leave the representable
dates at their ends only: for a local time less than the offset from the
beginning or from the end (`instantOf_inRange`), and for the first local day
where clocks are ahead (`dayStart_inRange`).  A plain date is read from too few
characters to lie near either end (`readDate?_of_short`).
-/

namespace Winnow

open Text Calendar

namespace Date

/-- The first representable date. -/
def first : Date := ⟨yearStart minYear⟩

/-- The last representable date. -/
def last : Date := ⟨yearStart (maxYear + 1) - 1⟩

theorem inRange_iff (date : Date) :
    date.inRange = true ↔
      first.dayNumber ≤ date.dayNumber ∧ date.dayNumber ≤ last.dayNumber := by
  have hlast : last.dayNumber = yearStart (maxYear + 1) - 1 := rfl
  unfold inRange
  rw [Bool.and_eq_true, decide_eq_true_iff, decide_eq_true_iff, hlast, Int.le_sub_one_iff]
  exact Iff.rfl

theorem eq_iff_dayNumber {a b : Date} : a = b ↔ a.dayNumber = b.dayNumber := by
  cases a
  cases b
  simp

/-! ## Years -/

theorem yearStart_mono {y z : Int} (h : y ≤ z) : yearStart y ≤ yearStart z := by
  unfold yearStart leapYearsTo
  omega

theorem yearStart_succ (y : Int) :
    yearStart (y + 1) = yearStart y + 365 + (if isLeap y then 1 else 0 : Nat) := by
  have hleap : leapYearsTo y = leapYearsTo (y - 1) + (if isLeap y then 1 else 0 : Nat) := by
    unfold isLeap leapYearsTo
    split
    next h =>
      simp only [Bool.or_eq_true, Bool.and_eq_true, decide_eq_true_eq] at h
      omega
    next h =>
      simp only [Bool.or_eq_true, Bool.and_eq_true, decide_eq_true_eq] at h
      omega
  unfold yearStart
  rw [show y + 1 - 1 = y by omega, hleap]
  omega

/-- The days of a month lie within the year. -/
theorem dayNumberOf_lt {y : Int} {m d : Nat} (hm : 1 ≤ m ∧ m ≤ 12)
    (hd : 1 ≤ d ∧ d ≤ monthLength y m) :
    yearStart y ≤ dayNumberOf y m d ∧ dayNumberOf y m d < yearStart (y + 1) := by
  have hmonths : ∀ m ≤ 12, 1 ≤ m → ∀ leap : Bool,
      [0, 31, 59, 90, 120, 151, 181, 212, 243, 273, 304, 334].getD (m - 1) 334 +
          (if 2 < m ∧ leap then 1 else 0) + (if m = 2 ∧ leap then 29 else commonMonthLength m) ≤
        365 + if leap then 1 else 0 := by
    decide
  have hmonth : daysBeforeMonth y m + monthLength y m ≤ 365 + if isLeap y then 1 else 0 :=
    hmonths m hm.2 hm.1 (isLeap y)
  unfold dayNumberOf monthStart
  rw [yearStart_succ]
  generalize (if isLeap y then 1 else 0 : Nat) = extra at hmonth ⊢
  omega

/-- A date lies within its year, which is representable. -/
theorem ofFields?_year {y : Int} {m d : Nat} {date : Date} (h : ofFields? y m d = some date) :
    (minYear ≤ y ∧ y ≤ maxYear) ∧
      yearStart y ≤ date.dayNumber ∧ date.dayNumber < yearStart (y + 1) := by
  unfold ofFields? at h
  split at h
  next hfields =>
    obtain ⟨hlow, hhigh, hm, hm', hd, hd'⟩ := hfields
    cases h
    exact ⟨⟨hlow, hhigh⟩, dayNumberOf_lt ⟨hm, hm'⟩ ⟨hd, hd'⟩⟩
  next => cases h

theorem ofFields?_inRange {y : Int} {m d : Nat} {date : Date} (h : ofFields? y m d = some date) :
    date.inRange = true := by
  obtain ⟨⟨hlow, hhigh⟩, hstart, hend⟩ := ofFields?_year h
  have hfirst := yearStart_mono hlow
  have hlast := yearStart_mono (Int.add_le_add_right hhigh 1)
  unfold inRange
  rw [Bool.and_eq_true, decide_eq_true_iff, decide_eq_true_iff]
  omega

/-! ## Checked steps -/

theorem addDays?_inRange {date moved : Date} {days : Int} (h : date.addDays? days = some moved) :
    moved.inRange = true := by
  unfold addDays? check at h
  split at h
  next hrange =>
    cases h
    exact hrange
  next => cases h

theorem addMonths?_inRange {date moved : Date} {months : Int}
    (h : date.addMonths? months = some moved) : moved.inRange = true := ofFields?_inRange h

end Date

theorem CalendarUnit.move?_inRange {unit : CalendarUnit} {date moved : Date} {n : Int}
    (h : unit.move? date n = some moved) : moved.inRange = true := by
  cases unit with
  | week => exact Date.addDays?_inRange h
  | month | quarter | year => exact Date.addMonths?_inRange h

/-- The bounds of a window are representable whatever today is. -/
theorem Window.days?_inRange {w : Window} {today start finish : Date}
    (h : w.days? today = some (start, finish)) : start.inRange = true ∧ finish.inRange = true := by
  have hpair : ∀ {a b : Option Date}, (∀ d, a = some d → d.inRange = true) →
      (∀ d, b = some d → d.inRange = true) →
        (do some (← a, ← b)) = some (start, finish) →
          start.inRange = true ∧ finish.inRange = true := by
    intro a b ha hb hab
    obtain ⟨low, hlow, hab⟩ := Option.bind_eq_some_iff.mp hab
    obtain ⟨high, hhigh, hab⟩ := Option.bind_eq_some_iff.mp hab
    cases hab
    exact ⟨ha _ hlow, hb _ hhigh⟩
  unfold days? at h
  cases w with
  | this unit | next unit | last unit =>
    exact hpair (fun _ => CalendarUnit.move?_inRange) (fun _ => CalendarUnit.move?_inRange) h
  | today | tomorrow | yesterday | nextDays days | lastDays days =>
    exact hpair (fun _ => Date.addDays?_inRange) (fun _ => Date.addDays?_inRange) h

/-! ## Reading -/

namespace Calendar

theorem readWholeDate?_inRange {cs : List Char} {date : Date} (h : readWholeDate? cs = some date) :
    date.inRange = true := by
  obtain ⟨fields, -, hdate⟩ := Option.bind_eq_some_iff.mp h
  exact Date.ofFields?_inRange hdate

theorem readDate?_inRange {s : String} {date : Date} (h : readDate? s = some date) :
    date.inRange = true := by
  unfold readDate? at h
  simp only at h
  split at h
  next hwhole =>
    cases h
    exact readWholeDate?_inRange hwhole
  next =>
    obtain ⟨cs, -, hwhole⟩ := Option.bind_eq_some_iff.mp h
    exact readWholeDate?_inRange hwhole

theorem clock?_lt {fields : Fields} {clock : Clock} (h : fields.clock? = some clock) :
    clock.seconds < 86400 := by
  unfold Fields.clock? at h
  split at h
  next hfields =>
    cases h
    simp only
    split <;> omega
  next => cases h

theorem date_ofDateClock (date : Date) {clock : Clock} (h : clock.seconds < 86400) :
    (Instant.ofDateClock date clock).date = date := by
  rw [Date.eq_iff_dayNumber]
  show (date.dayNumber * 86400 + clock.seconds) / 86400 = date.dayNumber
  omega

theorem instant?_inRange {fields : Fields} {t : Instant} (h : fields.instant? = some t) :
    t.date.inRange = true := by
  obtain ⟨date, hdate, h⟩ := Option.bind_eq_some_iff.mp h
  obtain ⟨clock, hclock, h⟩ := Option.bind_eq_some_iff.mp h
  cases h
  rw [date_ofDateClock date (clock?_lt hclock)]
  exact Date.ofFields?_inRange hdate

theorem readClockReading?_inRange {s : String} {t : Instant} (h : readClockReading? s = some t) :
    t.date.inRange = true := by
  obtain ⟨form, -, h⟩ := List.exists_of_findSome?_eq_some h
  obtain ⟨fields, -, h⟩ := Option.bind_eq_some_iff.mp h
  exact instant?_inRange h

theorem instantAt?_inRange {fields : Fields} {offset : Int} {t : Instant}
    (h : fields.instantAt? offset = some t) : t.date.inRange = true := by
  unfold Fields.instantAt? at h
  split at h
  · cases h
  · obtain ⟨reading, -, h⟩ := Option.bind_eq_some_iff.mp h
    simp only at h
    split at h
    next hrange =>
      cases h
      exact hrange
    next => cases h

theorem readStrict?_inRange {cs : List Char} {t : Instant} (h : readStrict? cs = some t) :
    t.date.inRange = true := by
  unfold readStrict? at h
  iterate 13 obtain ⟨_, -, h⟩ := Option.bind_eq_some_iff.mp h
  simp only at h
  split at h
  · cases h
  · exact instantAt?_inRange h

theorem date_startOf (date : Date) : (Instant.startOf date).date = date :=
  @date_ofDateClock date Clock.midnight (by decide)

/-- Whatever the form it is written in, an instant that is read is on a representable date. -/
theorem readInstant?_inRange {s : String} {t : Instant} (h : readInstant? s = some t) :
    t.date.inRange = true := by
  unfold readInstant? at h
  split at h
  next hstrict =>
    cases h
    exact readStrict?_inRange hstrict
  next =>
    split at h
    next hreading =>
      cases h
      exact readClockReading?_inRange hreading
    next =>
      obtain ⟨date, hdate, rfl⟩ := Option.map_eq_some_iff.mp h
      rw [date_startOf]
      exact readDate?_inRange hdate

end Calendar

/-! ## Local and universal time -/

namespace Offset

/-- Whether a local time has no instant on a representable date: clocks are ahead by more than has
passed since the beginning, or behind by more than is left until the end.  A leap second counts as
the second after it. -/
def Escapes (offset : Offset) (reading : Instant) : Prop :=
  (reading.date = Date.first ∧
    (reading.clock.seconds : Int) + (if reading.nanos < Instant.leapNanos then 0 else 1) <
      offset.seconds) ∨
  (reading.date = Date.last ∧
    offset.seconds + Instant.dayLength ≤ reading.clock.seconds)

section
variable {offset : Offset} (hoffset : offsetInRange offset.seconds = true)

include hoffset

theorem seconds_lt : -86400 < offset.seconds ∧ offset.seconds < 86400 := by
  unfold offsetInRange at hoffset
  rw [Bool.and_eq_true, decide_eq_true_iff, decide_eq_true_iff] at hoffset
  exact hoffset

/-- The instant of a local time is on a representable date unless the local time escapes. -/
theorem instantOf_inRange {reading : Instant} (hreading : reading.date.inRange = true) :
    (offset.instantOf reading).date.inRange = true ↔ ¬offset.Escapes reading := by
  obtain ⟨hlow, hhigh⟩ := seconds_lt hoffset
  have hdate : reading.date.dayNumber = reading.seconds / 86400 := rfl
  have hclock : (reading.clock.seconds : Int) = reading.seconds % 86400 :=
    Int.toNat_of_nonneg (Int.emod_nonneg _ (by decide))
  rw [Date.inRange_iff] at hreading ⊢
  have hmoved : (offset.instantOf reading).date.dayNumber =
      (offset.instantOf reading).seconds / 86400 := rfl
  unfold Escapes
  rw [hmoved, Date.eq_iff_dayNumber, Date.eq_iff_dayNumber, hclock]
  unfold instantOf Instant.addSeconds Instant.dayLength
  split
  next => simp only; omega
  next =>
    split
    next => simp only; omega
    next =>
      split
      next => simp only; omega
      next => omega

/-- A local day begins on a representable date unless it is the first one and clocks are ahead. -/
theorem dayStart_inRange {date : Date} (hdate : date.inRange = true) :
    (offset.dayStart date).date.inRange = true ↔ ¬(date = Date.first ∧ 0 < offset.seconds) := by
  obtain ⟨hlow, hhigh⟩ := seconds_lt hoffset
  rw [Date.inRange_iff] at hdate ⊢
  have hmoved : (offset.dayStart date).date.dayNumber =
      (date.dayNumber * 86400 - offset.seconds) / 86400 := by
    rw [dayStart_eq]
    rfl
  rw [hmoved, Date.eq_iff_dayNumber]
  omega

end

end Offset

/-! ## Plain dates -/

theorem length_le_utf8ByteSize (s : String) : s.toList.length ≤ s.utf8ByteSize := by
  have hchars : ∀ cs : List Char, cs.length ≤ (String.ofList cs).utf8ByteSize := by
    intro cs
    induction cs with
    | nil => exact Nat.zero_le _
    | cons c rest ih =>
      have hsize := c.utf8Size_pos
      rw [utf8ByteSize_ofList_cons, List.length_cons]
      omega
  have h := hchars s.toList
  rwa [String.ofList_toList] at h

theorem natOfDigits_lt (cs : List Char) : natOfDigits cs < 10 ^ cs.length := by
  have hdigit : ∀ c, (digit? c).getD 0 ≤ 9 := by
    intro c
    show (if 48 ≤ c.toNat ∧ c.toNat ≤ 57 then some (c.toNat - 48) else none).getD 0 ≤ 9
    split
    next => simp only [Option.getD_some]; omega
    next => exact Nat.zero_le 9
  have hfold : ∀ (cs : List Char) (n : Nat),
      cs.foldl (fun n c => 10 * n + (digit? c).getD 0) n < (n + 1) * 10 ^ cs.length := by
    intro cs
    induction cs with
    | nil => exact fun n => by simp
    | cons c rest ih =>
      intro n
      have hstep : 10 * n + (digit? c).getD 0 + 1 ≤ (n + 1) * 10 := by
        have := hdigit c
        omega
      calc
        _ < (10 * n + (digit? c).getD 0 + 1) * 10 ^ rest.length := ih _
        _ ≤ (n + 1) * 10 * 10 ^ rest.length := Nat.mul_le_mul_right _ hstep
        _ = (n + 1) * 10 ^ (c :: rest).length := by
          rw [List.length_cons, Nat.pow_succ', Nat.mul_assoc]
  have h := hfold cs 0
  rwa [Nat.zero_add, Nat.one_mul] at h

namespace Calendar

/-- A number takes its digits off a text. -/
theorem takeNumber?_length {most n : Nat} {cs rest : List Char}
    (h : takeNumber? most cs = some (n, rest)) :
    ∃ k, 0 < k ∧ k ≤ most ∧ cs.length = k + rest.length ∧ n < 10 ^ k := by
  unfold takeNumber? at h
  simp only at h
  split at h
  next => cases h
  next hsome =>
    cases h
    have hmost := List.length_take_le most (cs.takeWhile isDigit)
    have htaken := List.length_take_le' most (cs.takeWhile isDigit)
    have hwhole := (List.takeWhile_sublist (p := isDigit) (l := cs)).length_le
    refine ⟨((cs.takeWhile isDigit).take most).length, ?_, hmost, ?_, natOfDigits_lt _⟩
    · exact List.length_pos_iff.mpr fun hnil => hsome (List.isEmpty_iff.mpr hnil)
    · rw [List.length_drop]
      omega

/-- A year that takes at most six characters has at most five digits. -/
theorem takeYear?_lt {cs rest : List Char} {y : Int} (h : takeYear? cs = some (y, rest))
    (hlength : cs.length ≤ rest.length + 6) : -100000 < y ∧ y < 100000 := by
  have hsigned : ∀ {cs : List Char} {n : Int}, takeLongNumber? cs = some (n, rest) →
      cs.length + 1 ≤ rest.length + 6 → 0 ≤ n ∧ n < 100000 := by
    intro cs n h hlength
    obtain ⟨⟨n', rest'⟩, hnumber, h⟩ := Option.bind_eq_some_iff.mp h
    simp only at h
    split at h
    next =>
      cases h
      obtain ⟨k, -, -, hcs, hlt⟩ := takeNumber?_length hnumber
      have hpow : 10 ^ k ≤ 10 ^ 5 := Nat.pow_le_pow_right (by decide) (by omega)
      omega
    next => cases h
  unfold takeYear? at h
  split at h
  next =>
    obtain ⟨⟨n, rest'⟩, hnumber, heq⟩ := Option.map_eq_some_iff.mp h
    cases heq
    have := hsigned hnumber hlength
    omega
  next =>
    have := hsigned h hlength
    omega
  next =>
    obtain ⟨⟨n, rest'⟩, hnumber, heq⟩ := Option.map_eq_some_iff.mp h
    cases heq
    obtain ⟨k, -, hk, -, hlt⟩ := takeNumber?_length hnumber
    have hpow : 10 ^ k ≤ 10 ^ 4 := Nat.pow_le_pow_right (by decide) hk
    omega

theorem trimStartChars_length (cs : List Char) : (trimStartChars cs).length ≤ cs.length :=
  (List.dropWhile_sublist (p := isBlank) (l := cs)).length_le

/-- One step: an item other than blanks takes a character, and one other than a year keeps the
year. -/
theorem takeItem?_length {item : Item} {f f' : Fields} {cs rest : List Char}
    (h : takeItem? item f cs = some (f', rest)) (hyear : item ≠ .year) (hblanks : item ≠ .blanks) :
    rest.length < cs.length ∧ f'.year = f.year := by
  have htrim := trimStartChars_length cs
  have hnumber : ∀ {step : Nat × List Char → Fields × List Char},
      (takeNumber? 2 (trimStartChars cs)).map step = some (f', rest) →
        (∀ pair, (step pair).2 = pair.2 ∧ (step pair).1.year = f.year) →
          rest.length < cs.length ∧ f'.year = f.year := by
    intro step h hstep
    obtain ⟨pair, hpair, heq⟩ := Option.map_eq_some_iff.mp h
    obtain ⟨hrest, hyear⟩ := hstep pair
    rw [heq] at hrest hyear
    obtain ⟨k, hk, -, hcs, -⟩ := takeNumber?_length hpair
    have hshorter : rest.length < cs.length := by
      rw [← hrest] at hcs
      simp only at hcs
      omega
    exact ⟨hshorter, hyear⟩
  unfold takeItem? at h
  cases item with
  | year => exact absurd rfl hyear
  | blanks => exact absurd rfl hblanks
  | month | day | hour | minute | second => exact hnumber h fun _ => ⟨rfl, rfl⟩
  | fixed c =>
    cases cs with
    | nil => cases h
    | cons x tail =>
      simp only at h
      split at h
      next =>
        cases h
        exact ⟨Nat.lt_succ_self _, rfl⟩
      next => cases h

/-- A run: every item takes a character. -/
theorem takeItems?_length {items : List Item} {f f' : Fields} {cs rest : List Char}
    (h : takeItems? items f cs = some (f', rest))
    (hitems : ∀ item ∈ items, item ≠ .year ∧ item ≠ .blanks) :
    rest.length + items.length ≤ cs.length ∧ f'.year = f.year := by
  induction items generalizing f cs with
  | nil =>
    cases h
    exact ⟨Nat.le_refl _, rfl⟩
  | cons item items ih =>
    obtain ⟨⟨next, tail⟩, hitem, h⟩ := Option.bind_eq_some_iff.mp h
    obtain ⟨hyear, hblanks⟩ := hitems item List.mem_cons_self
    obtain ⟨hlength, hkept⟩ := takeItem?_length hitem hyear hblanks
    obtain ⟨hlengths, hkepts⟩ :=
      ih h fun other hother => hitems other (List.mem_cons_of_mem _ hother)
    exact ⟨by rw [List.length_cons]; omega, hkepts.trans hkept⟩

/-- Ten characters leave at most five for the digits of the year. -/
theorem readWholeDate?_of_short {cs : List Char} {date : Date} (h : readWholeDate? cs = some date)
    (hlength : cs.length ≤ 10) :
    Date.yearStart (-99999) ≤ date.dayNumber ∧ date.dayNumber < Date.yearStart 100000 := by
  obtain ⟨fields, hform, hdate⟩ := Option.bind_eq_some_iff.mp h
  unfold readForm? at hform
  split at hform
  next found hitems =>
    cases hform
    obtain ⟨⟨next, tail⟩, hitem, hrest⟩ := Option.bind_eq_some_iff.mp hitems
    obtain ⟨hlengths, hkept⟩ := takeItems?_length hrest (by decide)
    obtain ⟨⟨y, rest⟩, hyear, heq⟩ := Option.map_eq_some_iff.mp hitem
    cases heq
    have htrim := trimStartChars_length cs
    have htail : 4 ≤ tail.length := by
      simpa using hlengths
    have hbounds := takeYear?_lt hyear (by omega)
    obtain ⟨-, hstart, hend⟩ := Date.ofFields?_year hdate
    rw [hkept] at hstart hend
    have hlow := Date.yearStart_mono (y := -99999) (z := y) (by omega)
    have hhigh := Date.yearStart_mono (y := y + 1) (z := 100000) (by omega)
    exact ⟨Int.le_trans hlow hstart, Int.lt_of_lt_of_le hend hhigh⟩
  next => cases hform

theorem takeBytes?_length {n : Nat} {cs taken : List Char} (h : takeBytes? n cs = some taken) :
    taken.length ≤ n := by
  induction cs generalizing n taken with
  | nil =>
    unfold takeBytes? at h
    split at h
    next => cases h; exact Nat.zero_le _
    next => cases h
  | cons c rest ih =>
    unfold takeBytes? at h
    split at h
    next => cases h; exact Nat.zero_le _
    next =>
      split at h
      next hsize =>
        obtain ⟨others, hothers, rfl⟩ := Option.map_eq_some_iff.mp h
        have hlength := ih hothers
        have hpos := c.utf8Size_pos
        rw [List.length_cons]
        omega
      next => cases h

theorem trimChars_length (cs : List Char) : (trimChars cs).length ≤ cs.length := by
  unfold trimChars
  have hstart := trimStartChars_length cs
  have hend := trimStartChars_length (trimStartChars cs).reverse
  rw [List.length_reverse] at hend ⊢
  omega

/-- A date of at most ten bytes lies in a year of at most five digits. -/
theorem readDate?_of_short {s : String} {date : Date} (h : readDate? s = some date)
    (hsize : s.utf8ByteSize ≤ 10) :
    Date.yearStart (-99999) ≤ date.dayNumber ∧ date.dayNumber < Date.yearStart 100000 := by
  have hchars : (trimChars s.toList).length ≤ 10 :=
    Nat.le_trans (trimChars_length _) (Nat.le_trans (length_le_utf8ByteSize s) hsize)
  unfold readDate? at h
  simp only at h
  split at h
  next hwhole =>
    cases h
    exact readWholeDate?_of_short hwhole hchars
  next =>
    obtain ⟨taken, htaken, hwhole⟩ := Option.bind_eq_some_iff.mp h
    exact readWholeDate?_of_short hwhole (takeBytes?_length htaken)

end Calendar
end Winnow
