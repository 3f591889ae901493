import Winnow.Proofs.Calendar.Range

/-!
# The fields of a date

The months of all years follow one another without gaps (`monthFirst_succ`), so
they can be numbered, and a date lies in the month whose first day is the last
one not after it (`monthFirst_le_iff`).  The fields that are read off a date are
those that it was made of (`ofFields?_fields`).
-/

namespace Winnow.Date

/-! ## Years -/

/-- A date lies in its year. -/
theorem year_bounds (date : Date) :
    yearStart date.year ≤ date.dayNumber ∧ date.dayNumber < yearStart (date.year + 1) := by
  unfold year
  simp only
  -- the average length of a year leads to the year itself or to one next to it
  have hbefore : yearStart (1970 + date.dayNumber * 400 / 146097 - 1) ≤ date.dayNumber := by
    unfold yearStart leapYearsTo
    omega
  have hafter : date.dayNumber < yearStart (1970 + date.dayNumber * 400 / 146097 + 1 + 1) := by
    unfold yearStart leapYearsTo
    omega
  split
  next h => exact ⟨h, hafter⟩
  next h =>
    split
    next h' => exact ⟨hbefore, by rwa [Int.sub_add_cancel]⟩
    next h' => omega

/-! ## Months -/

/-- The number of a date's month, counted through all years. -/
def monthIndex (date : Date) : Int := date.year * 12 + (date.month - 1 : Nat)

/-- The first day of the month with a number. -/
def monthFirst (i : Int) : Date := ⟨monthStart (i / 12) ((i % 12).toNat + 1)⟩

theorem monthLength_ge (y : Int) {m : Nat} (hm : m ≤ 12) : 28 ≤ monthLength y m := by
  have hmonths : ∀ m ≤ 12, 28 ≤ commonMonthLength m := by decide
  have hcommon := hmonths m hm
  unfold monthLength
  split <;> omega

/-- The month after begins when a month is over, and after December the year after. -/
theorem monthStart_succ (y : Int) {m : Nat} (hm : 1 ≤ m ∧ m ≤ 12) :
    monthStart y m + monthLength y m =
      if m = 12 then yearStart (y + 1) else monthStart y (m + 1) := by
  have hdecember : ∀ leap : Bool,
      [0, 31, 59, 90, 120, 151, 181, 212, 243, 273, 304, 334].getD (12 - 1) 334 +
          (if 2 < 12 ∧ leap then 1 else 0) + (if 12 = 2 ∧ leap then 29 else commonMonthLength 12) =
        365 + (if leap then 1 else 0) := by
    decide
  have hmonths : ∀ m ≤ 11, 1 ≤ m → ∀ leap : Bool,
      [0, 31, 59, 90, 120, 151, 181, 212, 243, 273, 304, 334].getD (m - 1) 334 +
          (if 2 < m ∧ leap then 1 else 0) + (if m = 2 ∧ leap then 29 else commonMonthLength m) =
        [0, 31, 59, 90, 120, 151, 181, 212, 243, 273, 304, 334].getD m 334 +
          (if 2 < m + 1 ∧ leap then 1 else 0) := by
    decide
  unfold monthStart daysBeforeMonth monthLength
  by_cases hlast : m = 12
  · subst hlast
    have hdays := hdecember (isLeap y)
    rw [if_pos rfl, yearStart_succ]
    omega
  · have hdays := hmonths m (by omega) hm.1 (isLeap y)
    rw [if_neg hlast, Nat.add_sub_cancel]
    omega

/-- One month follows another. -/
theorem monthFirst_succ (i : Int) :
    (monthFirst (i + 1)).dayNumber =
      (monthFirst i).dayNumber + monthLength (i / 12) ((i % 12).toNat + 1) := by
  have hlast := monthStart_succ (i / 12) (m := (i % 12).toNat + 1) (by omega)
  unfold monthFirst
  simp only
  rw [hlast]
  split
  next hdecember =>
    have hyear : (i + 1) / 12 = i / 12 + 1 := by omega
    have hmonth : ((i + 1) % 12).toNat = 0 := by omega
    rw [hyear, hmonth]
    simp [monthStart, daysBeforeMonth]
  next hbefore =>
    have hyear : (i + 1) / 12 = i / 12 := by omega
    have hmonth : ((i + 1) % 12).toNat = (i % 12).toNat + 1 := by omega
    rw [hyear, hmonth]

/-- No month is shorter than 28 days. -/
theorem monthFirst_add_le {i j : Int} (h : i < j) :
    (monthFirst i).dayNumber + 28 ≤ (monthFirst j).dayNumber := by
  obtain ⟨n, rfl⟩ : ∃ n : Nat, j = i + 1 + n := ⟨(j - (i + 1)).toNat, by omega⟩
  induction n with
  | zero =>
    have hsucc := monthFirst_succ i
    have hlength := monthLength_ge (i / 12) (m := (i % 12).toNat + 1) (by omega)
    have hzero : i + 1 + (0 : Nat) = i + 1 := by omega
    rw [hzero]
    omega
  | succ n ih =>
    have ih := ih (by omega)
    have hsucc := monthFirst_succ (i + 1 + n)
    have hnext : i + 1 + (n + 1 : Nat) = i + 1 + n + 1 := by omega
    rw [hnext]
    omega

theorem monthFirst_le_monthFirst (i j : Int) :
    (monthFirst i).dayNumber ≤ (monthFirst j).dayNumber ↔ i ≤ j := by
  rcases Int.lt_trichotomy i j with h | rfl | h
  · have hlater := monthFirst_add_le h
    omega
  · simp
  · have hearlier := monthFirst_add_le h
    omega

/-- Where a test that a number passes is passed by all numbers before it, the numbers of a range that
pass are those before their count. -/
theorem lt_length_filter_range {p : Nat → Bool} {n i : Nat}
    (hp : ∀ i, i + 1 < n → p (i + 1) = true → p i = true) (hi : i < n) :
    i < ((List.range n).filter p).length ↔ p i = true := by
  induction n with
  | zero => omega
  | succ n ih =>
    have hbelow : ∀ j k, j + k ≤ n → p (j + k) = true → p j = true := by
      intro j k
      induction k with
      | zero => exact fun _ h => h
      | succ k ihk => exact fun hk h => ihk (by omega) (hp _ (by omega) h)
    have hle := List.length_filter_le p (List.range n)
    rw [List.length_range] at hle
    rw [List.range_succ, List.filter_append, List.length_append]
    by_cases hn : p n = true
    · have hall : ∀ j ≤ n, p j = true := by
        intro j hj
        refine hbelow j (n - j) (by omega) ?_
        rwa [Nat.add_sub_cancel' hj]
      rw [List.filter_eq_self.mpr fun j hj => hall j (by rw [List.mem_range] at hj; omega),
        List.length_range]
      simp [hn, hall i (by omega)]
      omega
    · by_cases hlast : i = n
      · subst hlast
        simp [hn]
        omega
      · have hcount := ih (fun j hj => hp j (by omega)) (by omega)
        simp [hn, hcount]

/-- A date lies in its month. -/
theorem month_bounds (date : Date) :
    (1 ≤ date.month ∧ date.month ≤ 12) ∧ monthStart date.year date.month ≤ date.dayNumber ∧
      date.dayNumber < monthStart date.year date.month + monthLength date.year date.month := by
  obtain ⟨hstart, hend⟩ := year_bounds date
  have hcount : ∀ i < 12, i < date.month ↔ monthStart date.year (i + 1) ≤ date.dayNumber := by
    intro i hi
    have hbegun := lt_length_filter_range
      (p := fun i => decide (monthStart date.year (i + 1) ≤ date.dayNumber)) (n := 12) (i := i) (by
        intro j hj hnext
        rw [decide_eq_true_iff] at hnext ⊢
        have hsucc := monthStart_succ date.year (m := j + 1) (by omega)
        rw [if_neg (by omega)] at hsucc
        omega) hi
    rwa [decide_eq_true_iff] at hbegun
  have hmost : date.month ≤ 12 := List.length_filter_le _ (List.range 12)
  have hjanuary : monthStart date.year (0 + 1) = yearStart date.year := by
    simp [monthStart, daysBeforeMonth]
  have hleast : 0 < date.month := (hcount 0 (by omega)).mpr (by omega)
  have hbegun := (hcount (date.month - 1) (by omega)).mp (by omega)
  rw [Nat.sub_add_cancel hleast] at hbegun
  refine ⟨⟨hleast, hmost⟩, hbegun, ?_⟩
  rw [monthStart_succ date.year ⟨hleast, hmost⟩]
  split
  next => exact hend
  next hbefore =>
    have hnext := mt (hcount date.month (by omega)).mpr (Nat.lt_irrefl _)
    omega

/-- Numbers of months are a year and a month of it. -/
theorem monthIndex_div (date : Date) :
    date.monthIndex / 12 = date.year ∧ (date.monthIndex % 12).toNat + 1 = date.month := by
  obtain ⟨⟨hleast, hmost⟩, -⟩ := month_bounds date
  unfold monthIndex
  omega

/-- A month has begun by a date when it comes no later than the month of the date. -/
theorem monthFirst_le_iff (i : Int) (date : Date) :
    (monthFirst i).dayNumber ≤ date.dayNumber ↔ i ≤ date.monthIndex := by
  obtain ⟨-, hbegun, hover⟩ := month_bounds date
  obtain ⟨hyear, hmonth⟩ := monthIndex_div date
  have hfirst : (monthFirst date.monthIndex).dayNumber = monthStart date.year date.month := by
    unfold monthFirst
    rw [hyear, hmonth]
  have hnext : date.dayNumber < (monthFirst (date.monthIndex + 1)).dayNumber := by
    rw [monthFirst_succ, hfirst, hyear, hmonth]
    exact hover
  have hbefore := monthFirst_le_monthFirst i date.monthIndex
  have hafter := monthFirst_le_monthFirst (date.monthIndex + 1) i
  omega

/-! ## Days -/

/-- The days from the first of a month to before the first of the next are those of the month. -/
theorem monthIndex_eq_iff (i : Int) (date : Date) :
    date.monthIndex = i ↔ (monthFirst i).dayNumber ≤ date.dayNumber ∧
      date.dayNumber < (monthFirst (i + 1)).dayNumber := by
  have hfirst := monthFirst_le_iff i date
  have hnext := monthFirst_le_iff (i + 1) date
  omega

/-- The fields of a day of a month are its year, the month and the day. -/
theorem fields_dayNumberOf {y : Int} {m d : Nat} (hm : 1 ≤ m ∧ m ≤ 12)
    (hd : 1 ≤ d ∧ d ≤ monthLength y m) :
    (⟨dayNumberOf y m d⟩ : Date).year = y ∧ (⟨dayNumberOf y m d⟩ : Date).month = m ∧
      (⟨dayNumberOf y m d⟩ : Date).day = d := by
  have hyear : (y * 12 + (m - 1 : Nat)) / 12 = y := by omega
  have hmonth : ((y * 12 + (m - 1 : Nat)) % 12).toNat + 1 = m := by omega
  have hindex : (⟨dayNumberOf y m d⟩ : Date).monthIndex = y * 12 + (m - 1 : Nat) := by
    rw [monthIndex_eq_iff, monthFirst_succ]
    unfold monthFirst
    rw [hyear, hmonth]
    unfold dayNumberOf
    simp only
    omega
  obtain ⟨hyear', hmonth'⟩ := monthIndex_div ⟨dayNumberOf y m d⟩
  rw [hindex, hyear] at hyear'
  rw [hindex, hmonth] at hmonth'
  refine ⟨hyear'.symm, hmonth'.symm, ?_⟩
  unfold day
  rw [← hyear', ← hmonth']
  unfold dayNumberOf
  simp only
  omega

/-- A date made of fields has those fields. -/
theorem ofFields?_fields {y : Int} {m d : Nat} {date : Date} (h : ofFields? y m d = some date) :
    date.year = y ∧ date.month = m ∧ date.day = d := by
  unfold ofFields? at h
  split at h
  next hfields =>
    obtain ⟨-, -, hm, hm', hd, hd'⟩ := hfields
    cases h
    exact fields_dayNumberOf ⟨hm, hm'⟩ ⟨hd, hd'⟩
  next => cases h

/-- A year begins with its January. -/
theorem monthFirst_year (y : Int) : monthFirst (12 * y) = ⟨yearStart y⟩ := by
  have hyear : 12 * y / 12 = y := by omega
  have hmonth : (12 * y % 12).toNat = 0 := by omega
  unfold monthFirst
  rw [hyear, hmonth]
  simp [monthStart, daysBeforeMonth]

/-- The fields of the first of a month. -/
theorem monthFirst_fields (i : Int) :
    (monthFirst i).year = i / 12 ∧ (monthFirst i).month = (i % 12).toNat + 1 ∧
      (monthFirst i).day = 1 := by
  have hfirst : (⟨dayNumberOf (i / 12) ((i % 12).toNat + 1) 1⟩ : Date) = monthFirst i := by
    unfold dayNumberOf monthFirst
    simp
  rw [← hfirst]
  have hlength := monthLength_ge (i / 12) (m := (i % 12).toNat + 1) (by omega)
  exact fields_dayNumberOf (by omega) (by omega)

/-! ## Checked dates -/

theorem check_eq_some {date found : Date} (h : date.check = some found) :
    found = date ∧ date.inRange = true := by
  unfold check at h
  split at h
  next hrange =>
    cases h
    exact ⟨rfl, hrange⟩
  next => cases h

/-- The first of a month is representable when its year is. -/
theorem monthFirst_inRange (i : Int) :
    (monthFirst i).inRange = true ↔ minYear ≤ i / 12 ∧ i / 12 ≤ maxYear := by
  have hyear : ∀ y : Int, yearStart y ≤ (monthFirst i).dayNumber ↔ 12 * y ≤ i := by
    intro y
    have hle := monthFirst_le_monthFirst (12 * y) i
    rwa [monthFirst_year] at hle
  have hleast := hyear minYear
  have hmost := hyear (maxYear + 1)
  unfold inRange
  rw [Bool.and_eq_true, decide_eq_true_iff, decide_eq_true_iff]
  omega

/-- Some months after the first of a month it is the first of the month with the number so much
greater. -/
theorem addMonths?_monthFirst (i n : Int) :
    (monthFirst i).addMonths? n = (monthFirst (i + n)).check := by
  have hlength := monthLength_ge ((i + n) / 12) (m := ((i + n) % 12).toNat + 1) (by omega)
  obtain ⟨hyear, hmonth, hday⟩ := monthFirst_fields i
  have hindex : (monthFirst i).year * 12 + ((monthFirst i).month - 1 : Nat) + n = i + n := by
    omega
  unfold addMonths?
  simp only
  rw [hindex, hday, Nat.min_eq_left (by omega)]
  unfold ofFields? check
  by_cases hrange : (monthFirst (i + n)).inRange = true
  · have hyears := (monthFirst_inRange (i + n)).mp hrange
    rw [if_pos hrange, if_pos (by omega)]
    unfold dayNumberOf monthFirst
    simp
  · have hyears := mt (monthFirst_inRange (i + n)).mpr hrange
    rw [if_neg hrange, if_neg (by omega)]

end Winnow.Date
