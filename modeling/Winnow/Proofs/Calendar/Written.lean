import Winnow.Proofs.Calendar.Midnight

/-!
# What dates and times are written like

A date is a year, a month and a day with hyphens between them
(`WritesDate`), and a clock reading is a date and a time of day with blanks or a
`T` between them (`WritesReading`).  The interchange form has fixed numbers of
digits and an offset (`WritesInterchange`).  A date is read exactly where it is
written (`readWholeDate?_iff`): numbers are read as far as their digits go, and
the hyphens and the end of the text are where they stop.
-/

namespace Winnow.Calendar

open Text

/-! ## Numbers -/

/-- Digits that make up a number, one at least. -/
structure Digits (n : Nat) (cs : List Char) : Prop where
  nonempty : cs ≠ []
  digits : ∀ c ∈ cs, isDigit c = true
  value : natOfDigits cs = n

/-- A number of one or two digits, with blanks before it or not. -/
inductive WritesShort (n : Nat) : List Char → Prop where
  | mk {blanks digits : List Char} : (∀ c ∈ blanks, isBlank c = true) → Digits n digits →
      digits.length ≤ 2 → WritesShort n (blanks ++ digits)

/-- A year of at most four digits, or of any number of them after a sign, with blanks before it or
not. -/
inductive WritesYear : Int → List Char → Prop where
  | plain {n : Nat} {blanks digits : List Char} : (∀ c ∈ blanks, isBlank c = true) →
      Digits n digits → digits.length ≤ 4 → WritesYear n (blanks ++ digits)
  | later {n : Nat} {blanks digits : List Char} : (∀ c ∈ blanks, isBlank c = true) →
      Digits n digits → WritesYear n (blanks ++ '+' :: digits)
  | earlier {n : Nat} {blanks digits : List Char} : (∀ c ∈ blanks, isBlank c = true) →
      Digits n digits → WritesYear (-n) (blanks ++ '-' :: digits)

/-- A number in a fixed number of digits. -/
structure WritesExactly (count n : Nat) (cs : List Char) : Prop where
  length : cs.length = count
  digits : ∀ c ∈ cs, isDigit c = true
  value : natOfDigits cs = n

/-! ## Dates and clock readings -/

/-- A date: year, month and day with hyphens between them. -/
inductive WritesDate (date : Date) : List Char → Prop where
  | mk {y : Int} {m d : Nat} {year month day : List Char} : WritesYear y year →
      WritesShort m month → WritesShort d day → Date.ofFields? y m d = some date →
      WritesDate date (year ++ '-' :: (month ++ '-' :: day))

/-- A time of day: hour and minute, or hour, minute and second, with colons between them. -/
inductive WritesClock (clock : Clock) : List Char → Prop where
  | minute {h m : Nat} {hour minute : List Char} : WritesShort h hour → WritesShort m minute →
      Fields.clock? { hour := h, minute := m } = some clock →
      WritesClock clock (hour ++ ':' :: minute)
  | second {h m s : Nat} {hour minute second : List Char} : WritesShort h hour →
      WritesShort m minute → WritesShort s second →
      Fields.clock? { hour := h, minute := m, second := s } = some clock →
      WritesClock clock (hour ++ ':' :: (minute ++ ':' :: second))

/-- A date and a time of day with blanks or a `T` between them; nothing needs to be between them when
the day has two digits. -/
inductive WritesReading : Instant → List Char → Prop where
  | spaced {date : Date} {clock : Clock} {front blanks back : List Char} : WritesDate date front →
      blanks ≠ [] → (∀ c ∈ blanks, isBlank c = true) → WritesClock clock back →
      WritesReading (.ofDateClock date clock) (front ++ (blanks ++ back))
  | lettered {date : Date} {clock : Clock} {front back : List Char} : WritesDate date front →
      WritesClock clock back → WritesReading (.ofDateClock date clock) (front ++ 'T' :: back)
  | adjacent {date : Date} {clock : Clock} {front back : List Char} {a b : Char} :
      WritesDate date (front ++ [a, b]) → isDigit a = true → isDigit b = true →
      WritesClock clock back → WritesReading (.ofDateClock date clock) (front ++ a :: b :: back)

/-! ## The interchange form -/

/-- A fraction of a second in nanoseconds, or nothing. -/
inductive WritesFraction : Nat → List Char → Prop where
  | whole : WritesFraction 0 []
  | digits {n : Nat} {digits : List Char} : digits ≠ [] → (∀ c ∈ digits, isDigit c = true) →
      natOfDigits (digits.take 9) = n →
      WritesFraction (n * Bounds.tenTo (9 - min 9 digits.length)) ('.' :: digits)

/-- An offset from UTC: `Z`, or a sign, hours and minutes. -/
inductive WritesOffset : Int → List Char → Prop where
  | utc {c : Char} : c = 'Z' ∨ c = 'z' → WritesOffset 0 [c]
  | ahead {h m : Nat} {hours minutes : List Char} : WritesExactly 2 h hours →
      WritesExactly 2 m minutes → m ≤ 59 →
      WritesOffset (h * 3600 + m * 60) ('+' :: (hours ++ ':' :: minutes))
  | behind {c : Char} {h m : Nat} {hours minutes : List Char} : c = '-' ∨ c.toNat = 0x2212 →
      WritesExactly 2 h hours → WritesExactly 2 m minutes → m ≤ 59 →
      WritesOffset (-(h * 3600 + m * 60)) (c :: (hours ++ ':' :: minutes))

/-- A date, a time of day and an offset in fixed numbers of digits. -/
inductive WritesInterchange (t : Instant) : List Char → Prop where
  | mk {y mo d h mi s n : Nat} {o : Int} {c : Char}
      {year month day hour minute second fraction offset : List Char} : WritesExactly 4 y year →
      WritesExactly 2 mo month → WritesExactly 2 d day → c = 't' ∨ c = 'T' ∨ c = ' ' →
      WritesExactly 2 h hour → WritesExactly 2 mi minute → WritesExactly 2 s second →
      WritesFraction n fraction → WritesOffset o offset →
      Fields.instantAt? ⟨y, mo, d, h, mi, s, n⟩ o = some t →
      WritesInterchange t (year ++ '-' :: (month ++ '-' :: (day ++ c :: (hour ++ ':' ::
        (minute ++ ':' :: (second ++ (fraction ++ offset)))))))

/-- An instant: the interchange form, a clock reading taken as UTC, or a date for its midnight. -/
inductive WritesInstant : Instant → List Char → Prop where
  | interchange {t : Instant} {cs : List Char} : WritesInterchange t cs → WritesInstant t cs
  | reading {t : Instant} {cs : List Char} : WritesReading t cs → WritesInstant t cs
  | date {date : Date} {cs : List Char} : WritesDate date cs → WritesInstant (.startOf date) cs

/-! ## Reading numbers -/

/-- The digits that a number may take are the front of a text. -/
theorem digits_append_drop (most : Nat) (cs : List Char) :
    (cs.takeWhile isDigit).take most ++ cs.drop ((cs.takeWhile isDigit).take most).length = cs :=
  List.prefix_iff_eq_append.mp ((List.take_prefix _ _).trans (List.takeWhile_prefix _))

theorem isDigit_of_mem_take {most : Nat} {cs : List Char} :
    ∀ c ∈ (cs.takeWhile isDigit).take most, isDigit c = true := fun _ hc =>
  List.all_eq_true.mp List.all_takeWhile _ (List.mem_of_mem_take hc)

theorem takeWhile_of_head {rest : List Char} (h : ∀ c ∈ rest.head?, isDigit c = false) :
    rest.takeWhile isDigit = [] := by
  cases rest with
  | nil => rfl
  | cons c rest => exact List.takeWhile_cons_of_neg (by simp [h c rfl])

/-- Digits in front are taken as far as they go, up to the limit. -/
theorem take_digits {most : Nat} {digits rest : List Char} (hall : ∀ c ∈ digits, isDigit c = true)
    (hmost : digits.length ≤ most)
    (hend : digits.length = most ∨ ∀ c ∈ rest.head?, isDigit c = false) :
    ((digits ++ rest).takeWhile isDigit).take most = digits := by
  rw [List.takeWhile_append_of_pos hall]
  rcases hend with rfl | hend
  · exact List.take_left
  · rw [takeWhile_of_head hend, List.append_nil, List.take_of_length_le hmost]

theorem takeNumber?_iff {most n : Nat} {cs rest : List Char} :
    takeNumber? most cs = some (n, rest) ↔ ∃ digits, cs = digits ++ rest ∧ Digits n digits ∧
      digits.length ≤ most ∧ (digits.length = most ∨ ∀ c ∈ rest.head?, isDigit c = false) := by
  unfold takeNumber?
  simp only
  constructor
  · intro h
    split at h
    next => cases h
    next hsome =>
      cases h
      refine ⟨_, (digits_append_drop most cs).symm,
        ⟨fun hnil => hsome (List.isEmpty_iff.mpr hnil), isDigit_of_mem_take, rfl⟩,
        List.length_take_le _ _, ?_⟩
      by_cases hmost : most ≤ (cs.takeWhile isDigit).length
      · exact .inl (List.length_take_of_le hmost)
      · right
        rw [List.take_of_length_le (by omega)]
        have hdrop : cs.drop (cs.takeWhile isDigit).length = cs.dropWhile isDigit := by
          have hcut := congrArg (List.drop (cs.takeWhile isDigit).length)
            (List.takeWhile_append_dropWhile (p := isDigit) (l := cs))
          rw [← hcut, List.drop_left]
        rw [hdrop]
        intro c hc
        have hnot := List.head?_dropWhile_not isDigit cs
        rw [hc] at hnot
        simpa using hnot
  · rintro ⟨digits, rfl, ⟨hne, hall, rfl⟩, hmost, hend⟩
    rw [take_digits hall hmost hend, List.drop_left]
    simp [hne]

theorem takeExactly?_iff {count n : Nat} {cs rest : List Char} :
    takeExactly? count cs = some (n, rest) ↔
      ∃ digits, cs = digits ++ rest ∧ WritesExactly count n digits := by
  unfold takeExactly?
  simp only
  constructor
  · intro h
    split at h
    next hcount =>
      cases h
      have hcut := digits_append_drop count cs
      rw [hcount] at hcut
      exact ⟨_, hcut.symm, hcount, isDigit_of_mem_take, rfl⟩
    next => cases h
  · rintro ⟨digits, rfl, rfl, hall, rfl⟩
    rw [take_digits hall (Nat.le_refl _) (.inl rfl), if_pos rfl, List.drop_left]

theorem trimStartChars_blanks {blanks : List Char} (hblanks : ∀ c ∈ blanks, isBlank c = true)
    (rest : List Char) : trimStartChars (blanks ++ rest) = trimStartChars rest :=
  List.dropWhile_append_of_pos hblanks

/-- Blanks in front of something else are what trimming leaves out. -/
theorem trimStartChars_append {blanks rest : List Char} (hblanks : ∀ c ∈ blanks, isBlank c = true)
    (hrest : ∀ c ∈ rest.head?, isBlank c = false) : trimStartChars (blanks ++ rest) = rest := by
  rw [trimStartChars_blanks hblanks, trimStartChars_of_head hrest]

theorem exists_blanks (cs : List Char) :
    ∃ blanks, cs = blanks ++ trimStartChars cs ∧ ∀ c ∈ blanks, isBlank c = true :=
  ⟨cs.takeWhile isBlank, List.takeWhile_append_dropWhile.symm,
    List.all_eq_true.mp List.all_takeWhile⟩

theorem Digits.head_isDigit {n : Nat} {digits rest : List Char} (h : Digits n digits) {c : Char}
    (hc : c ∈ (digits ++ rest).head?) : isDigit c = true := by
  cases digits with
  | nil => exact absurd rfl h.nonempty
  | cons first others =>
    cases hc
    exact h.digits c List.mem_cons_self

/-- A number that blanks may stand before. -/
theorem takeNumber?_trimStart_iff {most n : Nat} {cs rest : List Char} :
    takeNumber? most (trimStartChars cs) = some (n, rest) ↔ ∃ blanks digits,
      cs = blanks ++ digits ++ rest ∧ (∀ c ∈ blanks, isBlank c = true) ∧ Digits n digits ∧
        digits.length ≤ most ∧ (digits.length = most ∨ ∀ c ∈ rest.head?, isDigit c = false) := by
  constructor
  · intro h
    obtain ⟨digits, htrim, hdigits⟩ := (takeNumber?_iff).mp h
    obtain ⟨blanks, hcs, hblanks⟩ := exists_blanks cs
    refine ⟨blanks, digits, ?_, hblanks, hdigits⟩
    rw [List.append_assoc, ← htrim]
    exact hcs
  · rintro ⟨blanks, digits, rfl, hblanks, hdigits⟩
    rw [List.append_assoc, trimStartChars_append hblanks fun c hc =>
      isBlank_of_isDigit (hdigits.1.head_isDigit hc)]
    exact (takeNumber?_iff).mpr ⟨digits, rfl, hdigits⟩

/-- Whether a text ends in two digits, after which a short number is complete. -/
def EndsInTwo (cs : List Char) : Prop :=
  ∃ front a b, cs = front ++ [a, b] ∧ isDigit a = true ∧ isDigit b = true

/-- A short number is read as far as it goes. -/
theorem takeShort?_iff {n : Nat} {cs rest : List Char} :
    takeNumber? 2 (trimStartChars cs) = some (n, rest) ↔ ∃ piece, cs = piece ++ rest ∧
      WritesShort n piece ∧ (EndsInTwo piece ∨ ∀ c ∈ rest.head?, isDigit c = false) := by
  rw [takeNumber?_trimStart_iff]
  constructor
  · rintro ⟨blanks, digits, hcs, hblanks, hdigits, hmost, hend⟩
    refine ⟨_, hcs, .mk hblanks hdigits hmost, hend.imp_left fun htwo => ?_⟩
    obtain ⟨a, b, rfl⟩ : ∃ a b, digits = [a, b] := by
      match digits, htwo with
      | [a, b], _ => exact ⟨a, b, rfl⟩
    exact ⟨blanks, a, b, rfl, hdigits.digits a (by simp), hdigits.digits b (by simp)⟩
  · rintro ⟨_, hcs, @⟨blanks, digits, hblanks, hdigits, hmost⟩, hend⟩
    refine ⟨_, _, hcs, hblanks, hdigits, hmost, hend.imp_left fun htwo => ?_⟩
    obtain ⟨front, a, b, heq, ha, -⟩ := htwo
    match digits, hmost with
    | [], _ => exact absurd rfl hdigits.nonempty
    | [_], _ =>
      -- one digit alone follows a blank or nothing, no other digit
      have hlast := List.append_inj_left' (heq.trans (List.append_cons front a [b])) rfl
      have hblank := hblanks a (hlast ▸ List.mem_append_right front (List.mem_singleton_self a))
      rw [isBlank_of_isDigit ha] at hblank
      cases hblank
    | [_, _], _ => rfl

theorem WritesShort.take {n : Nat} {piece : List Char} (h : WritesShort n piece)
    (rest : List Char) (hend : EndsInTwo piece ∨ ∀ c ∈ rest.head?, isDigit c = false) :
    takeNumber? 2 (trimStartChars (piece ++ rest)) = some (n, rest) :=
  (takeShort?_iff).mpr ⟨piece, rfl, h, hend⟩

theorem takeLongNumber?_iff {n : Int} {cs rest : List Char}
    (hrest : ∀ c ∈ rest.head?, isDigit c = false) :
    takeLongNumber? cs = some (n, rest) ↔
      ∃ (k : Nat) (digits : List Char), n = k ∧ cs = digits ++ rest ∧ Digits k digits ∧
        n ≤ Bounds.int64Max := by
  unfold takeLongNumber?
  constructor
  · intro h
    obtain ⟨⟨k, tail⟩, hnumber, h⟩ := Option.bind_eq_some_iff.mp h
    simp only at h
    split at h
    next hlimit =>
      cases h
      obtain ⟨digits, hcs, hdigits, -⟩ := (takeNumber?_iff).mp hnumber
      exact ⟨k, digits, rfl, hcs, hdigits, hlimit⟩
    next => cases h
  · rintro ⟨k, digits, rfl, rfl, hdigits, hlimit⟩
    have hnumber : takeNumber? (digits ++ rest).length (digits ++ rest) = some (k, rest) :=
      (takeNumber?_iff).mpr ⟨digits, rfl, hdigits, by simp, .inr hrest⟩
    simp only [hnumber, bind, Option.bind, hlimit, if_true]

theorem head_cons {c : Char} (hc : isDigit c = false) (rest : List Char) :
    ∀ x ∈ (c :: rest).head?, isDigit x = false := by
  intro x hx
  cases hx
  exact hc

/-- A year with a hyphen behind it. -/
theorem takeYear?_iff {y : Int} {cs rest : List Char} :
    takeYear? (trimStartChars cs) = some (y, '-' :: rest) ↔
      (∃ piece, cs = piece ++ '-' :: rest ∧ WritesYear y piece) ∧ y.natAbs ≤ Bounds.int64Max := by
  have hhyphen := head_cons (c := '-') (by decide) rest
  constructor
  · intro h
    obtain ⟨blanks, hcs, hblanks⟩ := exists_blanks cs
    unfold takeYear? at h
    split at h
    next tail htrim =>
      obtain ⟨⟨n, after⟩, hnumber, heq⟩ := Option.map_eq_some_iff.mp h
      cases heq
      obtain ⟨k, digits, rfl, rfl, hdigits, hlimit⟩ := (takeLongNumber?_iff hhyphen).mp hnumber
      rw [htrim] at hcs
      exact ⟨⟨_, by rw [hcs, List.append_assoc, List.cons_append], .earlier hblanks hdigits⟩, by omega⟩
    next tail htrim =>
      obtain ⟨k, digits, rfl, rfl, hdigits, hlimit⟩ := (takeLongNumber?_iff hhyphen).mp h
      rw [htrim] at hcs
      exact ⟨⟨_, by rw [hcs, List.append_assoc, List.cons_append], .later hblanks hdigits⟩, by omega⟩
    next =>
      obtain ⟨⟨n, after⟩, hnumber, heq⟩ := Option.map_eq_some_iff.mp h
      cases heq
      obtain ⟨blanks, digits, hcs, hblanks, hdigits, hmost, -⟩ :=
        (takeNumber?_trimStart_iff).mp hnumber
      have hlt := natOfDigits_lt digits
      have hpow : 10 ^ digits.length ≤ 10 ^ 4 := Nat.pow_le_pow_right (by decide) hmost
      have hlimit : ((n : Int).natAbs : Int) ≤ Bounds.int64Max := by
        rw [hdigits.value] at hlt
        unfold Bounds.int64Max
        omega
      exact ⟨⟨_, hcs, .plain hblanks hdigits hmost⟩, hlimit⟩
  · rintro ⟨⟨piece, rfl, hyear⟩, hlimit⟩
    cases hyear with
    | plain hblanks hdigits hmost =>
      have hnumber := (takeNumber?_trimStart_iff).mpr
        ⟨_, _, rfl, hblanks, hdigits, hmost, .inr hhyphen⟩
      rw [List.append_assoc, trimStartChars_append hblanks fun c hc =>
        isBlank_of_isDigit (hdigits.head_isDigit hc)] at hnumber ⊢
      unfold takeYear?
      split
      next heq => exact absurd (hdigits.head_isDigit (by rw [heq]; rfl)) (by decide)
      next heq => exact absurd (hdigits.head_isDigit (by rw [heq]; rfl)) (by decide)
      next => rw [hnumber, Option.map_some]
    | later hblanks hdigits =>
      rw [List.append_assoc, trimStartChars_append hblanks (by simp; decide)]
      exact (takeLongNumber?_iff hhyphen).mpr ⟨_, _, rfl, rfl, hdigits, by omega⟩
    | earlier hblanks hdigits =>
      rw [List.append_assoc, trimStartChars_append hblanks (by simp; decide)]
      have hnumber := (takeLongNumber?_iff hhyphen).mpr ⟨_, _, rfl, rfl, hdigits, by omega⟩
      exact Option.map_eq_some_iff.mpr ⟨_, hnumber, rfl⟩

theorem WritesYear.take {y : Int} {piece : List Char} (h : WritesYear y piece)
    (hlimit : y.natAbs ≤ Bounds.int64Max) (rest : List Char) :
    takeYear? (trimStartChars (piece ++ '-' :: rest)) = some (y, '-' :: rest) :=
  (takeYear?_iff).mpr ⟨⟨piece, rfl, h⟩, hlimit⟩

/-! ## Reading dates -/

theorem takeFixed_iff {c : Char} {f f' : Fields} {cs rest : List Char} :
    takeItem? (.fixed c) f cs = some (f', rest) ↔ cs = c :: rest ∧ f' = f := by
  unfold takeItem?
  cases cs with
  | nil => simp
  | cons x tail =>
    simp only
    split
    next h => subst h; simp [eq_comm, and_comm]
    next h => simp [h]

/-- What a date in front is read as. -/
theorem takeDate?_iff {f : Fields} {cs rest : List Char} :
    takeItems? dateForm {} cs = some (f, rest) ↔ ∃ (y : Int) (m d : Nat) (year month day : List Char),
      cs = year ++ '-' :: (month ++ '-' :: day) ++ rest ∧ WritesYear y year ∧ WritesShort m month ∧
        WritesShort d day ∧ (EndsInTwo day ∨ ∀ c ∈ rest.head?, isDigit c = false) ∧
          y.natAbs ≤ Bounds.int64Max ∧ f = { year := y, month := m, day := d } := by
  unfold dateForm
  constructor
  · simp only [takeItems?, bind, Option.bind_eq_some_iff, Prod.exists, takeFixed_iff]
    rintro ⟨_, _, htakeYear, _, _, ⟨rfl, rfl⟩, _, _, htakeMonth, _, _, ⟨rfl, rfl⟩, _, _, htakeDay, h⟩
    cases h
    obtain ⟨⟨y, _⟩, htakeYear, heq⟩ := Option.map_eq_some_iff.mp htakeYear
    cases heq
    obtain ⟨⟨m, _⟩, htakeMonth, heq⟩ := Option.map_eq_some_iff.mp htakeMonth
    cases heq
    obtain ⟨⟨d, _⟩, htakeDay, heq⟩ := Option.map_eq_some_iff.mp htakeDay
    cases heq
    obtain ⟨⟨year, rfl, hyear⟩, hlimit⟩ := (takeYear?_iff).mp htakeYear
    obtain ⟨month, rfl, hmonth, -⟩ := (takeShort?_iff).mp htakeMonth
    obtain ⟨day, rfl, hday, hend⟩ := (takeShort?_iff).mp htakeDay
    exact ⟨y, m, d, year, month, day, by simp, hyear, hmonth, hday, hend, hlimit, rfl⟩
  · rintro ⟨y, m, d, year, month, day, rfl, hyear, hmonth, hday, hend, hlimit, rfl⟩
    have htakeYear := hyear.take hlimit (month ++ '-' :: (day ++ rest))
    have htakeMonth := hmonth.take ('-' :: (day ++ rest)) (.inr (head_cons (by decide) _))
    have htakeDay := hday.take rest hend
    rw [List.append_assoc, List.cons_append, List.append_assoc, List.cons_append]
    simp only [takeItems?, takeItem?, htakeYear, htakeMonth, htakeDay, Option.map_some, bind,
      Option.bind, if_true]

theorem WritesShort.nonempty {n : Nat} {cs : List Char} (h : WritesShort n cs) : cs ≠ [] := by
  cases h with
  | mk _ hdigits _ => exact List.append_ne_nil_of_right_ne_nil _ hdigits.nonempty

/-- A day behind a hyphen ends in two digits when the date does. -/
theorem endsInTwo_of_date {d : Nat} {before day front : List Char} {a b : Char}
    (hday : WritesShort d day) (ha : isDigit a = true) (hb : isDigit b = true)
    (h : before ++ '-' :: day = front ++ [a, b]) : EndsInTwo day := by
  rw [List.append_cons] at h
  rcases List.append_eq_append_iff.mp h with ⟨others, -, rfl⟩ | ⟨others, hbefore, hdigits⟩
  · exact ⟨others, a, b, rfl, ha, hb⟩
  · match others, hdigits with
    | [], hdigits => exact ⟨[], a, b, hdigits.symm, ha, hb⟩
    | [x], hdigits =>
      cases (List.cons.inj hdigits).1
      cases (List.append_inj' hbefore rfl).2
      cases ha
    | [x, y], hdigits =>
      cases hdigits
      exact absurd rfl hday.nonempty
    | x :: y :: z :: others, hdigits => simp at hdigits

/-- A date in front is read as what it is written like, given that it is complete. -/
theorem WritesDate.take {date : Date} {front : List Char} (h : WritesDate date front)
    (rest : List Char)
    (hend : EndsInTwo front ∨ ∀ c ∈ rest.head?, isDigit c = false) :
    ∃ (y : Int) (m d : Nat), Date.ofFields? y m d = some date ∧
      takeItems? dateForm {} (front ++ rest) = some ({ year := y, month := m, day := d }, rest) := by
  obtain ⟨hyear, hmonth, hday, hdate⟩ := h
  obtain ⟨⟨hlow, hhigh⟩, -, -⟩ := Date.ofFields?_year hdate
  refine ⟨_, _, _, hdate, (takeDate?_iff).mpr ⟨_, _, _, _, _, _, rfl, hyear, hmonth, hday,
    hend.imp_left ?_, ?_, rfl⟩⟩
  · rintro ⟨before, a, b, heq, ha, hb⟩
    rw [← List.cons_append, ← List.append_assoc] at heq
    exact endsInTwo_of_date hday ha hb heq
  · unfold Date.minYear at hlow
    unfold Date.maxYear at hhigh
    unfold Bounds.int64Max
    omega

theorem readForm?_iff {items : List Item} {f : Fields} {cs : List Char} :
    readForm? items cs = some f ↔ takeItems? items {} cs = some (f, []) := by
  unfold readForm?
  split
  next f' h => simp [h]
  next h => exact iff_of_false (fun h' => nomatch h') (h f)

/-- A text is read as a date exactly when it is written like it. -/
theorem readWholeDate?_iff {date : Date} {cs : List Char} :
    readWholeDate? cs = some date ↔ WritesDate date cs := by
  unfold readWholeDate?
  rw [Option.bind_eq_some_iff]
  constructor
  · rintro ⟨f, hform, hdate⟩
    obtain ⟨y, m, d, year, month, day, rfl, hyear, hmonth, hday, -, -, rfl⟩ :=
      (takeDate?_iff).mp (readForm?_iff.mp hform)
    rw [List.append_nil]
    exact .mk hyear hmonth hday hdate
  · intro h
    obtain ⟨y, m, d, hdate, htake⟩ := h.take [] (.inr (by simp))
    rw [List.append_nil] at htake
    exact ⟨_, (readForm?_iff).mpr htake, hdate⟩

end Winnow.Calendar
