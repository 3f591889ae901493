import Winnow.Proofs.Calendar.Written

/-!
# Dates with a time of day

A date with a time of day is tried in four forms, with blanks or a `T` between
the two and with seconds or without.  A text is read by one of them at most
(`readForm?_unique`), and so exactly what is written like a clock reading is read
as one (`readClockReading?_iff`).
-/

namespace Winnow.Calendar

open Text

/-! ## Reading times of day -/

theorem takeMinute?_iff {f f' : Fields} {cs rest : List Char} :
    takeItems? minuteForm f cs = some (f', rest) ↔ ∃ (h m : Nat) (hour minute : List Char),
      cs = hour ++ ':' :: minute ++ rest ∧ WritesShort h hour ∧ WritesShort m minute ∧
        (EndsInTwo minute ∨ ∀ c ∈ rest.head?, isDigit c = false) ∧
          f' = { f with hour := h, minute := m } := by
  unfold minuteForm
  constructor
  · simp only [takeItems?, bind, Option.bind_eq_some_iff, Prod.exists, takeFixed_iff]
    rintro ⟨_, _, htakeHour, _, _, ⟨rfl, rfl⟩, _, _, htakeMinute, h⟩
    cases h
    obtain ⟨⟨h, _⟩, htakeHour, heq⟩ := Option.map_eq_some_iff.mp htakeHour
    cases heq
    obtain ⟨⟨m, _⟩, htakeMinute, heq⟩ := Option.map_eq_some_iff.mp htakeMinute
    cases heq
    obtain ⟨hour, rfl, hhour, -⟩ := (takeShort?_iff).mp htakeHour
    obtain ⟨minute, rfl, hminute, hend⟩ := (takeShort?_iff).mp htakeMinute
    exact ⟨h, m, hour, minute, by simp, hhour, hminute, hend, rfl⟩
  · rintro ⟨h, m, hour, minute, rfl, hhour, hminute, hend, rfl⟩
    have htakeHour := hhour.take (':' :: (minute ++ rest)) (.inr (head_cons (by decide) _))
    have htakeMinute := hminute.take rest hend
    rw [List.append_assoc, List.cons_append]
    simp only [takeItems?, takeItem?, htakeHour, htakeMinute, Option.map_some, bind, Option.bind,
      if_true]

/-- What a time of day with seconds is read as. -/
theorem takeSecond?_iff {f f' : Fields} {cs : List Char} :
    takeItems? secondForm f cs = some (f', []) ↔
      ∃ (h m s : Nat) (hour minute second : List Char),
        cs = hour ++ ':' :: (minute ++ ':' :: second) ∧ WritesShort h hour ∧ WritesShort m minute ∧
          WritesShort s second ∧ f' = { f with hour := h, minute := m, second := s } := by
  unfold secondForm
  rw [takeItems?_append, Option.bind_eq_some_iff]
  constructor
  · simp only [takeItems?, bind, Option.bind_eq_some_iff, Prod.exists, takeFixed_iff, takeMinute?_iff]
    rintro ⟨_, _, ⟨h, m, hour, minute, rfl, hhour, hminute, -, rfl⟩, _, _, ⟨rfl, rfl⟩, _, _,
      htakeSecond, heq⟩
    cases heq
    obtain ⟨⟨s, _⟩, htakeSecond, heq⟩ := Option.map_eq_some_iff.mp htakeSecond
    cases heq
    obtain ⟨second, rfl, hsecond, -⟩ := (takeShort?_iff).mp htakeSecond
    exact ⟨h, m, s, hour, minute, second, by simp, hhour, hminute, hsecond, rfl⟩
  · rintro ⟨h, m, s, hour, minute, second, rfl, hhour, hminute, hsecond, rfl⟩
    have htakeSecond := hsecond.take [] (.inr (by simp))
    rw [List.append_nil] at htakeSecond
    have htakeMinute : takeItems? minuteForm f (hour ++ ':' :: (minute ++ ':' :: second)) =
        some ({ f with hour := h, minute := m }, ':' :: second) :=
      (takeMinute?_iff).mpr ⟨h, m, hour, minute, by simp, hhour, hminute,
        .inr (head_cons (by decide) _), rfl⟩
    refine ⟨_, htakeMinute, ?_⟩
    simp only [takeItems?, takeItem?, htakeSecond, Option.map_some, bind, Option.bind, if_true]

/-- A time of day is read, with seconds or without, as what it is written like. -/
theorem takeClock?_iff {y : Int} {m d : Nat} {t : Instant} {cs : List Char} :
    (∃ items f, (items = secondForm ∨ items = minuteForm) ∧
      takeItems? items { year := y, month := m, day := d } cs = some (f, []) ∧ f.instant? = some t) ↔
        ∃ date clock, Date.ofFields? y m d = some date ∧ WritesClock clock cs ∧
          t = .ofDateClock date clock := by
  have hinstant : ∀ {f : Fields}, f.instant? = some t ↔ ∃ date clock, f.date? = some date ∧
      f.clock? = some clock ∧ t = .ofDateClock date clock := by
    intro f
    unfold Fields.instant?
    simp only [bind, Option.bind_eq_some_iff, Option.some.injEq]
    constructor
    · rintro ⟨date, hdate, clock, hclock, rfl⟩
      exact ⟨date, clock, hdate, hclock, rfl⟩
    · rintro ⟨date, clock, hdate, hclock, rfl⟩
      exact ⟨date, hdate, clock, hclock, rfl⟩
  constructor
  · rintro ⟨items, f, rfl | rfl, htake, hread⟩
    · obtain ⟨h, mi, s, hour, minute, second, rfl, hhour, hminute, hsecond, rfl⟩ :=
        (takeSecond?_iff).mp htake
      obtain ⟨date, clock, hdate, hclock, rfl⟩ := hinstant.mp hread
      exact ⟨date, clock, hdate, .second hhour hminute hsecond hclock, rfl⟩
    · obtain ⟨h, mi, hour, minute, rfl, hhour, hminute, -, rfl⟩ := (takeMinute?_iff).mp htake
      obtain ⟨date, clock, hdate, hclock, rfl⟩ := hinstant.mp hread
      rw [List.append_nil]
      exact ⟨date, clock, hdate, .minute hhour hminute hclock, rfl⟩
  · rintro ⟨date, clock, hdate, hwritten, rfl⟩
    cases hwritten with
    | minute hhour hminute hclock =>
      exact ⟨minuteForm, _, .inr rfl, (takeMinute?_iff).mpr ⟨_, _, _, _, (List.append_nil _).symm,
        hhour, hminute, .inr (by simp), rfl⟩, hinstant.mpr ⟨date, clock, hdate, hclock, rfl⟩⟩
    | second hhour hminute hsecond hclock =>
      exact ⟨secondForm, _, .inl rfl, (takeSecond?_iff).mpr ⟨_, _, _, _, _, _, rfl, hhour, hminute,
        hsecond, rfl⟩, hinstant.mpr ⟨date, clock, hdate, hclock, rfl⟩⟩

/-! ## Reading dates with a time of day -/

/-- The forms of clock readings are a date, a separator and a time of day. -/
theorem mem_clockReadingForms {form : List Item} :
    form ∈ clockReadingForms ↔ ∃ separator items,
      (separator = .blanks ∨ separator = .fixed 'T') ∧ (items = secondForm ∨ items = minuteForm) ∧
        form = dateForm ++ (separator :: items) := by
  constructor
  · intro h
    simp only [clockReadingForms, List.append_assoc, List.mem_cons, List.not_mem_nil, or_false] at h
    rcases h with rfl | rfl | rfl | rfl
    · exact ⟨_, _, .inl rfl, .inl rfl, rfl⟩
    · exact ⟨_, _, .inr rfl, .inl rfl, rfl⟩
    · exact ⟨_, _, .inl rfl, .inr rfl, rfl⟩
    · exact ⟨_, _, .inr rfl, .inr rfl, rfl⟩
  · rintro ⟨separator, items, rfl | rfl, rfl | rfl, rfl⟩ <;> simp [clockReadingForms]

/-- A form of a clock reading reads the date, then the separator and the time of day. -/
theorem readForm?_reading_iff {separator : Item} {items : List Item} {f : Fields} {cs : List Char} :
    readForm? (dateForm ++ separator :: items) cs = some f ↔
      ∃ front rest, takeItems? dateForm {} cs = some (front, rest) ∧
        ∃ between tail, takeItem? separator front rest = some (between, tail) ∧
          takeItems? items between tail = some (f, []) := by
  rw [readForm?_iff, takeItems?_append]
  simp only [takeItems?, bind, Option.bind_eq_some_iff, Prod.exists]

/-- No time of day starts with a letter. -/
theorem takeItems?_letter {items : List Item} (hitems : items = secondForm ∨ items = minuteForm)
    (f : Fields) (tail : List Char) : takeItems? items f ('T' :: tail) = none := by
  have htrim : trimStartChars ('T' :: tail) = 'T' :: tail :=
    trimStartChars_of_head (by simp; decide)
  have hnumber : takeNumber? 2 ('T' :: tail) = none := by
    unfold takeNumber?
    rw [List.takeWhile_cons_of_neg (by decide)]
    rfl
  rcases hitems with rfl | rfl <;>
    simp [secondForm, minuteForm, takeItems?, takeItem?, htrim, hnumber]

/-- What is between the date and the time of day: the letter, or blanks and then no letter. -/
theorem takeSeparator?_cases {separator : Item} {items : List Item} {f between last : Fields}
    {rest tail : List Char} (hseparator : separator = .blanks ∨ separator = .fixed 'T')
    (hitems : items = secondForm ∨ items = minuteForm)
    (hbetween : takeItem? separator f rest = some (between, tail))
    (htake : takeItems? items between tail = some (last, [])) :
    between = f ∧ (rest = 'T' :: tail ∨ tail = trimStartChars rest ∧ ∀ other, rest ≠ 'T' :: other) := by
  rcases hseparator with rfl | rfl
  · cases hbetween
    refine ⟨rfl, .inr ⟨rfl, ?_⟩⟩
    rintro other rfl
    rw [trimStartChars_of_head (by simp; decide), takeItems?_letter hitems] at htake
    cases htake
  · obtain ⟨rfl, rfl⟩ := (takeFixed_iff).mp hbetween
    exact ⟨rfl, .inl rfl⟩

/-- A time of day is read with seconds or without, not both. -/
theorem takeClock?_unique {items items' : List Item} (hitems : items = secondForm ∨ items = minuteForm)
    (hitems' : items' = secondForm ∨ items' = minuteForm) {f last last' : Fields} {cs : List Char}
    (h : takeItems? items f cs = some (last, [])) (h' : takeItems? items' f cs = some (last', [])) :
    last = last' := by
  have hlonger : ∀ {last : Fields}, takeItems? minuteForm f cs = some (last, []) →
      takeItems? secondForm f cs = none := by
    intro last h
    unfold secondForm
    rw [takeItems?_append, h]
    rfl
  rcases hitems with rfl | rfl <;> rcases hitems' with rfl | rfl
  · cases h.symm.trans h'
    rfl
  · cases (hlonger h').symm.trans h
  · cases (hlonger h).symm.trans h'
  · cases h.symm.trans h'
    rfl

/-- A text is read by one form of clock readings at most. -/
theorem readForm?_unique {form form' : List Item} (hform : form ∈ clockReadingForms)
    (hform' : form' ∈ clockReadingForms) {f f' : Fields} {cs : List Char}
    (h : readForm? form cs = some f) (h' : readForm? form' cs = some f') : f = f' := by
  obtain ⟨separator, items, hseparator, hitems, rfl⟩ := mem_clockReadingForms.mp hform
  obtain ⟨separator', items', hseparator', hitems', rfl⟩ := mem_clockReadingForms.mp hform'
  obtain ⟨front, rest, hdate, between, tail, hbetween, htake⟩ := (readForm?_reading_iff).mp h
  obtain ⟨front', rest', hdate', between', tail', hbetween', htake'⟩ := (readForm?_reading_iff).mp h'
  cases hdate.symm.trans hdate'
  obtain ⟨rfl, hrest⟩ := takeSeparator?_cases hseparator hitems hbetween htake
  obtain ⟨rfl, hrest'⟩ := takeSeparator?_cases hseparator' hitems' hbetween' htake'
  have htail : tail = tail' := by
    rcases hrest with rfl | ⟨rfl, hletter⟩ <;> rcases hrest' with hrest' | ⟨rfl, hletter'⟩
    · exact (List.cons.inj hrest').2
    · exact absurd rfl (hletter' tail)
    · exact absurd hrest' (hletter tail')
    · rfl
  subst htail
  exact takeClock?_unique hitems hitems' htake htake'

/-- Without the blanks before it a short number starts with a digit. -/
theorem WritesShort.trimStart {n : Nat} {piece : List Char} (h : WritesShort n piece)
    (rest : List Char) : ∃ c tail, trimStartChars (piece ++ rest) = c :: (tail ++ rest) ∧
      isDigit c = true ∧ WritesShort n (c :: tail) := by
  obtain @⟨blanks, digits, hblanks, hdigits, hmost⟩ := h
  cases digits with
  | nil => exact absurd rfl hdigits.nonempty
  | cons c tail =>
    have hc := hdigits.digits c List.mem_cons_self
    have hhead : ∀ x ∈ (c :: (tail ++ rest)).head?, isBlank x = false := by
      intro x hx
      cases hx
      exact isBlank_of_isDigit hc
    refine ⟨c, tail, ?_, hc, .mk (List.forall_mem_nil _) hdigits hmost⟩
    rw [List.append_assoc]
    exact trimStartChars_append hblanks hhead

theorem WritesClock.trimStart {clock : Clock} {cs : List Char} (h : WritesClock clock cs) :
    ∃ c tail, trimStartChars cs = c :: tail ∧ isDigit c = true ∧ WritesClock clock (c :: tail) := by
  cases h with
  | @minute _ _ _ minute hhour hminute hclock =>
    obtain ⟨c, tail, htrim, hc, hhour⟩ := hhour.trimStart (':' :: minute)
    exact ⟨c, _, htrim, hc, .minute hhour hminute hclock⟩
  | @second _ _ _ _ minute second hhour hminute hsecond hclock =>
    obtain ⟨c, tail, htrim, hc, hhour⟩ := hhour.trimStart (':' :: (minute ++ ':' :: second))
    exact ⟨c, _, htrim, hc, .second hhour hminute hsecond hclock⟩

/-- A complete date, a separator and a time of day are read by one of the forms. -/
theorem readForm?_of_writes {date : Date} {clock : Clock} {front rest tail : List Char}
    {separator : Item} (hdate : WritesDate date front)
    (hend : EndsInTwo front ∨ ∀ c ∈ rest.head?, isDigit c = false)
    (hseparator : separator = .blanks ∨ separator = .fixed 'T')
    (hbetween : ∀ f, takeItem? separator f rest = some (f, tail)) (hclock : WritesClock clock tail) :
    ∃ form ∈ clockReadingForms, ∃ f, readForm? form (front ++ rest) = some f ∧
      f.instant? = some (.ofDateClock date clock) := by
  obtain ⟨y, m, d, hfields, htake⟩ := hdate.take rest hend
  obtain ⟨items, f, hitems, htakeClock, hinstant⟩ :=
    (takeClock?_iff).mpr ⟨date, clock, hfields, hclock, rfl⟩
  exact ⟨_, mem_clockReadingForms.mpr ⟨_, _, hseparator, hitems, rfl⟩, f,
    (readForm?_reading_iff).mpr ⟨_, _, htake, _, _, hbetween _, htakeClock⟩, hinstant⟩

/-- A text is read as a clock reading when one of the forms reads it, whichever comes first. -/
theorem readClockReading?_eq_some_iff {s : String} {t : Instant} :
    readClockReading? s = some t ↔ ∃ form ∈ clockReadingForms, ∃ f,
      readForm? form (trimChars s.toList) = some f ∧ f.instant? = some t := by
  unfold readClockReading?
  constructor
  · intro h
    obtain ⟨form, hform, hbind⟩ := List.exists_of_findSome?_eq_some h
    obtain ⟨f, hread, hinstant⟩ := Option.bind_eq_some_iff.mp hbind
    exact ⟨form, hform, f, hread, hinstant⟩
  · rintro ⟨form, hform, f, hread, hinstant⟩
    have hfound : (clockReadingForms.findSome? fun form =>
        (readForm? form (trimChars s.toList)).bind Fields.instant?).isSome = true :=
      List.findSome?_isSome_iff.mpr
        ⟨form, hform, by rw [hread, Option.bind_some, hinstant]; rfl⟩
    obtain ⟨t', ht'⟩ := Option.isSome_iff_exists.mp hfound
    obtain ⟨form', hform', hbind⟩ := List.exists_of_findSome?_eq_some ht'
    obtain ⟨f', hread', hinstant'⟩ := Option.bind_eq_some_iff.mp hbind
    cases readForm?_unique hform hform' hread hread'
    exact ht'.trans (hinstant'.symm.trans hinstant)

/-- What a form of a clock reading reads is written like one. -/
theorem writesReading_of_readForm? {form : List Item} {f : Fields} {t : Instant} {cs : List Char}
    (hform : form ∈ clockReadingForms) (hread : readForm? form cs = some f)
    (hinstant : f.instant? = some t) : WritesReading t cs := by
  obtain ⟨separator, items, hseparator, hitems, rfl⟩ := (mem_clockReadingForms).mp hform
  obtain ⟨front, rest, hdate, between, tail, hbetween, htake⟩ := (readForm?_reading_iff).mp hread
  obtain ⟨rfl, hrest⟩ := takeSeparator?_cases hseparator hitems hbetween htake
  obtain ⟨y, m, d, year, month, day, rfl, hyear, hmonth, hday, hend, -, rfl⟩ :=
    (takeDate?_iff).mp hdate
  obtain ⟨date, clock, hfields, hclock, rfl⟩ :=
    (takeClock?_iff).mp ⟨items, f, hitems, htake, hinstant⟩
  have hwritten := WritesDate.mk hyear hmonth hday hfields
  rcases hrest with rfl | ⟨rfl, -⟩
  · exact .lettered hwritten hclock
  obtain ⟨blanks, hblanks, hall⟩ := exists_blanks rest
  by_cases hnil : blanks = []
  · -- nothing is between them: the time of day starts with a digit, so the day has two
    rw [hnil, List.nil_append] at hblanks
    obtain ⟨c, others, htrim, hc, -⟩ := hclock.trimStart
    rw [← hblanks] at hclock htrim
    have hnot : ¬∀ x ∈ rest.head?, isDigit x = false := by
      intro hdigit
      rw [hblanks, htrim] at hdigit
      cases hc.symm.trans (hdigit c rfl)
    obtain ⟨before, a, b, rfl, ha, hb⟩ := hend.resolve_right hnot
    have hcs : year ++ '-' :: (month ++ '-' :: (before ++ [a, b])) =
        year ++ '-' :: (month ++ '-' :: before) ++ [a, b] := by simp
    rw [hcs] at hwritten ⊢
    rw [List.append_assoc]
    exact .adjacent hwritten ha hb hclock
  · rw [hblanks]
    exact .spaced hwritten hnil hall hclock

/-- What is written like a clock reading is read by one of the forms. -/
theorem WritesReading.readForm? {t : Instant} {cs : List Char} (h : WritesReading t cs) :
    ∃ form ∈ clockReadingForms, ∃ f, readForm? form cs = some f ∧ f.instant? = some t := by
  cases h with
  | @spaced date clock front blanks back hdate hnil hall hclock =>
    obtain ⟨c, tail, htrim, hc, hclock⟩ := hclock.trimStart
    refine readForm?_of_writes hdate (.inr fun x hx => ?_) (.inl rfl) (fun f => ?_) hclock
    · obtain ⟨first, others, rfl⟩ := List.exists_cons_of_ne_nil hnil
      cases hx
      cases hdigit : isDigit x with
      | false => rfl
      | true => cases (isBlank_of_isDigit hdigit).symm.trans (hall x List.mem_cons_self)
    · show some (f, trimStartChars (blanks ++ back)) = _
      rw [trimStartChars_blanks hall, htrim]
  | lettered hdate hclock =>
    exact readForm?_of_writes hdate (.inr (head_cons (by decide) _)) (.inr rfl)
      (fun _ => (takeFixed_iff).mpr ⟨rfl, rfl⟩) hclock
  | @adjacent date clock front back a b hdate ha hb hclock =>
    obtain ⟨c, tail, htrim, hc, hclock⟩ := hclock.trimStart
    have h := readForm?_of_writes hdate (.inl ⟨front, a, b, rfl, ha, hb⟩) (.inl rfl)
      (fun f => show some (f, trimStartChars back) = _ by rw [htrim]) hclock
    rwa [List.append_assoc] at h

/-- A text is read as a clock reading exactly when it is written like it. -/
theorem readClockReading?_iff {s : String} {t : Instant} :
    readClockReading? s = some t ↔ WritesReading t (trimChars s.toList) := by
  rw [readClockReading?_eq_some_iff]
  constructor
  · rintro ⟨form, hform, f, hread, hinstant⟩
    exact writesReading_of_readForm? hform hread hinstant
  · exact WritesReading.readForm?

end Winnow.Calendar
