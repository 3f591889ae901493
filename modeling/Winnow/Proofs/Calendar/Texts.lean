import Winnow.Proofs.Calendar.ClockReadings

/-!
# Dates and instants in texts

The interchange form has fixed numbers of digits, so that it is read exactly
where it is written (`readStrict?_iff`), and no text is written like it and like
a clock reading or a date (`WritesReading.not_interchange`).

A text is read as the date or the instant that it writes.  A text that writes
none is still read as a date when its first ten bytes are one, whatever follows
them (`readDate?_iff`, `readInstant?_iff`).
-/

namespace Winnow.Calendar

open Text

/-! ## Reading the interchange form -/

theorem takeFixed?_iff {c : Char} {cs rest : List Char} :
    takeFixed? c cs = some rest ↔ cs = c :: rest := by
  cases cs with
  | nil => simp [takeFixed?]
  | cons x tail =>
    unfold takeFixed?
    split
    next h => simp [h]
    next h => simp [h]

theorem takeSeparator?_iff {cs rest : List Char} :
    takeSeparator? cs = some rest ↔ ∃ c, (c = 't' ∨ c = 'T' ∨ c = ' ') ∧ cs = c :: rest := by
  constructor
  · intro h
    cases cs with
    | nil => cases h
    | cons x tail =>
      simp only [takeSeparator?] at h
      split at h
      next hx =>
        cases h
        exact ⟨x, hx, rfl⟩
      next => cases h
  · rintro ⟨c, hc, rfl⟩
    exact if_pos hc

section
variable {α : Type} {cs : List Char} {a : α}

theorem takeExactly?_bind_iff {count : Nat} {f : Nat × List Char → Option α} :
    (takeExactly? count cs >>= f) = some a ↔ ∃ n digits rest,
      cs = digits ++ rest ∧ WritesExactly count n digits ∧ f (n, rest) = some a := by
  simp only [bind, Option.bind_eq_some_iff, Prod.exists, takeExactly?_iff]
  constructor
  · rintro ⟨n, rest, ⟨digits, hcs, hdigits⟩, h⟩
    exact ⟨n, digits, rest, hcs, hdigits, h⟩
  · rintro ⟨n, digits, rest, hcs, hdigits, h⟩
    exact ⟨n, rest, ⟨digits, hcs, hdigits⟩, h⟩

theorem takeFixed?_bind_iff {c : Char} {f : List Char → Option α} :
    (takeFixed? c cs >>= f) = some a ↔ ∃ rest, cs = c :: rest ∧ f rest = some a := by
  simp only [bind, Option.bind_eq_some_iff, takeFixed?_iff]

theorem takeSeparator?_bind_iff {f : List Char → Option α} :
    (takeSeparator? cs >>= f) = some a ↔
      ∃ c rest, cs = c :: rest ∧ (c = 't' ∨ c = 'T' ∨ c = ' ') ∧ f rest = some a := by
  simp only [bind, Option.bind_eq_some_iff, takeSeparator?_iff]
  constructor
  · rintro ⟨rest, ⟨c, hc, hcs⟩, h⟩
    exact ⟨c, rest, hcs, hc, h⟩
  · rintro ⟨c, rest, hcs, hc, h⟩
    exact ⟨rest, ⟨c, hc, hcs⟩, h⟩

end

theorem WritesExactly.take {count n : Nat} {digits : List Char} (h : WritesExactly count n digits)
    (rest : List Char) : takeExactly? count (digits ++ rest) = some (n, rest) :=
  (takeExactly?_iff).mpr ⟨digits, rfl, h⟩

/-- The fraction of a second is read as far as its digits go. -/
theorem takeFraction?_iff {n : Nat} {cs rest : List Char}
    (hrest : ∀ c ∈ rest.head?, isDigit c = false ∧ c ≠ '.') :
    takeFraction? cs = some (n, rest) ↔
      ∃ fraction, cs = fraction ++ rest ∧ WritesFraction n fraction := by
  constructor
  · intro h
    unfold takeFraction? at h
    split at h
    next tail =>
      obtain ⟨⟨k, after⟩, hnumber, h⟩ := Option.bind_eq_some_iff.mp h
      unfold takeNumber? at hnumber
      simp only at hnumber
      split at hnumber
      next => cases hnumber
      next hsome =>
        cases hnumber
        cases h
        have hdigits := digits_append_drop tail.length tail
        rw [List.take_of_length_le (List.takeWhile_sublist _).length_le] at hdigits
        refine ⟨'.' :: tail.takeWhile isDigit, by rw [List.cons_append, hdigits], .digits ?_ ?_ rfl⟩
        · intro hnil
          rw [hnil] at hsome
          exact hsome rfl
        · exact List.all_eq_true.mp List.all_takeWhile
    next =>
      cases h
      exact ⟨[], rfl, .whole⟩
  · rintro ⟨fraction, rfl, h⟩
    cases h with
    | whole =>
      unfold takeFraction?
      split
      next heq => exact absurd rfl (hrest '.' (by rw [← List.nil_append rest, heq]; rfl)).2
      next => rfl
    | @digits k digits hne hall hvalue =>
      have hwhile : (digits ++ rest).takeWhile isDigit = digits := by
        rw [List.takeWhile_append_of_pos hall, takeWhile_of_head fun c hc => (hrest c hc).1,
          List.append_nil]
      have htake : (digits.take 9).isEmpty = false := by
        cases digits with
        | nil => exact absurd rfl hne
        | cons c others => rfl
      unfold takeFraction? takeNumber?
      simp only [List.cons_append, hwhile, htake, Bool.false_eq_true, if_false, bind, Option.bind,
        List.drop_left, hvalue]

/-- What an offset starts with. -/
theorem WritesOffset.head {o : Int} {cs : List Char} (h : WritesOffset o cs) :
    ∀ c ∈ cs.head?, isDigit c = false ∧ c ≠ '.' := by
  intro c hc
  cases h with
  | utc h =>
    cases hc
    rcases h with rfl | rfl <;> decide
  | ahead =>
    cases hc
    decide
  | behind h =>
    cases hc
    rcases h with rfl | h
    · decide
    · constructor
      · rw [← Bool.not_eq_true, isDigit_iff]
        omega
      · rintro rfl
        cases h

/-- An offset is read as what it is written like. -/
theorem takeOffset?_iff {o : Int} {cs : List Char} :
    takeOffset? (takeFixed? ':') cs = some (o, []) ↔ WritesOffset o cs := by
  constructor
  · intro h
    cases cs with
    | nil => cases h
    | cons c tail =>
      simp only [takeOffset?] at h
      split at h
      next hutc =>
        cases h
        exact .utc hutc
      next =>
        split at h
        next hsign =>
          obtain ⟨hh, hours, _, rfl, hhours, h⟩ := (takeExactly?_bind_iff).mp h
          obtain ⟨_, rfl, h⟩ := (takeFixed?_bind_iff).mp h
          obtain ⟨m, minutes, _, rfl, hminutes, h⟩ := (takeExactly?_bind_iff).mp h
          dsimp only at h
          split at h
          next => cases h
          next hm =>
            cases h
            rw [List.append_nil]
            split
            next hplus =>
              subst hplus
              exact .ahead hhours hminutes (Nat.not_lt.mp hm)
            next hplus =>
              exact .behind (hsign.resolve_left hplus) hhours hminutes (Nat.not_lt.mp hm)
        next => cases h
  · intro h
    cases h with
    | utc h => exact if_pos h
    | @ahead _ m _ minutes hhours hminutes hm =>
      have htake := hminutes.take []
      rw [List.append_nil] at htake
      simp [takeOffset?, hhours.take, takeFixed?, htake, Nat.not_lt.mpr hm]
    | @behind c _ m _ minutes hc hhours hminutes hm =>
      have htake := hminutes.take []
      rw [List.append_nil] at htake
      have hother : ¬(c = 'Z' ∨ c = 'z') ∧ c ≠ '+' := by
        rcases hc with rfl | hc
        · decide
        · constructor
          · rintro (rfl | rfl) <;> cases hc
          · rintro rfl
            cases hc
      simp [takeOffset?, hother, hc, hhours.take, takeFixed?, htake, Nat.not_lt.mpr hm]

/-- A text is read as the interchange form exactly when it is written like it. -/
theorem readStrict?_iff {cs : List Char} {t : Instant} :
    readStrict? cs = some t ↔ WritesInterchange t cs := by
  constructor
  · intro h
    unfold readStrict? at h
    obtain ⟨y, year, _, rfl, hyear, h⟩ := (takeExactly?_bind_iff).mp h
    obtain ⟨_, rfl, h⟩ := (takeFixed?_bind_iff).mp h
    obtain ⟨mo, month, _, rfl, hmonth, h⟩ := (takeExactly?_bind_iff).mp h
    obtain ⟨_, rfl, h⟩ := (takeFixed?_bind_iff).mp h
    obtain ⟨d, day, _, rfl, hday, h⟩ := (takeExactly?_bind_iff).mp h
    obtain ⟨c, _, rfl, hc, h⟩ := (takeSeparator?_bind_iff).mp h
    obtain ⟨hh, hour, _, rfl, hhour, h⟩ := (takeExactly?_bind_iff).mp h
    obtain ⟨_, rfl, h⟩ := (takeFixed?_bind_iff).mp h
    obtain ⟨mi, minute, _, rfl, hminute, h⟩ := (takeExactly?_bind_iff).mp h
    obtain ⟨_, rfl, h⟩ := (takeFixed?_bind_iff).mp h
    obtain ⟨s, second, tail, rfl, hsecond, h⟩ := (takeExactly?_bind_iff).mp h
    obtain ⟨⟨n, after⟩, htakeFraction, h⟩ := Option.bind_eq_some_iff.mp h
    obtain ⟨⟨o, last⟩, htakeOffset, hinstant⟩ := Option.bind_eq_some_iff.mp h
    cases last with
    | cons x others => cases hinstant
    | nil =>
      have hoffset := (takeOffset?_iff).mp htakeOffset
      obtain ⟨fraction, rfl, hfraction⟩ := (takeFraction?_iff hoffset.head).mp htakeFraction
      exact .mk hyear hmonth hday hc hhour hminute hsecond hfraction hoffset hinstant
  · rintro ⟨hyear, hmonth, hday, hc, hhour, hminute, hsecond, hfraction, hoffset, ht⟩
    have htakeFraction := (takeFraction?_iff hoffset.head).mpr ⟨_, rfl, hfraction⟩
    have htakeOffset := (takeOffset?_iff).mpr hoffset
    unfold readStrict?
    refine (takeExactly?_bind_iff).mpr ⟨_, _, _, rfl, hyear, ?_⟩
    refine (takeFixed?_bind_iff).mpr ⟨_, rfl, ?_⟩
    refine (takeExactly?_bind_iff).mpr ⟨_, _, _, rfl, hmonth, ?_⟩
    refine (takeFixed?_bind_iff).mpr ⟨_, rfl, ?_⟩
    refine (takeExactly?_bind_iff).mpr ⟨_, _, _, rfl, hday, ?_⟩
    refine (takeSeparator?_bind_iff).mpr ⟨_, _, rfl, hc, ?_⟩
    refine (takeExactly?_bind_iff).mpr ⟨_, _, _, rfl, hhour, ?_⟩
    refine (takeFixed?_bind_iff).mpr ⟨_, rfl, ?_⟩
    refine (takeExactly?_bind_iff).mpr ⟨_, _, _, rfl, hminute, ?_⟩
    refine (takeFixed?_bind_iff).mpr ⟨_, rfl, ?_⟩
    refine (takeExactly?_bind_iff).mpr ⟨_, _, _, rfl, hsecond, ?_⟩
    refine Option.bind_eq_some_iff.mpr ⟨_, htakeFraction, ?_⟩
    exact Option.bind_eq_some_iff.mpr ⟨_, htakeOffset, ht⟩

/-! ## One form only

A date has no colons and a clock reading has one or two, while the interchange form has three or ends in
a letter, which a clock reading does not.
-/

theorem colon_not_mem {cs : List Char} (h : ∀ c ∈ cs, isDigit c = true) : ':' ∉ cs := by
  intro hcolon
  cases h ':' hcolon

theorem colon_not_mem_blanks {cs : List Char} (h : ∀ c ∈ cs, isBlank c = true) : ':' ∉ cs := by
  intro hcolon
  cases h ':' hcolon

theorem WritesShort.colons {n : Nat} {cs : List Char} (h : WritesShort n cs) :
    cs.count ':' = 0 := by
  obtain ⟨hblanks, hdigits, -⟩ := h
  simp [List.count_append, List.count_eq_zero, colon_not_mem_blanks hblanks,
    colon_not_mem hdigits.digits]

theorem WritesYear.colons {y : Int} {cs : List Char} (h : WritesYear y cs) : cs.count ':' = 0 := by
  cases h with
  | plain hblanks hdigits | later hblanks hdigits | earlier hblanks hdigits =>
    simp [List.count_append, List.count_eq_zero, colon_not_mem_blanks hblanks,
      colon_not_mem hdigits.digits]

theorem WritesDate.colons {date : Date} {cs : List Char} (h : WritesDate date cs) :
    cs.count ':' = 0 := by
  obtain ⟨hyear, hmonth, hday, -⟩ := h
  simp [List.count_append, hyear.colons, hmonth.colons, hday.colons]

theorem WritesClock.colons {clock : Clock} {cs : List Char} (h : WritesClock clock cs) :
    0 < cs.count ':' ∧ cs.count ':' ≤ 2 := by
  cases h with
  | minute hhour hminute => simp [List.count_append, hhour.colons, hminute.colons]
  | second hhour hminute hsecond =>
    simp [List.count_append, hhour.colons, hminute.colons, hsecond.colons]

theorem WritesReading.colons {t : Instant} {cs : List Char} (h : WritesReading t cs) :
    0 < cs.count ':' ∧ cs.count ':' ≤ 2 := by
  cases h with
  | spaced hdate hnil hall hclock =>
    simp [List.count_append, hdate.colons, List.count_eq_zero.mpr (colon_not_mem_blanks hall),
      hclock.colons]
  | lettered hdate hclock => simp [List.count_append, hdate.colons, hclock.colons]
  | @adjacent _ _ front back a b hdate ha hb hclock =>
    rw [show front ++ a :: b :: back = front ++ [a, b] ++ back by simp, List.count_append,
      hdate.colons, Nat.zero_add]
    exact hclock.colons

theorem WritesShort.ends {n : Nat} {cs : List Char} (h : WritesShort n cs) :
    ∃ front c, cs = front ++ [c] ∧ isDigit c = true := by
  obtain @⟨blanks, digits, -, hdigits, -⟩ := h
  refine ⟨blanks ++ digits.dropLast, digits.getLast hdigits.nonempty, ?_,
    hdigits.digits _ (List.getLast_mem _)⟩
  rw [List.append_assoc, List.dropLast_concat_getLast]

theorem WritesClock.ends {clock : Clock} {cs : List Char} (h : WritesClock clock cs) :
    ∃ front c, cs = front ++ [c] ∧ isDigit c = true := by
  cases h with
  | @minute _ _ hour _ _ hminute =>
    obtain ⟨front, c, rfl, hc⟩ := hminute.ends
    exact ⟨hour ++ ':' :: front, c, by simp, hc⟩
  | @second _ _ _ hour minute _ _ _ hsecond =>
    obtain ⟨front, c, rfl, hc⟩ := hsecond.ends
    exact ⟨hour ++ ':' :: (minute ++ ':' :: front), c, by simp, hc⟩

/-- The text of a clock reading ends in a digit. -/
theorem WritesReading.ends {t : Instant} {cs : List Char} (h : WritesReading t cs) :
    ∃ front c, cs = front ++ [c] ∧ isDigit c = true := by
  cases h with
  | @spaced _ _ front blanks _ _ _ _ h =>
    obtain ⟨others, c, rfl, hc⟩ := h.ends
    exact ⟨front ++ (blanks ++ others), c, by simp, hc⟩
  | @lettered _ _ front _ _ h =>
    obtain ⟨others, c, rfl, hc⟩ := h.ends
    exact ⟨front ++ 'T' :: others, c, by simp, hc⟩
  | @adjacent _ _ front _ a b _ _ _ h =>
    obtain ⟨others, c, rfl, hc⟩ := h.ends
    exact ⟨front ++ a :: b :: others, c, by simp, hc⟩

/-- The interchange form has three colons, or two and a letter at its end. -/
theorem WritesInterchange.colons {t : Instant} {cs : List Char} (h : WritesInterchange t cs) :
    1 < cs.count ':' ∧ (2 < cs.count ':' ∨ ∃ front c, cs = front ++ [c] ∧ isDigit c = false) := by
  obtain @⟨_, _, _, _, _, _, _, _, c, year, month, day, hour, minute, second, fraction, offset,
    _, _, _, _, _, _, _, _, hoffset, _⟩ := h
  constructor
  · simp only [List.count_append, List.count_cons_self, List.count_cons]
    omega
  cases hoffset with
  | @utc z hz =>
    refine .inr ⟨year ++ '-' :: (month ++ '-' :: (day ++ c :: (hour ++ ':' :: (minute ++ ':' ::
      (second ++ fraction))))), z, by simp, ?_⟩
    rcases hz with rfl | rfl <;> decide
  | ahead | behind =>
    left
    simp only [List.count_append, List.count_cons_self, List.count_cons]
    omega

theorem WritesDate.not_interchange {date : Date} {t : Instant} {cs : List Char}
    (h : WritesDate date cs) : ¬WritesInterchange t cs := by
  intro hother
  have hcolons := hother.colons.1
  rw [h.colons] at hcolons
  omega

/-- No text is both the interchange form and a clock reading. -/
theorem WritesReading.not_interchange {t t' : Instant} {cs : List Char} (h : WritesReading t cs) :
    ¬WritesInterchange t' cs := by
  intro hother
  obtain ⟨-, hmost⟩ := h.colons
  obtain ⟨front, c, rfl, hc⟩ := h.ends
  rcases hother.colons.2 with hmore | ⟨front', c', heq, hc'⟩
  · omega
  · cases (List.append_inj' heq rfl).2
    cases hc.symm.trans hc'

/-! ## Reading texts -/

/-- The text begins with a date of ten bytes. -/
def LeadsWith (date : Date) (cs : List Char) : Prop :=
  ∃ front rest, cs = front ++ rest ∧ (String.ofList front).utf8ByteSize = 10 ∧ WritesDate date front

/-- The characters that take the first bytes of a text are a beginning of it with so many bytes. -/
theorem takeBytes?_iff {n : Nat} {cs taken : List Char} :
    takeBytes? n cs = some taken ↔
      ∃ rest, cs = taken ++ rest ∧ (String.ofList taken).utf8ByteSize = n := by
  constructor
  · intro h
    induction cs generalizing n taken with
    | nil =>
      unfold takeBytes? at h
      split at h <;> cases h
      next hn => exact ⟨[], rfl, hn.symm⟩
    | cons c cs ih =>
      unfold takeBytes? at h
      split at h
      next hn =>
        cases h
        exact ⟨c :: cs, rfl, hn.symm⟩
      next =>
        split at h
        next hfits =>
          obtain ⟨others, hothers, rfl⟩ := Option.map_eq_some_iff.mp h
          obtain ⟨rest, rfl, hsize⟩ := ih hothers
          exact ⟨rest, rfl, by rw [utf8ByteSize_ofList_cons]; omega⟩
        next => cases h
  · rintro ⟨rest, rfl, rfl⟩
    induction taken with
    | nil => cases rest <;> rfl
    | cons c taken ih =>
      have hpos := c.utf8Size_pos
      rw [utf8ByteSize_ofList_cons, List.cons_append]
      unfold takeBytes?
      rw [if_neg (by omega), if_pos (by omega), Nat.add_sub_cancel_left, ih]
      rfl

/-- What a text is read as for a column of dates: the date that it writes or, when it writes none, the
one that it begins with. -/
theorem readDate?_iff {s : String} {date : Date} :
    readDate? s = some date ↔ WritesDate date (trimChars s.toList) ∨
      (∀ other, ¬WritesDate other (trimChars s.toList)) ∧ LeadsWith date (trimChars s.toList) := by
  have hleads : (takeBytes? 10 (trimChars s.toList)).bind readWholeDate? = some date ↔
      LeadsWith date (trimChars s.toList) := by
    unfold LeadsWith
    simp only [Option.bind_eq_some_iff, takeBytes?_iff, readWholeDate?_iff]
    constructor
    · rintro ⟨front, ⟨rest, hcs, hsize⟩, hdate⟩
      exact ⟨front, rest, hcs, hsize, hdate⟩
    · rintro ⟨front, rest, hcs, hsize, hdate⟩
      exact ⟨front, ⟨rest, hcs, hsize⟩, hdate⟩
  unfold readDate?
  simp only [← readWholeDate?_iff, ← hleads, ← Option.eq_none_iff_forall_ne_some]
  cases readWholeDate? (trimChars s.toList) <;> simp

/-- An instant is read as what it is written like. -/
theorem WritesInstant.readInstant? {s : String} {t : Instant}
    (h : WritesInstant t (trimChars s.toList)) : readInstant? s = some t := by
  have hnone : (∀ other, ¬WritesInterchange other (trimChars s.toList)) →
      readStrict? (trimChars s.toList) = none := fun hno =>
    Option.eq_none_iff_forall_ne_some.mpr fun other hother => hno other ((readStrict?_iff).mp hother)
  unfold Calendar.readInstant?
  cases h with
  | interchange h => rw [(readStrict?_iff).mpr h]
  | reading h =>
    rw [hnone fun _ => h.not_interchange, (readClockReading?_iff).mpr h]
  | date h =>
    have hwhole := (readWholeDate?_iff).mpr h
    have hread := (readDate?_iff).mpr (.inl h)
    rw [hnone fun _ => h.not_interchange, readClockReading?_of_wholeDate hwhole, hread]
    rfl

/-- Where no instant is written, the text is read as midnight of a date. -/
theorem readInstant?_of_not_writes {s : String}
    (h : ∀ t, ¬WritesInstant t (trimChars s.toList)) :
    readInstant? s = (readDate? s).map Instant.startOf := by
  have hstrict : readStrict? (trimChars s.toList) = none :=
    Option.eq_none_iff_forall_ne_some.mpr fun t ht => h t (.interchange ((readStrict?_iff).mp ht))
  have hreading : readClockReading? s = none :=
    Option.eq_none_iff_forall_ne_some.mpr fun t ht => h t (.reading ((readClockReading?_iff).mp ht))
  unfold readInstant?
  rw [hstrict, hreading]

/-- What a text is read as for a column of instants: the instant that it writes or, when it writes none,
midnight of the date that it begins with. -/
theorem readInstant?_iff {s : String} {t : Instant} :
    readInstant? s = some t ↔ WritesInstant t (trimChars s.toList) ∨
      (∀ other, ¬WritesInstant other (trimChars s.toList)) ∧
        ∃ date, LeadsWith date (trimChars s.toList) ∧ t = .startOf date := by
  by_cases hwritten : ∃ other, WritesInstant other (trimChars s.toList)
  · obtain ⟨other, hother⟩ := hwritten
    constructor
    · intro h
      cases hother.readInstant?.symm.trans h
      exact .inl hother
    · rintro (h | ⟨hnone, -⟩)
      · exact h.readInstant?
      · exact absurd hother (hnone other)
  · have hnone := not_exists.mp hwritten
    have hdates : ∀ date, ¬WritesDate date (trimChars s.toList) := fun _ h => hnone _ (.date h)
    have hread : ∀ date, readDate? s = some date ↔ LeadsWith date (trimChars s.toList) := by
      intro date
      simp [readDate?_iff, hdates]
    rw [readInstant?_of_not_writes hnone, Option.map_eq_some_iff]
    simp [hread, hnone, @eq_comm _ t]

theorem WritesExactly.toDigits {count n : Nat} {cs : List Char} (h : WritesExactly count n cs)
    (hcount : 0 < count) : Digits n cs where
  nonempty := List.ne_nil_of_length_pos (h.length ▸ hcount)
  digits := h.digits
  value := h.value

/-- The interchange form begins with a date of ten bytes. -/
theorem WritesInterchange.leadsWith {t : Instant} {cs : List Char} (h : WritesInterchange t cs) :
    ∃ date, LeadsWith date cs := by
  obtain @⟨y, mo, d, hh, mi, s, n, o, c, year, month, day, hour, minute, second, fraction, offset,
    hyear, hmonth, hday, -, -, -, -, -, -, ht⟩ := h
  obtain ⟨date, hdate⟩ : ∃ date, Date.ofFields? y mo d = some date := by
    unfold Fields.instantAt? at ht
    split at ht
    · cases ht
    · obtain ⟨reading, hreading, -⟩ := Option.bind_eq_some_iff.mp ht
      obtain ⟨date, hdate, -⟩ := Option.bind_eq_some_iff.mp hreading
      exact ⟨date, hdate⟩
  have hwritten : WritesDate date (year ++ '-' :: (month ++ '-' :: day)) :=
    .mk (.plain (List.forall_mem_nil _) (hyear.toDigits (by decide)) (Nat.le_of_eq hyear.length))
      (.mk (List.forall_mem_nil _) (hmonth.toDigits (by decide)) (Nat.le_of_eq hmonth.length))
      (.mk (List.forall_mem_nil _) (hday.toDigits (by decide)) (Nat.le_of_eq hday.length)) hdate
  refine ⟨date, year ++ '-' :: (month ++ '-' :: day), c :: (hour ++ ':' :: (minute ++ ':' ::
    (second ++ (fraction ++ offset)))), by simp, ?_, hwritten⟩
  have hascii : ∀ x ∈ year ++ '-' :: (month ++ '-' :: day), x.utf8Size = 1 := by
    intro x hx
    simp only [List.mem_append, List.mem_cons] at hx
    rcases hx with hx | rfl | hx | rfl | hx
    · exact utf8Size_of_isDigit (hyear.digits x hx)
    · rfl
    · exact utf8Size_of_isDigit (hmonth.digits x hx)
    · rfl
    · exact utf8Size_of_isDigit (hday.digits x hx)
  rw [utf8ByteSize_of_ascii hascii]
  simp [hyear.length, hmonth.length, hday.length]

end Winnow.Calendar
