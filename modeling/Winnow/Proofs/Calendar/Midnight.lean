import Winnow.Proofs.Calendar.Range
import Winnow.Proofs.Text.Cutting

/-!
# Dates as instants

A date alone is also read as an instant, its midnight in UTC
(`readInstant?_of_short`): it leaves nothing for a time of day, and the
interchange form is longer than a date of ten bytes.
-/

namespace Winnow.Calendar

open Text

/-! ## Forms with a time of day -/

theorem takeItems?_append (first rest : List Item) (f : Fields) (cs : List Char) :
    takeItems? (first ++ rest) f cs =
      (takeItems? first f cs).bind fun taken => takeItems? rest taken.1 taken.2 := by
  induction first generalizing f cs with
  | nil => rfl
  | cons item items ih =>
    simp only [List.cons_append, takeItems?, bind]
    cases takeItem? item f cs with
    | none => rfl
    | some taken => exact ih taken.1 taken.2

/-- A text that is a date as a whole leaves nothing for a time of day. -/
theorem readClockReading?_of_wholeDate {s : String} {date : Date}
    (h : readWholeDate? (trimChars s.toList) = some date) : readClockReading? s = none := by
  obtain ⟨fields, hform, -⟩ := Option.bind_eq_some_iff.mp h
  have hitems : takeItems? dateForm {} (trimChars s.toList) = some (fields, []) := by
    unfold readForm? at hform
    split at hform
    next hfound =>
      cases hform
      exact hfound
    next => cases hform
  have hlonger : ∀ rest, takeItems? rest fields [] = none →
      readForm? (dateForm ++ rest) (trimChars s.toList) = none := by
    intro rest hrest
    unfold readForm?
    rw [takeItems?_append, hitems, Option.bind_some, hrest]
  have hblanks := hlonger ([.blanks] ++ secondForm) rfl
  have hseparator := hlonger ([.fixed 'T'] ++ secondForm) rfl
  have hblanks' := hlonger ([.blanks] ++ minuteForm) rfl
  have hseparator' := hlonger ([.fixed 'T'] ++ minuteForm) rfl
  unfold readClockReading? clockReadingForms
  simp only [List.append_assoc, List.findSome?_cons, hblanks, hseparator, hblanks', hseparator',
    Option.bind_none, List.findSome?_nil]

/-! ## Lengths -/

theorem takeExactly?_length {count n : Nat} {cs rest : List Char}
    (h : takeExactly? count cs = some (n, rest)) : cs.length = rest.length + count := by
  unfold takeExactly? at h
  simp only at h
  split at h
  next hcount =>
    cases h
    have hwhile := (List.takeWhile_sublist (l := cs) isDigit).length_le
    rw [List.length_take] at hcount
    rw [List.length_drop]
    omega
  next => cases h

theorem takeFixed?_length {c : Char} {cs rest : List Char} (h : takeFixed? c cs = some rest) :
    cs.length = rest.length + 1 := by
  cases cs with
  | nil => cases h
  | cons x tail =>
    simp only [takeFixed?] at h
    split at h
    · cases h
      rfl
    · cases h

theorem takeSeparator?_length {cs rest : List Char} (h : takeSeparator? cs = some rest) :
    cs.length = rest.length + 1 := by
  cases cs with
  | nil => cases h
  | cons x tail =>
    simp only [takeSeparator?] at h
    split at h
    · cases h
      rfl
    · cases h

/-- The interchange form takes more than ten characters. -/
theorem readStrict?_of_short {cs : List Char} (h : cs.length ≤ 10) : readStrict? cs = none := by
  rw [Option.eq_none_iff_forall_ne_some]
  intro t ht
  unfold readStrict? at ht
  obtain ⟨⟨_, afterYear⟩, hyear, ht⟩ := Option.bind_eq_some_iff.mp ht
  obtain ⟨atMonth, hhyphen, ht⟩ := Option.bind_eq_some_iff.mp ht
  obtain ⟨⟨_, afterMonth⟩, hmonth, ht⟩ := Option.bind_eq_some_iff.mp ht
  obtain ⟨atDay, hhyphen', ht⟩ := Option.bind_eq_some_iff.mp ht
  obtain ⟨⟨_, afterDay⟩, hday, ht⟩ := Option.bind_eq_some_iff.mp ht
  obtain ⟨atClock, hseparator, -⟩ := Option.bind_eq_some_iff.mp ht
  have := takeExactly?_length hyear
  have := takeFixed?_length hhyphen
  have := takeExactly?_length hmonth
  have := takeFixed?_length hhyphen'
  have := takeExactly?_length hday
  have := takeSeparator?_length hseparator
  simp only at *
  omega

/-- The first bytes of a text that has no more of them are the whole text. -/
theorem takeBytes?_eq_self {n : Nat} {cs taken : List Char} (h : takeBytes? n cs = some taken)
    (hsize : (String.ofList cs).utf8ByteSize ≤ n) : taken = cs := by
  induction cs generalizing n taken with
  | nil =>
    unfold takeBytes? at h
    split at h <;> cases h
    rfl
  | cons c rest ih =>
    have hpos := c.utf8Size_pos
    rw [utf8ByteSize_ofList_cons] at hsize
    unfold takeBytes? at h
    rw [if_neg (by omega), if_pos (by omega)] at h
    obtain ⟨others, hothers, rfl⟩ := Option.map_eq_some_iff.mp h
    rw [ih hothers (by omega)]

/-! ## Short dates -/

/-- A date of ten bytes at most, as an instant, is its midnight in UTC. -/
theorem readInstant?_of_short {s : String} {date : Date} (h : readDate? (trim s) = some date)
    (hsize : (trim s).utf8ByteSize ≤ 10) :
    readClockReading? s = none ∧ readInstant? s = some (Instant.startOf date) := by
  have hbytes : (String.ofList (trimChars s.toList)).utf8ByteSize ≤ 10 := hsize
  have hwhole : readWholeDate? (trimChars s.toList) = some date := by
    unfold readDate? at h
    rw [trimChars_trim] at h
    simp only at h
    split at h
    next hfound =>
      cases h
      exact hfound
    next =>
      obtain ⟨taken, htaken, hread⟩ := Option.bind_eq_some_iff.mp h
      rwa [takeBytes?_eq_self htaken hbytes] at hread
  have hshort : (trimChars s.toList).length ≤ 10 := by
    have hlength := length_le_utf8ByteSize (String.ofList (trimChars s.toList))
    rw [String.toList_ofList] at hlength
    omega
  have hreading := readClockReading?_of_wholeDate hwhole
  have hdate : readDate? s = some date := by
    unfold readDate?
    simp only [hwhole]
  refine ⟨hreading, ?_⟩
  unfold readInstant?
  rw [readStrict?_of_short hshort, hreading, hdate]
  rfl

end Winnow.Calendar
