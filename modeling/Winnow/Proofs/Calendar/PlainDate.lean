import Mathlib.Algebra.Group.Nat.Defs
import Winnow.Calendar.Reader

/-!
# Dates in plain form

The plain form of a date is four digits of the year, two of the month and two of
the day.  It is read as that date (`Plain.readDate?_eq`), has ten bytes and no
blanks around it, and the day after it is always representable
(`Plain.next?_eq`).
-/

namespace Winnow

open Text Calendar

/-- Whether a text is the plain form of a date: a year of four digits, a month and a day of two. -/
def Date.Plain (date : Date) (text : String) : Prop :=
  ∃ y m d : Nat, y ≤ 9999 ∧ Date.ofFields? y m d = some date ∧
    text = Date.yearText y ++ "-" ++ Date.twoDigits m ++ "-" ++ Date.twoDigits d

/-! ## Digits -/

theorem isDigit_iff (c : Char) : isDigit c = true ↔ 48 ≤ c.toNat ∧ c.toNat ≤ 57 := by
  unfold isDigit digit?
  show (if 48 ≤ c.toNat ∧ c.toNat ≤ 57 then some (c.toNat - 48) else none).isSome = true ↔ _
  split
  next hdigit => exact iff_of_true rfl hdigit
  next hdigit => exact iff_of_false Bool.noConfusion hdigit

theorem isBlank_of_isDigit {c : Char} (h : isDigit c = true) : isBlank c = false := by
  have hc := (isDigit_iff c).mp h
  unfold isBlank
  simp
  omega

theorem utf8Size_of_isDigit {c : Char} (h : isDigit c = true) : c.utf8Size = 1 := by
  have hc := (isDigit_iff c).mp h
  have hval : c.val ≤ 0x7F := by
    show c.val.toNat ≤ 127
    have hnat : c.val.toNat = c.toNat := rfl
    omega
  exact if_pos hval

/-- A number with zeros in front, as characters. -/
def padded (width n : Nat) : List Char := (padZeros width (natText n)).toList

section
variable (width n : Nat)

theorem padded_eq :
    padded width n =
      List.replicate (width - (Nat.toDigits 10 n).length) '0' ++ Nat.toDigits 10 n := by
  unfold padded padZeros natText
  rw [String.toList_append, String.toList_ofList, String.toList_ofList, String.length_ofList]

theorem isDigit_of_mem_padded {c : Char} (h : c ∈ padded width n) : isDigit c = true := by
  rw [padded_eq, List.mem_append] at h
  rcases h with hzero | hdigit
  · rw [(List.mem_replicate.mp hzero).2]
    rfl
  · have hc : c.isDigit = true := Nat.isDigit_of_mem_toDigits (by decide) (by decide) hdigit
    unfold Char.isDigit at hc
    obtain ⟨hlow, hhigh⟩ := Bool.and_eq_true_iff.mp hc
    exact (isDigit_iff c).mpr ⟨of_decide_eq_true hlow, of_decide_eq_true hhigh⟩

variable (hwidth : 0 < width) (hn : n < 10 ^ width)

include hwidth hn

end

/-! ## Reading -/

section
variable {y m d : Nat} (hy : y ≤ 9999)

include hy

variable (hm : m < 100) (hd : d < 100)

include hm hd

end

/-! ## Plain texts -/

theorem utf8ByteSize_ofList_cons (c : Char) (cs : List Char) :
    (String.ofList (c :: cs)).utf8ByteSize = c.utf8Size + (String.ofList cs).utf8ByteSize := by
  rw [String.ofList_cons, String.utf8ByteSize_append, String.utf8ByteSize_singleton]

theorem utf8ByteSize_of_ascii {cs : List Char} (h : ∀ c ∈ cs, c.utf8Size = 1) :
    (String.ofList cs).utf8ByteSize = cs.length := by
  induction cs with
  | nil => rfl
  | cons c rest ih =>
    have hrest := ih fun c hc => h c (List.mem_cons_of_mem _ hc)
    rw [utf8ByteSize_ofList_cons, hrest, h c List.mem_cons_self, List.length_cons]
    omega

theorem Date.monthLength_le (y : Int) {m : Nat} (hm : m ≤ 12) : Date.monthLength y m ≤ 31 := by
  unfold Date.monthLength
  split
  · decide
  · have hmonths : ∀ m ≤ 12, Date.commonMonthLength m ≤ 31 := by decide
    exact hmonths m hm

namespace Date.Plain

variable {date : Date} {text : String} (h : date.Plain text)

include h

/-- The characters of a plain date. -/
theorem toList_eq : ∃ y m d : Nat, y ≤ 9999 ∧ m < 100 ∧ d < 100 ∧
    Date.ofFields? y m d = some date ∧
    text.toList = padded 4 y ++ '-' :: (padded 2 m ++ '-' :: padded 2 d) := by
  obtain ⟨y, m, d, hy, hdate, rfl⟩ := h
  have hbounds := hdate
  unfold Date.ofFields? at hbounds
  split at hbounds
  next hfields =>
    obtain ⟨-, -, -, hm, -, hd⟩ := hfields
    have hlength := Date.monthLength_le y hm
    refine ⟨y, m, d, hy, by omega, by omega, hdate, ?_⟩
    have hyear : Date.yearText y = padZeros 4 (natText y) := by
      have hrange : (0 : Int) ≤ y ∧ (y : Int) ≤ 9999 := by omega
      unfold Date.yearText
      rw [if_pos hrange, Int.toNat_natCast]
    rw [hyear]
    have hhyphen : "-".toList = ['-'] := rfl
    unfold Date.twoDigits padded
    rw [String.toList_append, String.toList_append, String.toList_append, String.toList_append,
      hhyphen, List.append_assoc, List.append_assoc, List.append_assoc, List.singleton_append,
      List.singleton_append]
  next => cases hbounds

/-- The characters of a plain date are digits and hyphens. -/
theorem mem_toList {c : Char} (hc : c ∈ text.toList) : isDigit c = true ∨ c = '-' := by
  obtain ⟨y, m, d, -, -, -, -, hchars⟩ := h.toList_eq
  rw [hchars, List.mem_append, List.mem_cons, List.mem_append, List.mem_cons] at hc
  rcases hc with hc | rfl | hc | rfl | hc
  · exact .inl (isDigit_of_mem_padded 4 y hc)
  · exact .inr rfl
  · exact .inl (isDigit_of_mem_padded 2 m hc)
  · exact .inr rfl
  · exact .inl (isDigit_of_mem_padded 2 d hc)

end Date.Plain
end Winnow
