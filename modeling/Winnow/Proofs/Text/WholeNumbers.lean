import Winnow.Proofs.Calendar.Written
import Winnow.Text.Integer

/-!
# What whole numbers are written like

A whole number is digits, one at least, with a plus or a minus sign before them
or none (`WritesInteger`).  Between bounds around zero a text is read exactly
where it writes a number between them (`readInteger_iff`): digits only take a
number further from zero, so one that ends in range was in range all along.
-/

namespace Winnow.Text

open Calendar (Digits)

/-- A whole number: digits, with a sign before them or not. -/
inductive WritesInteger : Int → List Char → Prop where
  | plain {n : Nat} {cs : List Char} : Digits n cs → WritesInteger n cs
  | positive {n : Nat} {cs : List Char} : Digits n cs → WritesInteger n ('+' :: cs)
  | negative {n : Nat} {cs : List Char} : Digits n cs → WritesInteger (-n) ('-' :: cs)

/-- A natural number with a sign. -/
def signed (negative : Bool) (n : Nat) : Int := if negative then -(n : Int) else n

/-- The number that digits after the digits of another write. -/
def natAfter (n : Nat) (cs : List Char) : Nat :=
  cs.foldl (fun n c => 10 * n + (digit? c).getD 0) n

theorem le_natAfter (n : Nat) (cs : List Char) : n ≤ natAfter n cs := by
  induction cs generalizing n with
  | nil => exact Nat.le_refl n
  | cons c rest ih =>
    have hstep : n ≤ 10 * n + (digit? c).getD 0 := by omega
    exact Nat.le_trans hstep (ih _)

section
variable {least greatest : Int}

theorem gatherDigits_cons (negative : Bool) (a : Nat) (c : Char) (rest : List Char) {d : Nat}
    (hdigit : digit? c = some d) :
    gatherDigits least greatest negative (signed negative a) (c :: rest) =
      if signed negative (10 * a + d) < least then .error .tooSmall
      else if greatest < signed negative (10 * a + d) then .error .tooLarge
      else gatherDigits least greatest negative (signed negative (10 * a + d)) rest := by
  have hnext : (if negative then 10 * signed negative a - d else 10 * signed negative a + d) =
      signed negative (10 * a + d) := by
    unfold signed
    cases negative <;> simp only [Bool.false_eq_true, if_false, if_true] <;> omega
  simp only [gatherDigits, hdigit, hnext]

variable (hleast : least ≤ 0) (hgreatest : 0 ≤ greatest)

include hleast hgreatest

/-- Induction on the digits: the number so far is between zero and what they all write, so a number in
range at the end has never left it. -/
theorem gatherDigits_iff (negative : Bool) (a : Nat) (cs : List Char) (n : Int)
    (hlow : least ≤ signed negative a) (hhigh : signed negative a ≤ greatest) :
    gatherDigits least greatest negative (signed negative a) cs = .ok n ↔
      (∀ c ∈ cs, isDigit c = true) ∧ n = signed negative (natAfter a cs) ∧
        least ≤ n ∧ n ≤ greatest := by
  induction cs generalizing a with
  | nil =>
    simp only [gatherDigits, Except.ok.injEq, natAfter, List.foldl_nil]
    constructor
    · rintro rfl
      exact ⟨fun c hc => absurd hc List.not_mem_nil, rfl, hlow, hhigh⟩
    · rintro ⟨-, rfl, -⟩
      rfl
  | cons c rest ih =>
    cases hdigit : digit? c with
    | none =>
      simp only [gatherDigits, hdigit, reduceCtorEq, false_iff]
      rintro ⟨hdigits, -⟩
      have hc := hdigits c List.mem_cons_self
      simp [isDigit, hdigit] at hc
    | some d =>
      have hafter : natAfter a (c :: rest) = natAfter (10 * a + d) rest := by
        simp [natAfter, hdigit]
      have hmost : 10 * a + d ≤ natAfter (10 * a + d) rest := le_natAfter _ _
      have hc : isDigit c = true := by simp [isDigit, hdigit]
      rw [gatherDigits_cons negative a c rest hdigit, hafter, List.forall_mem_cons]
      simp only [hc, true_and]
      split
      next hsmall =>
        simp only [reduceCtorEq, false_iff]
        rintro ⟨-, rfl, hlow, -⟩
        unfold signed at hsmall hlow
        cases negative <;> simp only [Bool.false_eq_true, if_false, if_true] at hsmall hlow <;> omega
      next hsmall =>
        split
        next hlarge =>
          simp only [reduceCtorEq, false_iff]
          rintro ⟨-, rfl, -, hhigh⟩
          unfold signed at hlarge hhigh
          cases negative <;> simp only [Bool.false_eq_true, if_false, if_true] at hlarge hhigh <;>
            omega
        next hlarge => exact ih _ (by omega) (by omega)

/-- The digits of a number of either sign, from the first on. -/
theorem gatherDigits_zero_iff (negative : Bool) {cs : List Char} (hcs : cs ≠ []) (n : Int) :
    gatherDigits least greatest negative 0 cs = .ok n ↔
      ∃ m, Digits m cs ∧ n = signed negative m ∧ least ≤ n ∧ n ≤ greatest := by
  have hzero : signed negative 0 = 0 := by cases negative <;> rfl
  have h := gatherDigits_iff hleast hgreatest negative 0 cs n (by omega) (by omega)
  rw [hzero] at h
  rw [h]
  constructor
  · rintro ⟨hdigits, hn⟩
    exact ⟨_, ⟨hcs, hdigits, rfl⟩, hn⟩
  · rintro ⟨m, ⟨-, hdigits, rfl⟩, hn⟩
    exact ⟨hdigits, hn⟩

end

/-! ## Signs -/

theorem not_digits_of_head {n : Nat} {c : Char} {rest : List Char} (hc : isDigit c = false) :
    ¬Digits n (c :: rest) := by
  intro h
  have hdigit := h.digits c List.mem_cons_self
  rw [hc] at hdigit
  cases hdigit

theorem writesInteger_plus {n : Int} {cs : List Char} :
    WritesInteger n ('+' :: cs) ↔ ∃ m, Digits m cs ∧ n = signed false m := by
  constructor
  · intro h
    cases h with
    | plain h => exact absurd h (not_digits_of_head (by decide))
    | positive h => exact ⟨_, h, rfl⟩
  · rintro ⟨m, h, rfl⟩
    exact .positive h

theorem writesInteger_minus {n : Int} {cs : List Char} :
    WritesInteger n ('-' :: cs) ↔ ∃ m, Digits m cs ∧ n = signed true m := by
  constructor
  · intro h
    cases h with
    | plain h => exact absurd h (not_digits_of_head (by decide))
    | negative h => exact ⟨_, h, rfl⟩
  · rintro ⟨m, h, rfl⟩
    exact .negative h

theorem writesInteger_unsigned {n : Int} {c : Char} {rest : List Char} (hplus : c ≠ '+')
    (hminus : c ≠ '-') :
    WritesInteger n (c :: rest) ↔ ∃ m, Digits m (c :: rest) ∧ n = signed false m := by
  constructor
  · intro h
    cases h with
    | plain h => exact ⟨_, h, rfl⟩
    | positive => exact absurd rfl hplus
    | negative => exact absurd rfl hminus
  · rintro ⟨m, h, rfl⟩
    exact .plain h

theorem not_writesInteger_alone {n : Int} {c : Char} (hc : isDigit c = false) :
    ¬WritesInteger n [c] := by
  intro h
  cases h with
  | plain h => exact not_digits_of_head hc h
  | positive h => exact h.nonempty rfl
  | negative h => exact h.nonempty rfl

theorem digits_unique {n m : Nat} {cs : List Char} (hn : Digits n cs) (hm : Digits m cs) : n = m :=
  hn.value.symm.trans hm.value

theorem writesInteger_unique {n m : Int} {cs : List Char} (hn : WritesInteger n cs)
    (hm : WritesInteger m cs) : n = m := by
  cases hn with
  | plain hn =>
    cases hm with
    | plain hm => rw [digits_unique hn hm]
    | positive => exact absurd hn (not_digits_of_head (by decide))
    | negative => exact absurd hn (not_digits_of_head (by decide))
  | positive hn =>
    obtain ⟨_, hdigits, rfl⟩ := writesInteger_plus.mp hm
    rw [digits_unique hn hdigits]
    rfl
  | negative hn =>
    obtain ⟨_, hdigits, rfl⟩ := writesInteger_minus.mp hm
    rw [digits_unique hn hdigits]
    rfl

/-- A text is read exactly where it writes a whole number between the bounds. -/
theorem readInteger_iff {least greatest : Int} (hleast : least < 0) (hgreatest : 0 ≤ greatest)
    (cs : List Char) (n : Int) :
    readInteger least greatest cs = .ok n ↔ WritesInteger n cs ∧ least ≤ n ∧ n ≤ greatest := by
  have hgather : ∀ (negative : Bool) {digits : List Char}, digits ≠ [] →
      (gatherDigits least greatest negative 0 digits = .ok n ↔
        (∃ m, Digits m digits ∧ n = signed negative m) ∧ least ≤ n ∧ n ≤ greatest) := by
    intro negative digits hdigits
    rw [gatherDigits_zero_iff (by omega) hgreatest negative hdigits]
    constructor
    · rintro ⟨m, h, hn, hrange⟩
      exact ⟨⟨m, h, hn⟩, hrange⟩
    · rintro ⟨⟨m, h, hn⟩, hrange⟩
      exact ⟨m, h, hn, hrange⟩
  unfold readInteger
  split
  next =>
    simp only [reduceCtorEq, false_iff]
    rintro ⟨h, -⟩
    cases h with
    | plain h => exact h.nonempty rfl
  next c rest => rw [hgather false (List.cons_ne_nil c rest), writesInteger_plus]
  next c rest =>
    rw [if_pos hleast, hgather true (List.cons_ne_nil c rest), writesInteger_minus]
  next hnil hplus hminus =>
    cases cs with
    | nil => exact absurd rfl hnil
    | cons c rest =>
      rw [hgather false (List.cons_ne_nil c rest)]
      -- A sign on its own is no number.
      by_cases hlone : c = '+' ∨ c = '-'
      · have hrest : rest = [] := by
          rcases hlone with rfl | rfl
          · cases rest with
            | nil => rfl
            | cons d rest => exact absurd rfl (hplus d rest)
          · cases rest with
            | nil => rfl
            | cons d rest => exact absurd rfl (hminus d rest)
        have hc : isDigit c = false := by
          rcases hlone with rfl | rfl <;> decide
        subst hrest
        refine iff_of_false ?_ fun h => not_writesInteger_alone hc h.1
        rintro ⟨⟨m, h, -⟩, -⟩
        exact not_digits_of_head hc h
      · rw [writesInteger_unsigned (fun h => hlone (.inl h)) (fun h => hlone (.inr h))]

theorem readInt64_iff (s : String) (n : Int) :
    (readInt64 s).toOption = some n ↔
      WritesInteger n s.toList ∧ Bounds.int64Min ≤ n ∧ n ≤ Bounds.int64Max := by
  rw [← readInteger_iff (by decide) (by decide) s.toList n]
  unfold readInt64
  cases readInteger Bounds.int64Min Bounds.int64Max s.toList <;> simp [Except.toOption]

end Winnow.Text
