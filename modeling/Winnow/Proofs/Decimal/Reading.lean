import Mathlib.Data.List.TakeDrop
import Winnow.Decimal.Reader

/-!
# Texts that are read as no number

Digits write a number, however large or small, so it is never no number
(`ofScientific_isNaN`).  The only texts that are read as no number are the word
for it, in letters of either case, and the word with a sign before it
(`read?_eq_nan_iff`).
-/

namespace Winnow.Decimal

open Winnow.Text

/-! ## Definitions -/

/-- The word for no number, its letters in either case. -/
def IsNaNWord (cs : List Char) : Prop := cs.map Char.toLower = ['n', 'a', 'n']

/-- What is read as no number: the word for it, with a sign before it or not. -/
inductive WritesNaN : List Char → Prop where
  | plain {cs : List Char} : IsNaNWord cs → WritesNaN cs
  | positive {cs : List Char} : IsNaNWord cs → WritesNaN ('+' :: cs)
  | negative {cs : List Char} : IsNaNWord cs → WritesNaN ('-' :: cs)

/-! ## Numbers -/

theorem ofRatio_isNaN (negative : Bool) (num den : Nat) :
    (ofRatio negative num den).isNaN = false := by
  unfold ofRatio ofUnitRatio ofUnits
  split <;> rfl

theorem ofScientific_isNaN (negative : Bool) (digits : Nat) (exponent : Int) :
    (ofScientific negative digits exponent).isNaN = false := by
  unfold ofScientific
  simp only
  split
  · rfl
  · split
    · rfl
    · split
      · rfl
      · split <;> exact ofRatio_isNaN ..

/-! ## Words -/

theorem toLower_of_isDigit {c : Char} (h : isDigit c = true) : c.toLower = c := by
  unfold isDigit digit? at h
  split at h
  next hbounds =>
    unfold Char.toLower
    rw [dif_neg]
    rintro ⟨hupper, -⟩
    exact absurd (Nat.le_trans hupper hbounds.2) (by decide)
  next => cases h

theorem IsNaNWord.head {cs : List Char} (h : IsNaNWord cs) :
    ∃ c rest, cs = c :: rest ∧ c.toLower = 'n' := by
  cases cs with
  | nil => cases h
  | cons c rest => exact ⟨c, rest, rfl, (List.cons.inj h).1⟩

theorem word?_eq_nan_iff {negative : Bool} {cs : List Char} :
    word? negative cs = some .nan ↔ IsNaNWord cs := by
  unfold word? IsNaNWord
  constructor
  · intro h
    split at h
    next => cases h
    next => cases h
    next hword => exact String.ofList_injective hword
    next => cases h
  · intro h
    rw [h]
    rfl

/-! ## Reading -/

theorem readUnsigned?_eq_nan_iff {negative : Bool} {cs : List Char} :
    readUnsigned? negative cs = some .nan ↔ IsNaNWord cs := by
  constructor
  · intro h
    have hnumber : ∀ {exponent : Option Int} {digits places : Nat},
        exponent.map (fun e => ofScientific negative digits (e - places)) ≠ some .nan := by
      intro exponent digits places hnan
      obtain ⟨e, -, hvalue⟩ := Option.map_eq_some_iff.mp hnan
      have := ofScientific_isNaN negative digits (e - places)
      rw [hvalue] at this
      cases this
    unfold readUnsigned? at h
    simp only at h
    split at h <;> split at h
    · exact word?_eq_nan_iff.mp h
    · exact absurd h hnumber
    · exact word?_eq_nan_iff.mp h
    · exact absurd h hnumber
  · intro h
    obtain ⟨c, rest, rfl, hc⟩ := h.head
    -- the word begins neither with a digit nor with a point
    have hdigit : isDigit c = false := by
      cases hdigit : isDigit c with
      | false => rfl
      | true =>
        rw [toLower_of_isDigit hdigit] at hc
        rw [hc] at hdigit
        exact absurd hdigit (by decide)
    have hpoint : c ≠ '.' := by
      rintro rfl
      exact absurd hc (by decide)
    have hnone : takeDigits (c :: rest) = ([], c :: rest) := by
      simp [takeDigits, List.span_eq_takeWhile_dropWhile, hdigit]
    unfold readUnsigned?
    simp only [hnone]
    split
    next hsplit => exact absurd (List.cons.inj hsplit).1 hpoint
    next => exact word?_eq_nan_iff.mpr h

theorem read?_eq_nan_iff (s : String) : read? s = some .nan ↔ WritesNaN s.toList := by
  have hsign : ∀ {sign : Char} {cs : List Char}, sign.toLower ≠ 'n' → ¬IsNaNWord (sign :: cs) :=
    fun hne hword => hne (List.cons.inj hword).1
  unfold read?
  generalize s.toList = cs
  simp only [readUnsigned?_eq_nan_iff]
  unfold takeSign
  split
  · refine ⟨.positive, fun h => ?_⟩
    cases h with
    | plain h => exact absurd h (hsign (by decide))
    | positive h => exact h
  · refine ⟨.negative, fun h => ?_⟩
    cases h with
    | plain h => exact absurd h (hsign (by decide))
    | negative h => exact h
  next hplus hminus =>
    refine ⟨.plain, fun h => ?_⟩
    cases h with
    | plain h => exact h
    | positive h => exact absurd rfl (hplus _)
    | negative h => exact absurd rfl (hminus _)

end Winnow.Decimal
