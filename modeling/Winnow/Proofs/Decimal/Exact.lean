import Mathlib.Algebra.BigOperators.Group.List.Basic
import Mathlib.Algebra.Order.Ring.Int
import Winnow.Decimal.Basic

/-!
# Exact decimal arithmetic

A number of units is kept by rounding when it has 53 significant bits
(`roundUnits_exact`), so whole numbers up to 2^53 are decimals of their own
value (`ofInt_exact`) and are added without rounding.  A sum of whole numbers is
the exact sum as long as their absolute values add up to no more (`sum_ofInt`).

A decimal without a fraction is a whole number (`isWhole_iff`), and its whole
part is the nearest number of 64 bits (`toInt64_of_isInt`).  So is that of the
decimal nearest to a number beyond 64 bits (`toInt64_ofInt_beyond`): rounding
never takes a number below a power of two that it had reached
(`le_roundUnits`).
-/

/-! ## Numbers of 64 bits -/

namespace Winnow.Bounds

/-- Whether a number is one of 64 bits with a sign. -/
def Fits64 (n : Int) : Prop := int64Min ≤ n ∧ n ≤ int64Max

instance (n : Int) : Decidable (Fits64 n) := inferInstanceAs (Decidable (_ ∧ _))

/-- The number of 64 bits nearest to a number. -/
def nearest64 (n : Int) : Int := max int64Min (min int64Max n)

theorem nearest64_eq_self {n : Int} : nearest64 n = n ↔ Fits64 n := by
  unfold nearest64 Fits64 int64Min int64Max
  omega

/-- Numbers that have a nearest one in common are the same or are both beyond it. -/
theorem nearest64_eq_nearest64 {n m : Int} :
    nearest64 n = nearest64 m ↔
      n = m ∨ int64Max ≤ n ∧ int64Max ≤ m ∨ n ≤ int64Min ∧ m ≤ int64Min := by
  unfold nearest64 int64Min int64Max
  omega

/-- A number strictly between the bounds compares with another as with the nearest to that. -/
theorem compare_nearest64 {k : Int} (hlow : int64Min < k) (hhigh : k < int64Max) (n : Int) :
    compare k (nearest64 n) = compare k n := by
  rcases lt_trichotomy k n with h | h | h
  · have hnearest : k < nearest64 n := by
      unfold nearest64
      omega
    rw [compare_lt_iff_lt.mpr h, compare_lt_iff_lt.mpr hnearest]
  · have hfits : Fits64 n := h ▸ ⟨hlow.le, hhigh.le⟩
    rw [nearest64_eq_self.mpr hfits]
  · have hnearest : nearest64 n < k := by
      unfold nearest64
      omega
    rw [compare_gt_iff_gt.mpr h, compare_gt_iff_gt.mpr hnearest]

end Winnow.Bounds

namespace Winnow.Decimal

open Bounds

/-! ## Rounding -/

theorem roundDiv_of_dvd {num den : Nat} (hden : 0 < den) (h : den ∣ num) :
    roundDiv num den = num / den := by
  have hmod : num % den = 0 := Nat.mod_eq_zero_of_dvd h
  unfold roundDiv
  simp only [hmod, Nat.mul_zero, if_pos hden]

/-- The bits that rounding would cut off are zero. -/
theorem spare_dvd {m : Nat} (h : m ≤ 2 ^ 53) (k : Nat) :
    2 ^ ((m * 2 ^ k).log2 + 1 - 53) ∣ m * 2 ^ k := by
  by_cases hzero : m = 0
  · rw [hzero, Nat.zero_mul]
    exact Nat.dvd_zero _
  by_cases hpower : m = 2 ^ 53
  · rw [hpower, ← Nat.pow_add, Nat.log2_two_pow]
    exact Nat.pow_dvd_pow 2 (by omega)
  · have hlog : (m * 2 ^ k).log2 < 53 + k := by
      rw [Nat.log2_lt (Nat.mul_ne_zero hzero (Nat.pow_pos (by decide)).ne'), Nat.pow_add]
      exact Nat.mul_lt_mul_of_pos_right (by omega) (Nat.pow_pos (by decide))
    exact (Nat.pow_dvd_pow 2 (by omega)).trans (Nat.dvd_mul_left _ m)

theorem roundUnits_exact {m : Nat} (h : m ≤ 2 ^ 53) (k : Nat) :
    roundUnits (m * (1 <<< k)) 1 = m * (1 <<< k) := by
  have hdvd := spare_dvd h k
  unfold roundUnits
  simp only [Nat.div_one, Nat.shiftLeft_eq, Nat.one_mul]
  rw [roundDiv_of_dvd (Nat.pow_pos (by decide)) hdvd, Nat.div_mul_cancel hdvd]

theorem div_le_roundDiv (num den : Nat) : num / den ≤ roundDiv num den := by
  unfold roundDiv
  simp only
  split
  · exact Nat.le_refl _
  · split <;> omega

/-- Rounding never goes below a power of two. -/
theorem le_roundUnits {k m : Nat} (h : 2 ^ k ≤ m) : 2 ^ k ≤ roundUnits m 1 := by
  have hm : m ≠ 0 := (Nat.lt_of_lt_of_le (Nat.pow_pos (by decide)) h).ne'
  have hk : k ≤ m.log2 := (Nat.le_log2 hm).mpr h
  unfold roundUnits
  simp only [Nat.div_one, Nat.shiftLeft_eq, Nat.one_mul]
  generalize hspare : m.log2 + 1 - 53 = spare
  calc 2 ^ k ≤ 2 ^ m.log2 := Nat.pow_le_pow_right (by decide) hk
    _ = 2 ^ m.log2 / 2 ^ spare * 2 ^ spare :=
      (Nat.div_mul_cancel (Nat.pow_dvd_pow 2 (by omega))).symm
    _ ≤ m / 2 ^ spare * 2 ^ spare :=
      Nat.mul_le_mul_right _ (Nat.div_le_div_right (Nat.log2_self_le hm))
    _ ≤ roundDiv m (2 ^ spare) * 2 ^ spare :=
      Nat.mul_le_mul_right _ (div_le_roundDiv m (2 ^ spare))

/-! ## Whole numbers -/

theorem shift_lt {m j k : Nat} (h : m ≤ 2 ^ 53) (hjk : j + 53 < k) : m * (1 <<< j) < 1 <<< k := by
  rw [Nat.shiftLeft_eq, Nat.shiftLeft_eq, Nat.one_mul, Nat.one_mul]
  calc m * 2 ^ j ≤ 2 ^ 53 * 2 ^ j := Nat.mul_le_mul_right _ h
    _ = 2 ^ (53 + j) := (Nat.pow_add 2 53 j).symm
    _ < 2 ^ k := Nat.pow_lt_pow_right (by decide) (by omega)

theorem shiftLeft_eq_mul (m k : Nat) : m <<< k = m * (1 <<< k) := by
  rw [Nat.shiftLeft_eq, Nat.shiftLeft_eq, Nat.one_mul]

theorem shift_shift (m k : Nat) : (m * (1 <<< k)) >>> k = m := by
  rw [Nat.shiftRight_eq_div_pow, Nat.shiftLeft_eq, Nat.one_mul]
  exact Nat.mul_div_cancel m (Nat.pow_pos (by decide))

theorem le_shiftLeft {k m : Nat} (h : 2 ^ k ≤ m) (j : Nat) : 2 ^ (k + j) ≤ m <<< j := by
  rw [Nat.shiftLeft_eq, Nat.pow_add]
  exact Nat.mul_le_mul_right _ h

theorem le_shiftRight {k j u : Nat} (h : 2 ^ (k + j) ≤ u) : 2 ^ k ≤ u >>> j := by
  rw [Nat.shiftRight_eq_div_pow, Nat.le_div_iff_mul_le (Nat.pow_pos (by decide)), ← Nat.pow_add]
  exact h

theorem one_pos : 0 < one := by decide +kernel

theorem ofUnitRatio_exact (negative : Bool) {m : Nat} (h : m ≤ 2 ^ 53) :
    ofUnitRatio negative (m * one) 1 = .finite negative (m * one) := by
  unfold ofUnitRatio ofUnits
  rw [show roundUnits (m * one) 1 = m * one from roundUnits_exact h 1074]
  exact if_pos (shift_lt h (by decide))

theorem ofInt_exact {n : Int} (h : n.natAbs ≤ 2 ^ 53) :
    ofInt n = .finite (n < 0) (n.natAbs * one) := by
  have hunits : n.natAbs <<< 1074 = n.natAbs * one := shiftLeft_eq_mul n.natAbs 1074
  unfold ofInt ofRatio
  rw [hunits]
  exact ofUnitRatio_exact _ h

theorem key_signed (n : Int) : (finite (n < 0) (n.natAbs * one)).key = n * one := by
  unfold key
  by_cases hneg : n < 0
  · simp only [hneg, decide_true, if_true, Int.natCast_mul]
    rw [← Int.neg_mul]
    congr 1
    omega
  · simp only [hneg, decide_false, Bool.false_eq_true, if_false, Int.natCast_mul]
    congr 1
    omega

/-! ## Sums -/

/-- Numbers whose units are those of whole numbers add up like these, unless two negative zeros
meet. -/
theorem add_exact {s t : Bool} {u v : Nat} {a b : Int} (hleft : (finite s u).key = a * one)
    (hright : (finite t v).key = b * one) (h : (a + b).natAbs ≤ 2 ^ 53)
    (hsign : (s && t) = true → a + b ≠ 0) : (finite s u).add (finite t v) = ofInt (a + b) := by
  have hone : (0 : Int) < one := Int.natCast_pos.mpr one_pos
  rw [ofInt_exact h]
  unfold add
  simp only [hleft, hright]
  rw [← Int.add_mul]
  by_cases hzero : a + b = 0
  · have hfalse : (s && t) = false := Bool.eq_false_iff.mpr fun hboth => hsign hboth hzero
    rw [hzero, Int.zero_mul, if_pos rfl, hfalse]
    simp
  · have hne : (a + b) * (one : Int) ≠ 0 := mul_ne_zero hzero hone.ne'
    have hneg : ((a + b) * (one : Int) < 0) = (a + b < 0) := by
      rw [eq_iff_iff, mul_neg_iff]
      omega
    rw [if_neg hne, Int.natAbs_mul, Int.natAbs_natCast]
    simp only [hneg]
    exact ofUnitRatio_exact _ h

theorem ofInt_add {a b : Int} (ha : a.natAbs ≤ 2 ^ 53) (hb : b.natAbs ≤ 2 ^ 53)
    (h : (a + b).natAbs ≤ 2 ^ 53) : (ofInt a).add (ofInt b) = ofInt (a + b) := by
  rw [ofInt_exact ha, ofInt_exact hb]
  refine add_exact (key_signed a) (key_signed b) h ?_
  simp only [Bool.and_eq_true, decide_eq_true_eq]
  omega

theorem negativeZero_add {a : Int} (h : a.natAbs ≤ 2 ^ 53) :
    negativeZero.add (ofInt a) = ofInt a := by
  have hsum : (0 + a).natAbs ≤ 2 ^ 53 := by rwa [Int.zero_add]
  rw [ofInt_exact h]
  refine (add_exact (by simp [key]) (key_signed a) hsum ?_).trans ?_
  · simp only [Bool.true_and, decide_eq_true_eq]
    omega
  · rw [Int.zero_add, ofInt_exact h]

theorem natAbs_sum_le (l : List Int) : l.sum.natAbs ≤ (l.map Int.natAbs).sum := by
  induction l with
  | nil => exact Nat.le_refl 0
  | cons n l ih =>
    rw [List.sum_cons, List.map_cons, List.sum_cons]
    omega

theorem foldl_ofInt {a : Int} {l : List Int} (h : a.natAbs + (l.map Int.natAbs).sum ≤ 2 ^ 53) :
    (l.map ofInt).foldl add (ofInt a) = ofInt (a + l.sum) := by
  induction l generalizing a with
  | nil => simp
  | cons b l ih =>
    rw [List.map_cons, List.sum_cons] at h
    rw [List.map_cons, List.foldl_cons, ofInt_add (by omega) (by omega) (by omega), ih (by omega),
      List.sum_cons, Int.add_assoc]

/-- Whole numbers whose absolute values add up to no more than 2^53 are summed exactly. -/
theorem sum_ofInt {l : List Int} (hne : l ≠ []) (h : (l.map Int.natAbs).sum ≤ 2 ^ 53) :
    sum (l.map ofInt) = ofInt l.sum := by
  cases l with
  | nil => exact absurd rfl hne
  | cons a l =>
    rw [List.map_cons, List.sum_cons] at h
    unfold sum
    rw [List.map_cons, List.foldl_cons, negativeZero_add (by omega), foldl_ofInt h, List.sum_cons]

/-! ## Decimals without a fraction -/

/-- Whether a decimal is a given whole number. -/
def IsInt : Decimal → Int → Prop
  | .finite s u, n => (finite s u).key = n * one
  | _, _ => False

theorem isInt_unique {x : Decimal} {n m : Int} (hn : x.IsInt n) (hm : x.IsInt m) : n = m := by
  have hone : (one : Int) ≠ 0 := (Int.natCast_pos.mpr one_pos).ne'
  cases x with
  | finite s u => exact Int.eq_of_mul_eq_mul_right hone (hn.symm.trans hm)
  | _ => exact hn.elim

theorem isWhole_iff {x : Decimal} : x.isWhole = true ↔ ∃ n, x.IsInt n := by
  cases x with
  | finite s u =>
    simp only [isWhole, beq_iff_eq, IsInt, key]
    constructor
    · intro h
      obtain ⟨w, rfl⟩ := Nat.dvd_of_mod_eq_zero h
      refine ⟨if s then -(w : Int) else w, ?_⟩
      cases s <;> simp [Int.mul_comm]
    · rintro ⟨n, h⟩
      have hdvd : (one : Int) ∣ u := by
        cases s with
        | false => exact ⟨n, h.trans (Int.mul_comm _ _)⟩
        | true =>
          refine ⟨-n, ?_⟩
          rw [if_pos rfl] at h
          rw [Int.mul_neg, Int.mul_comm, ← h, Int.neg_neg]
      exact Nat.mod_eq_zero_of_dvd (Int.natCast_dvd_natCast.mp hdvd)
  | _ => simp [isWhole, IsInt]

/-- The whole part of a decimal without a fraction is the number itself, if that has 64 bits. -/
theorem toInt64_of_isInt {x : Decimal} {n : Int} (h : x.IsInt n) : x.toInt64 = nearest64 n := by
  cases x with
  | finite s u =>
    unfold IsInt key at h
    have hone : (one : Int) ≠ 0 := (Int.natCast_pos.mpr one_pos).ne'
    have hunits : u = n.natAbs * one := by
      have hnat := congrArg Int.natAbs h
      cases s <;> simpa [Int.natAbs_mul] using hnat
    have hsign : (if s then -(n.natAbs : Int) else n.natAbs) = n := by
      refine Int.eq_of_mul_eq_mul_right hone (Eq.trans ?_ h)
      rw [hunits]
      cases s <;> simp
    have hwhole : (n.natAbs * one) >>> 1074 = n.natAbs := shift_shift n.natAbs 1074
    unfold toInt64 nearest64
    rw [hunits]
    simp only [hwhole, hsign]
  | _ => exact h.elim

theorem toInt64_ofInt {n : Int} (h : n.natAbs ≤ 2 ^ 53) : (ofInt n).toInt64 = n := by
  have hint : (ofInt n).IsInt n := by
    rw [ofInt_exact h]
    exact key_signed n
  rw [toInt64_of_isInt hint, nearest64_eq_self]
  unfold Fits64 int64Min int64Max
  omega

/-- The decimal nearest to a number beyond 64 bits is beyond them too. -/
theorem toInt64_ofInt_beyond {n : Int} (h : ¬Fits64 n) : (ofInt n).toInt64 = nearest64 n := by
  have hlarge : 2 ^ 63 ≤ n.natAbs := by
    unfold Fits64 int64Min int64Max at h
    omega
  have hwhole : 2 ^ 63 ≤ roundUnits (n.natAbs <<< 1074) 1 >>> 1074 :=
    le_shiftRight (le_roundUnits (le_shiftLeft hlarge 1074))
  revert hwhole
  unfold ofInt ofRatio ofUnitRatio ofUnits
  generalize roundUnits (n.natAbs <<< 1074) 1 = u
  intro hwhole
  unfold Fits64 at h
  unfold nearest64
  by_cases hlimit : u < unitsLimit
  · rw [if_pos hlimit]
    simp only [toInt64, decide_eq_true_eq]
    generalize u >>> 1074 = w at hwhole ⊢
    unfold int64Min int64Max at *
    split <;> omega
  · rw [if_neg hlimit]
    simp only [toInt64, decide_eq_true_eq]
    unfold int64Min int64Max at *
    split <;> omega

end Winnow.Decimal
