import Winnow.Proofs.Compile.Applied
import Winnow.Proofs.Decimal.Exact
import Winnow.Proofs.Engine.Related
import Winnow.Proofs.Sample
import Winnow.Proofs.Text.WholeNumbers

/-!
# Keys

A column of whole numbers is asked for keys.  A data value denotes a whole
number when it is one, when it is a decimal without a fraction, or when it is a
text that writes one (`Denotes`); the key it is read as is the number of 64 bits
nearest to that, and a text is not read when this is another number (`HasKey`).
So equality, lists and counts compare with the number that was given as long as
that has 64 bits (`keys_matched`).  A number beyond is not refused: it is
taken for the bound (`beyond_taken_for_bound`).
-/

namespace Winnow

open Bounds Engine Text

/-! ## Reading keys -/

namespace Json

/-- Whether a data value denotes a whole number; a truth value is 1 or 0. -/
inductive Denotes : Json → Int → Prop where
  | integer (n : Int) : Denotes (.integer n) n
  | decimal {x : Decimal} {n : Int} : x.IsInt n → Denotes (.decimal x) n
  | text {s : String} {n : Int} : WritesInteger n (trimChars s.toList) → Denotes (.string s) n
  | truth (b : Bool) : Denotes (.bool b) (Value.ofTruth b)

/-- Whether a data value is read as a key. -/
def HasKey (v : Json) (k : Int) : Prop :=
  ∃ n, v.Denotes n ∧ k = nearest64 n ∧ (v.text?.isSome = true → Fits64 n)

theorem denotes_unique {v : Json} {n m : Int} (hn : v.Denotes n) (hm : v.Denotes m) : n = m := by
  cases hn with
  | integer => cases hm; rfl
  | truth => cases hm; rfl
  | decimal hn =>
    cases hm with
    | decimal hm => exact Decimal.isInt_unique hn hm
  | text hn =>
    cases hm with
    | text hm => exact writesInteger_unique hn hm

/-- The key of what a data value denotes. -/
theorem hasKey_iff {v : Json} {n : Int} (h : v.Denotes n) {k : Int} :
    v.HasKey k ↔ k = nearest64 n ∧ (v.text?.isSome = true → Fits64 n) := by
  constructor
  · rintro ⟨m, hm, hk⟩
    cases denotes_unique h hm
    exact hk
  · intro hk
    exact ⟨n, h, hk⟩

theorem hasKey_unique {v : Json} {k l : Int} (hk : v.HasKey k) (hl : v.HasKey l) : k = l := by
  obtain ⟨n, hn, rfl, -⟩ := hk
  exact ((hasKey_iff hn).mp hl).1.symm

/-- The key of a data value is what it denotes when that has 64 bits, and for texts. -/
theorem hasKey_exact_iff {v : Json} {n : Int} (h : v.Denotes n) :
    (∀ k, v.HasKey k → k = n) ↔ Fits64 n ∨ v.text?.isSome = true := by
  simp only [hasKey_iff h]
  constructor
  · intro hexact
    by_cases htext : v.text?.isSome = true
    · exact .inr htext
    · exact .inl (nearest64_eq_self.mp (hexact _ ⟨rfl, fun h => absurd h htext⟩))
  · rintro hfits k ⟨rfl, htext⟩
    exact nearest64_eq_self.mpr (hfits.elim id htext)

/-- Data values with a key in common denote the same number or numbers beyond the same bound. -/
theorem denotes_of_hasKey {v w : Json} {n m k : Int} (hn : v.Denotes n) (hm : w.Denotes m)
    (hv : v.HasKey k) (hw : w.HasKey k) :
    n = m ∨ int64Max ≤ n ∧ int64Max ≤ m ∨ n ≤ int64Min ∧ m ≤ int64Min := by
  have hk := ((hasKey_iff hn).mp hv).1
  have hl := ((hasKey_iff hm).mp hw).1
  exact nearest64_eq_nearest64.mp (hk.symm.trans hl)

end Json

namespace Value

open Json (HasKey)

theorem integerOf?_integer (n : Int) : integerOf? (.integer n) = some (nearest64 n) := by
  show (if Fits64 n then some n else some (Decimal.ofInt n).toInt64) = some (nearest64 n)
  by_cases h : Fits64 n
  · rw [if_pos h, nearest64_eq_self.mpr h]
  · rw [if_neg h, Decimal.toInt64_ofInt_beyond h]

theorem integerOf?_decimal {x : Decimal} {k : Int} :
    integerOf? (.decimal x) = some k ↔ ∃ n, x.IsInt n ∧ k = nearest64 n := by
  simp only [integerOf?]
  constructor
  · intro h
    split at h
    next hwhole =>
      obtain ⟨n, hn⟩ := Decimal.isWhole_iff.mp hwhole
      rw [Decimal.toInt64_of_isInt hn] at h
      exact ⟨n, hn, (Option.some.inj h).symm⟩
    next => cases h
  · rintro ⟨n, hn, rfl⟩
    rw [if_pos (Decimal.isWhole_iff.mpr ⟨n, hn⟩), Decimal.toInt64_of_isInt hn]

theorem integerOf?_string {s : String} {k : Int} :
    integerOf? (.string s) = some k ↔ WritesInteger k (trimChars s.toList) ∧ Fits64 k := by
  simp only [integerOf?, readInt64_iff, trim, String.toList_ofList]
  rfl

/-- A data value is read as a whole number exactly for its key. -/
theorem integerOf?_iff {v : Json} {k : Int} : integerOf? v = some k ↔ v.HasKey k := by
  cases v with
  | integer n => simp [integerOf?_integer, Json.hasKey_iff (.integer n), Json.text?, eq_comm]
  | decimal x =>
    rw [integerOf?_decimal]
    constructor
    · rintro ⟨n, hn, hk⟩
      exact ⟨n, .decimal hn, hk, fun h => by cases h⟩
    · rintro ⟨n, hn, hk, -⟩
      cases hn with
      | decimal hn => exact ⟨n, hn, hk⟩
  | string s =>
    rw [integerOf?_string]
    constructor
    · rintro ⟨hwrites, hfits⟩
      exact ⟨k, .text hwrites, (nearest64_eq_self.mpr hfits).symm, fun _ => hfits⟩
    · rintro ⟨n, hn, rfl, hfits⟩
      have hfits := hfits rfl
      rw [nearest64_eq_self.mpr hfits]
      cases hn with
      | text hn => exact ⟨hn, hfits⟩
  | bool b =>
    rw [Json.hasKey_iff (.truth b)]
    cases b <;> simp [integerOf?, ofTruth, Json.text?, nearest64, int64Min, int64Max, eq_comm]
  | _ =>
    simp only [integerOf?, reduceCtorEq, false_iff]
    rintro ⟨n, hn, -⟩
    cases hn

theorem ofJson?_integer_eq (v : Json) :
    ofJson? v .integer = if v.isNull then some .null else (integerOf? v).map .integer := by
  cases v <;> rfl

theorem ofJson?_integer {v : Json} {k : Int} :
    ofJson? v .integer = some (.integer k) ↔ v.HasKey k := by
  rw [← integerOf?_iff]
  cases v <;> simp [ofJson?, integerOf?]

theorem equals_integer {a b : Int} : (Value.integer a).equals (.integer b) = true ↔ a = b := by
  simp [equals, compare?]

end Value

/-! ## Columns of whole numbers -/

namespace Operation

variable (op : Operation) (htype : op.type = .integer)

include htype

theorem scalar_integer {v : Json} {w : Value} :
    op.scalar v = .ok w ↔ ∃ k, v.HasKey k ∧ w = .integer k := by
  unfold scalar
  simp only [htype, reduceCtorEq, if_false, Value.ofJson?_integer_eq, ← Value.integerOf?_iff]
  cases hread : Value.integerOf? v with
  | none => cases v.isNull <;> simp
  | some k =>
    have hnull : v.isNull = false := by
      cases v with
      | null => cases hread
      | _ => rfl
    simp [hnull, eq_comm]

theorem equality_integer (hvalue : op.value ≠ .null) {p : Predicate} :
    op.equality false = .ok p ↔
      ∃ k, op.value.HasKey k ∧ p = .test (.compare op.column .eq (.integer k)) := by
  have hnull : op.value.isNull = false := by
    cases h : op.value with
    | null => exact absurd h hvalue
    | _ => rfl
  have hdate : op.dateOnly? op.value = none := by
    unfold dateOnly?
    rw [if_neg (by rw [htype]; decide)]
  unfold equality
  rw [if_neg (by simp [hnull]), hdate]
  constructor
  · intro h
    obtain ⟨w, hw, h⟩ := bind_eq_ok h
    obtain ⟨k, hk, rfl⟩ := (op.scalar_integer htype).mp hw
    exact ⟨k, hk, (Except.ok.inj h).symm⟩
  · rintro ⟨k, hk, rfl⟩
    rw [(op.scalar_integer htype).mpr ⟨k, hk, rfl⟩]
    rfl

/-- A list compares with the keys of its items. -/
theorem membership_integer {p : Predicate} (h : op.membership false = .ok (some p)) (db : Dataset)
    {frame : Frame} {stored : Int} (hstored : read frame op.column = .integer stored) :
    predicateHolds db frame p = true ↔ ∃ v ∈ listValues op.value, v.HasKey stored := by
  obtain ⟨values, hvalues, h⟩ := bind_eq_ok h
  split at h
  next => cases h
  next hnonempty =>
    cases h
    have hholds : predicateHolds db frame (.test (.member op.column values false)) =
        values.any (Value.integer stored).equals := by
      rw [predicateHolds, testHolds, if_neg hnonempty, hstored]
      simp [Value.isNull]
    rw [hholds, List.any_eq_true]
    constructor
    · rintro ⟨w, hw, hequals⟩
      obtain ⟨v, hv, hread⟩ := of_mem_mapM hvalues hw
      obtain ⟨k, hk, rfl⟩ := (op.scalar_integer htype).mp hread
      rw [Value.equals_integer.mp hequals]
      exact ⟨v, hv, hk⟩
    · rintro ⟨v, hv, hk⟩
      have hread := (op.scalar_integer htype).mpr ⟨stored, hk, rfl⟩
      exact ⟨_, mem_of_mapM hvalues hv hread, Value.equals_integer.mpr rfl⟩

theorem scalar_integer_isOk (v : Json) : (op.scalar v).isOk = true ↔ ∃ k, v.HasKey k :=
  isOk_iff_exists fun _ => op.scalar_integer htype

end Operation

namespace Condition

open Compile

/-- A predicate holds of just these keys of a column. -/
def Selects (column : Column) (keys : Int → Prop) (p : Predicate) : Prop :=
  ∀ db frame stored, read frame column = .integer stored →
    (predicateHolds db frame p = true ↔ keys stored)

section
variable (env : Environment) (filter : Filter)

theorem equal_key (column : Column) (field : String) {v : Json} (hv : v ≠ .null)
    {p : Option Predicate} :
    columnPredicate env column (some .integer) filter .equal v field = .ok p ↔
      ∃ k, v.HasKey k ∧ p = some (.test (.compare column .eq (.integer k))) := by
  let op : Operation := ⟨column, .integer, .equal, v, field, env.context⟩
  have hpredicate : columnPredicate env column (some .integer) filter .equal v field =
      (op.equality false).map some := rfl
  rw [hpredicate]
  constructor
  · intro h
    obtain ⟨test, htest, rfl⟩ := map_eq_ok h
    obtain ⟨k, hk, rfl⟩ := (op.equality_integer rfl hv).mp htest
    exact ⟨k, hk, rfl⟩
  · rintro ⟨k, hk, rfl⟩
    rw [(op.equality_integer rfl hv).mpr ⟨k, hk, rfl⟩]
    rfl

theorem selects_equal (column : Column) {v : Json} {k : Int} (hk : v.HasKey k) :
    Selects column v.HasKey (.test (.compare column .eq (.integer k))) := by
  intro db frame stored hstored
  rw [predicateHolds, testHolds_equal, hstored, Value.equals_integer]
  constructor
  · rintro rfl
    exact hk
  · intro hstored
    exact Json.hasKey_unique hstored hk

theorem counted_key {operator : Operator} {comparison : Comparison} {relation : String} {q : Query}
    {found : Relation} {related : Entity} (hoperator : operator.comparison? = some comparison)
    (hrelated : env.registry.related q.entity relation = .ok (found, related)) (v : Json)
    (connective : Connective) (r : Query) :
    compileCount env filter relation operator v connective q = .ok r ↔
      ∃ k, v.HasKey k ∧ r = q.addPredicate connective (some (.counted
        (found.link relation q.qualifier related.table (q.inner related).qualifier)
        (q.inner related) comparison k)) := by
  rw [compileCount_eq]
  simp only [countPredicate, hoperator, Query.relationQuery_eq, hrelated, bind, Except.bind,
    ← Value.ofJson?_integer]
  constructor
  · intro h
    split at h
    next k hk =>
      obtain ⟨p, hp, rfl⟩ := map_eq_ok h
      cases hp
      exact ⟨k, hk, rfl⟩
    next => cases h
  · rintro ⟨k, hk, rfl⟩
    simp only [hk]
    rfl

end

/-- What is read as a whole number is the key of what a data value denotes: the number itself when that
has 64 bits, and the nearest that has otherwise, for texts never.  Equality and lists select just the
rows with the keys of what they are given, and are refused when something has none; counts are compared
with the key, which compares as the number does with any count below the greatest number of 64 bits. -/
theorem keys_matched (env : Environment) (filter : Filter) (column : Column) (field : String) :
    (∀ v k, Value.ofJson? v .integer = some (.integer k) ↔ v.HasKey k) ∧
    (∀ v n, v.Denotes n →
      ((∀ k, Value.ofJson? v .integer = some (.integer k) → k = n) ↔
        Fits64 n ∨ v.text?.isSome = true)) ∧
    (∀ v w n m k, v.Denotes n → w.Denotes m → Value.ofJson? v .integer = some (.integer k) →
      Value.ofJson? w .integer = some (.integer k) →
        n = m ∨ int64Max ≤ n ∧ int64Max ≤ m ∨ n ≤ int64Min ∧ m ≤ int64Min) ∧
    (∀ v, v ≠ .null →
      let compiled := columnPredicate env column (some .integer) filter .equal v field
      (compiled.isOk = true ↔ ∃ k, v.HasKey k) ∧
        ∀ p, compiled = .ok p → ∃ test, p = some test ∧ Selects column v.HasKey test) ∧
    (∀ list,
      let compiled := columnPredicate env column (some .integer) filter .in_ list field
      (compiled.isOk = true ↔ ∀ v ∈ listValues list, ∃ k, v.HasKey k) ∧
        ∀ p, compiled = .ok (some p) →
          Selects column (fun k => ∃ v ∈ listValues list, v.HasKey k) p) ∧
    ∀ operator comparison relation q found related v connective,
      operator.comparison? = some comparison →
      env.registry.related q.entity relation = .ok (found, related) →
      let compiled := compileCount env filter relation operator v connective q
      (compiled.isOk = true ↔ ∃ k, v.HasKey k) ∧
        ∀ r, compiled = .ok r → ∃ p, r = q.addPredicate connective (some p) ∧
          ∀ db frame row n, Frame.row? frame q.qualifier = some row → v.Denotes n →
            let count : Int := (reachedBy db found related row).length
            predicateHolds db frame p = comparison.holds (compare count (nearest64 n)) ∧
              (count < int64Max →
                predicateHolds db frame p = comparison.holds (compare count n)) := by
  have hread : ∀ {v : Json} {k : Int},
      Value.ofJson? v .integer = some (.integer k) ↔ v.HasKey k := Value.ofJson?_integer
  refine ⟨fun v k => hread, ?_, ?_, ?_, ?_, ?_⟩
  · intro v n hn
    simp only [hread]
    exact Json.hasKey_exact_iff hn
  · intro v w n m k hn hm hv hw
    exact Json.denotes_of_hasKey hn hm (hread.mp hv) (hread.mp hw)
  · intro v hv
    have hequal := fun p => equal_key env filter column field hv (p := p)
    refine ⟨isOk_iff_exists hequal, fun p h => ?_⟩
    obtain ⟨k, hk, rfl⟩ := (hequal p).mp h
    exact ⟨_, rfl, selects_equal column hk⟩
  · intro list
    let op : Operation := ⟨column, .integer, .in_, list, field, env.context⟩
    refine ⟨?_, fun p h db frame stored hstored => op.membership_integer rfl h db hstored⟩
    refine (op.membership_isOk false).trans ?_
    simp only [op.scalar_integer_isOk rfl]
    rfl
  · intro operator comparison relation q found related v connective hoperator hrelated
    have hcounted := counted_key env filter hoperator hrelated v connective
    refine ⟨isOk_iff_exists hcounted, fun r h => ?_⟩
    obtain ⟨k, hk, rfl⟩ := (hcounted r).mp h
    refine ⟨_, rfl, fun db frame row n hrow hn => ?_⟩
    obtain ⟨rfl, -⟩ := (Json.hasKey_iff hn).mp hk
    have hholds := counted_holds db hrow found related relation comparison (nearest64 n)
    refine ⟨hholds, fun hcount => ?_⟩
    have hlow : int64Min < ((reachedBy db found related row).length : Int) := by
      unfold int64Min
      omega
    rw [hholds, compare_nearest64 hlow hcount]

/-- Keys of companies are given as texts too, but not in halves, and companies are counted. -/
theorem keys_matched_sample :
    let env : Environment := ⟨Sample.registry, Sample.context, none⟩
    let filter := Filter.plain .text "company" "Company"
    let column : Column := .field "contacts" "company_id"
    let asked (value : Json) :=
      columnPredicate env column (some .integer) filter .equal value "company"
    (∃ test, asked (.string " +42 ") = .ok (some test) ∧ Selects column (· = 42) test) ∧
      (asked (.decimal (Decimal.ofRatio false 3 2))).isOk = false ∧
      (compileCount env filter "company" .equal (.integer 1) .and
        (Query.ofEntity Sample.contact)).isOk = true := by
  intro env filter column asked
  obtain ⟨hreads, -, -, hequal, -, hcounted⟩ := keys_matched env filter column "company"
  refine ⟨?_, ?_, ?_⟩
  · obtain ⟨hok, hselects⟩ := hequal (.string " +42 ") (by simp)
    have hkey : (Json.string " +42 ").HasKey 42 := (hreads _ _).mp (by decide +kernel)
    obtain ⟨p, hp⟩ := ok_of_isOk (hok.mpr ⟨42, hkey⟩)
    obtain ⟨test, rfl, htest⟩ := hselects p hp
    refine ⟨test, hp, fun db frame stored hstored => (htest db frame stored hstored).trans ?_⟩
    exact ⟨fun h => Json.hasKey_unique h hkey, fun h => h ▸ hkey⟩
  · obtain ⟨hok, -⟩ := hequal (.decimal (Decimal.ofRatio false 3 2)) (by simp)
    refine Bool.eq_false_iff.mpr fun h => ?_
    obtain ⟨k, hk⟩ := hok.mp h
    have hread := (hreads _ _).mpr hk
    have hnone : Value.ofJson? (.decimal (Decimal.ofRatio false 3 2)) .integer = none := by
      decide +kernel
    cases hnone.symm.trans hread
  · have hrelated : env.registry.related (Query.ofEntity Sample.contact).entity "company" =
        .ok (Relation.belongsTo "company" "company_id", Sample.company) := rfl
    exact (hcounted .equal .eq "company" (Query.ofEntity Sample.contact) _ _ (.integer 1) .and rfl
      hrelated).1.mpr ⟨1, (hreads _ _).mp (by decide +kernel)⟩

/-- Numbers beyond 64 bits are read as the greatest number of 64 bits, and a rule for one matches the
row that has this as its key. -/
theorem beyond_taken_for_bound :
    let env : Environment := ⟨Sample.registry, Sample.context.strict, none⟩
    let frame : Frame := [("contacts", some [("company_id", .integer 9223372036854775807)])]
    let holds (value : Json) : Option Bool :=
      (columnPredicate env (.field "contacts" "company_id") (some .integer)
        (Filter.plain .text "company" "Company") .equal value "company").toOption.join.map
          (predicateHolds Sample.dataset frame)
    Json.Denotes (.integer 18446744073709551615) 18446744073709551615 ∧
      Value.ofJson? (.integer 18446744073709551615) .integer =
        some (.integer 9223372036854775807) ∧
      Value.ofJson? (.decimal (Decimal.ofInt (10 ^ 300))) .integer =
        some (.integer 9223372036854775807) ∧
      holds (.integer 18446744073709551615) = some true := by
  intro env frame holds
  exact ⟨.integer _, by decide +kernel, by decide +kernel, by decide +kernel⟩

end Condition
end Winnow
