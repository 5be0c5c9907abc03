import StreetDogs.Proofs.Binary64.Conversion
import StreetDogs.Proofs.Binary64.Order
import StreetDogs.Json.Number

/-!
# Numbers read back

Integers of 64 bits are written and read exactly.  A binary64 number is never
written like an integer, so it keeps its kind; the reader rounds more than once,
so not every number comes back as it was.  Whatever is read is finite.
-/

namespace StreetDogs.Json

open Binary Binary64

/-- The binary64 number comes back from the numeral it is written as.  Only finite
numbers do. -/
def ReadsBack (x : Float) : Prop := realOf? (Decimal.Layout.document.numeral x) = some x

instance (x : Float) : Decidable (ReadsBack x) := inferInstanceAs (Decidable (_ = _))

/-- An integer of 64 bits, with or without sign, or a finite binary64 number. -/
def Number.InRange : Number → Prop
  | integer n => -2 ^ 63 ≤ n ∧ n < 2 ^ 64
  | real x => x.isFinite = true

theorem integerOf?_ofInt {n : ℤ} (hlow : -2 ^ 63 ≤ n) (hhigh : n < 2 ^ 64) :
    integerOf? (.ofInt n) = some n := by
  have hsize : UInt64.size = 2 ^ 64 := rfl
  simp only [integerOf?, Numeral.ofInt, hsize, List.isEmpty_nil, Option.isNone_none,
    Bool.and_self, if_true, decide_eq_true_eq]
  split_ifs with hneg hfits hfits
  · congr 1
    omega
  · omega
  · congr 1
    omega
  · omega

/-- A binary64 number has a fraction or an exponent. -/
theorem integerOf?_document (x : Float) :
    integerOf? (Decimal.Layout.document.numeral x) = none := by
  have hpad (fraction : List Digit) : (Decimal.Layout.document.pad fraction).isEmpty = false := by
    cases fraction <;> rfl
  rw [integerOf?, Decimal.Layout.numeral]
  dsimp only
  split_ifs <;> simp [hpad] at *

theorem Number.ofNumeral?_integer {n : ℤ} (hrange : (integer n).InRange) :
    ∃ numeral, (integer n).numeral? = some numeral ∧ ofNumeral? numeral = some (integer n) := by
  refine ⟨.ofInt n, rfl, ?_⟩
  rw [ofNumeral?, integerOf?_ofInt hrange.1 hrange.2]

theorem Number.ofNumeral?_real {x : Float} (hrange : (real x).InRange) (hreads : ReadsBack x) :
    ∃ numeral, (real x).numeral? = some numeral ∧ ofNumeral? numeral = some (real x) := by
  rw [ReadsBack] at hreads
  refine ⟨Decimal.Layout.document.numeral x, if_pos hrange, ?_⟩
  rw [ofNumeral?, integerOf?_document, hreads]
  rfl

namespace Numeral64

theorem fit_lt (n : ℕ) : (fit n).1 < 2 ^ 64 := by
  induction n using Nat.strong_induction_on with
  | h n ih =>
      rw [fit]
      split_ifs with hn
      · exact hn
      · have hsize : 0 < UInt64.size := by decide
        exact ih (n / 10) (Nat.div_lt_self (by omega) (by decide))

theorem append_lt {n : ℕ} (hn : n < 2 ^ 64) (digits : List Digit) :
    (append n digits).1 < 2 ^ 64 := by
  induction digits generalizing n with
  | nil => exact hn
  | cons digit digits ih =>
      rw [append]
      split_ifs with hfits
      · exact ih hfits
      · exact hn

/-- The significand fits 64 bits. -/
theorem parts_lt (numeral : Numeral) : (parts numeral).1 < 2 ^ 64 :=
  append_lt (fit_lt numeral.whole) numeral.fraction

theorem isFinite_ofNat {n : ℕ} (hn : n < 2 ^ 64) : (Float.ofNat n).isFinite = true := by
  have hpower : Representable .binary64 (2 ^ 64) := ⟨1, 64, by norm_num, by norm_num, by norm_num⟩
  have hlimit : (2 : ℚ) ^ 64 < limit .binary64 := calc
    (2 : ℚ) ^ 64 < 2 ^ (65 : ℤ) := by norm_num
    _ ≤ limit .binary64 := two_zpow_le_limit (by norm_num)
  refine (ofNat_roundsTo n).isFinite_of_abs_le hpower hlimit ?_
  rw [abs_of_nonneg (by positivity)]
  exact_mod_cast hn.le

/-- The smallest powers of ten stand in a table. -/
private theorem powerOfTen_small {power : ℕ} (h : power ≤ 22) :
    (powerOfTen power).isFinite = true ∧ 1 ≤ value (powerOfTen power) := by
  have htable : ∀ power < 23,
      (powerOfTen power).isFinite = true ∧ Float.ofNat 1 ≤ powerOfTen power := by
    decide +kernel
  obtain ⟨hfinite, hle⟩ := htable power (by omega)
  have hunit := (ofNat_roundsTo 1).exact_natCast (by norm_num)
  rw [le_iff hunit.1 hfinite, hunit.2] at hle
  exact ⟨hfinite, by exact_mod_cast hle⟩

/-- `10 ^ 308` lies below nine sixteenths of the limit. -/
private theorem ten_pow_le {power : ℕ} (h : power ≤ 308) :
    (10 : ℚ) ^ power ≤ 9 * 2 ^ (1020 : ℤ) := calc
  (10 : ℚ) ^ power ≤ 10 ^ 308 := pow_le_pow_right₀ (by norm_num) h
  _ = (10 ^ 77) ^ 4 := by rw [← pow_mul]
  _ ≤ 9 * (2 ^ 255) ^ 4 := by norm_num
  _ = 9 * 2 ^ (1020 : ℤ) := by
    rw [← pow_mul]
    rfl

/-- The powers of ten in use are finite and at least one. -/
theorem powerOfTen_spec {power : ℕ} (h : power ≤ greatestPower) :
    (powerOfTen power).isFinite = true ∧ 1 ≤ value (powerOfTen power) := by
  rw [greatestPower] at h
  by_cases hsmall : power ≤ 22
  · exact powerOfTen_small hsmall
  -- Rounding is monotone, and a power lies between two numbers that are not rounded.
  have hrounds : RoundsTo (powerOfTen power) ((1 : ℕ) * 10 ^ power) :=
    ofScientific_roundsTo one_pos (by omega) (by omega)
  rw [Nat.cast_one, one_mul] at hrounds
  have hbound : Representable .binary64 (9 * 2 ^ (1020 : ℤ)) :=
    ⟨9, 1020, by norm_num, by norm_num, by norm_num⟩
  have hlimit : 9 * 2 ^ (1020 : ℤ) < limit .binary64 := calc
    (9 : ℚ) * 2 ^ (1020 : ℤ) < 2 ^ (4 : ℤ) * 2 ^ (1020 : ℤ) :=
      mul_lt_mul_of_pos_right (by norm_num) (zpow_pos two_pos 1020)
    _ = limit .binary64 := by
      rw [limit, ← zpow_add₀ two_ne_zero]
      norm_num only
  have hfinite : (powerOfTen power).isFinite = true := by
    refine hrounds.isFinite_of_abs_le hbound hlimit ?_
    rw [abs_of_nonneg (by positivity)]
    exact ten_pow_le h
  have hone : nearest .binary64 1 = 1 := nearest_of_representable representable_one
  refine ⟨hfinite, ?_⟩
  rw [hrounds.value_eq hfinite, ← hone]
  exact nearest_mono (one_le_pow₀ (by norm_num))

/-- Scaling up stops short of infinity. -/
theorem isFinite_scaleUp? {x scaled : Float} {power : ℕ} (hx : x.isFinite = true)
    (h : scaleUp? x power = some scaled) : scaled.isFinite = true := by
  rw [scaleUp?] at h
  split_ifs at h with hzero hpower
  · rwa [← Option.some.inj h]
  · dsimp only at h
    split_ifs at h with hinf
    rw [← Option.some.inj h]
    exact (mul_roundsTo hx (powerOfTen_spec hpower).1).isFinite_of_not_isInf hinf

/-- Dividing by powers of ten leaves a number finite. -/
theorem isFinite_scaleDown {x : Float} (hx : x.isFinite = true) (power : ℕ) :
    (scaleDown x power).isFinite = true := by
  have hdivide {x : Float} {power : ℕ} (hx : x.isFinite = true) (hpower : power ≤ greatestPower) :
      (x / powerOfTen power).isFinite = true := by
    obtain ⟨hfinite, hone⟩ := powerOfTen_spec hpower
    have hrounds := div_roundsTo hx hfinite (by linarith)
    have hbound : Representable .binary64 |value x| := by
      rw [← value_abs]
      exact representable_value x.abs
    refine hrounds.isFinite_of_abs_le hbound (abs_value_lt_limit x) ?_
    rw [abs_div]
    exact div_le_self (abs_nonneg _) (hone.trans (le_abs_self _))
  induction power using Nat.strong_induction_on generalizing x with
  | h power ih =>
      rw [scaleDown]
      split_ifs with hpower hzero
      · exact hdivide hx hpower
      · exact hx
      · rw [not_le, greatestPower] at hpower
        exact ih (power - greatestPower) (by rw [greatestPower]; omega) (hdivide hx le_rfl)

end Numeral64

theorem isFinite_of_realOf? {numeral : Numeral} {x : Float} (h : realOf? numeral = some x) :
    x.isFinite = true := by
  obtain ⟨magnitude, hmagnitude, rfl⟩ := Option.map_eq_some_iff.mp h
  have hfinite : magnitude.isFinite = true := by
    have hsignificand := Numeral64.isFinite_ofNat (Numeral64.parts_lt numeral)
    rw [Numeral64.magnitude?] at hmagnitude
    dsimp only at hmagnitude
    split_ifs at hmagnitude with hpower
    · exact Numeral64.isFinite_scaleUp? hsignificand hmagnitude
    · rw [← Option.some.inj hmagnitude]
      exact Numeral64.isFinite_scaleDown hsignificand _
  split_ifs with hnegative
  · rwa [isFinite_neg]
  · exact hfinite

theorem ReadsBack.isFinite {x : Float} (h : ReadsBack x) : x.isFinite = true :=
  isFinite_of_realOf? h

/-- Numbers that are read are in range. -/
theorem Number.inRange_of_ofNumeral? {numeral : Numeral} {n : Number}
    (h : ofNumeral? numeral = some n) : n.InRange := by
  rw [ofNumeral?] at h
  cases hinteger : integerOf? numeral with
  | none =>
      rw [hinteger] at h
      obtain ⟨x, hx, rfl⟩ := Option.map_eq_some_iff.mp h
      exact isFinite_of_realOf? hx
  | some k =>
      rw [hinteger] at h
      obtain rfl := Option.some.inj h
      have hsize : UInt64.size = 2 ^ 64 := rfl
      rw [integerOf?, hsize] at hinteger
      split_ifs at hinteger with hplain hnegative hfits hfits <;>
        · rw [← Option.some.inj hinteger]
          constructor <;> omega

end StreetDogs.Json
