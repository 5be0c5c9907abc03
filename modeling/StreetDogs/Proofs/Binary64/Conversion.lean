import StreetDogs.Duration
import StreetDogs.Proofs.Binary64.Arithmetic
import StreetDogs.Road

/-!
# Whole numbers, constants and operands

Whole numbers are rounded to binary64 numbers, map coordinates exactly; negation
and absolute value are exact.  A finite sum, difference or product has finite
operands.
-/

namespace StreetDogs.Binary64

open Float.Model Float.Model.UnpackedFloat
open Binary

private theorem isFinite_of_pack {u : UnpackedFloat}
    (h : (Float.Model.pack u).unpack.isFinite = true) : u.isFinite = true := by
  rw [Float.Model.unpack, Float.Model.pack] at h
  cases u with
  | infinity s => rwa [unpack_pack (u := .infinity s) trivial trivial] at h
  | notANumber => rwa [unpack_pack (u := .notANumber) trivial trivial] at h
  | zero s => rfl
  | finite s m e hm => rfl

theorem isFinite_of_add {x y : Float} (h : (x + y).isFinite = true) :
    x.isFinite = true ∧ y.isFinite = true := by
  have hsum : (UnpackedFloat.add Format.binary64 (unpacked x) (unpacked y)).isFinite = true :=
    isFinite_of_pack h
  rw [isFinite_eq, isFinite_eq]
  generalize unpacked x = u at hsum
  generalize unpacked y = v at hsum
  cases u <;> cases v <;> simp only [UnpackedFloat.add] at hsum <;>
    first
    | exact ⟨rfl, rfl⟩
    | exact absurd hsum Bool.false_ne_true
    | split at hsum <;> exact absurd hsum Bool.false_ne_true

theorem isFinite_of_mul {x y : Float} (h : (x * y).isFinite = true) :
    x.isFinite = true ∧ y.isFinite = true := by
  have hproduct : (UnpackedFloat.mul Format.binary64 (unpacked x) (unpacked y)).isFinite = true :=
    isFinite_of_pack h
  rw [isFinite_eq, isFinite_eq]
  generalize unpacked x = u at hproduct
  generalize unpacked y = v at hproduct
  cases u <;> cases v <;> simp only [UnpackedFloat.mul] at hproduct <;>
    first
    | exact ⟨rfl, rfl⟩
    | exact absurd hproduct Bool.false_ne_true

private theorem canonical_fits_neg {u : UnpackedFloat}
    (h : Canonical .binary64 u ∧ Fits .binary64 u) :
    Canonical .binary64 u.neg ∧ Fits .binary64 u.neg := by
  cases u <;> exact h

theorem unpacked_neg (x : Float) : unpacked (-x) = (unpacked x).neg :=
  have h := canonical_fits_neg ⟨canonical_unpacked x, fits_unpacked x⟩
  unpack_pack h.1 h.2

@[simp]
theorem value_neg (x : Float) : value (-x) = -value x := by
  rw [value, unpacked_neg, exactValue_neg, value]

@[simp]
theorem isFinite_neg (x : Float) : (-x).isFinite = x.isFinite := by
  rw [isFinite_eq, unpacked_neg, isFinite_eq]
  cases unpacked x <;> rfl

private theorem canonical_fits_abs {u : UnpackedFloat}
    (h : Canonical .binary64 u ∧ Fits .binary64 u) :
    Canonical .binary64 u.abs ∧ Fits .binary64 u.abs := by
  cases u <;> exact h

theorem unpacked_abs (x : Float) : unpacked x.abs = (unpacked x).abs :=
  have h := canonical_fits_abs ⟨canonical_unpacked x, fits_unpacked x⟩
  unpack_pack h.1 h.2

@[simp]
theorem value_abs (x : Float) : value x.abs = |value x| := by
  rw [value, unpacked_abs, value]
  cases unpacked x with
  | finite s m e hm =>
      rw [abs_exactValue_finite]
      simp [UnpackedFloat.abs, exactValue, Sign.apply]
  | _ => exact abs_zero.symm

@[simp]
theorem isFinite_abs (x : Float) : x.abs.isFinite = x.isFinite := by
  rw [isFinite_eq, unpacked_abs, isFinite_eq]
  cases unpacked x <;> rfl

/-- The difference of a finite number and itself is positive zero. -/
theorem unpacked_sub_self {x : Float} (hx : x.isFinite = true) :
    unpacked (x - x) = .zero .positive := by
  have hcases := finite_cases (u := unpacked x) hx
  change (Float.Model.pack
    (UnpackedFloat.sub Format.binary64 (unpacked x) (unpacked x))).unpack = _
  generalize unpacked x = u at hcases
  obtain ⟨s, rfl⟩ | ⟨s, m, e, hm, rfl⟩ := hcases
  · cases s <;> rfl
  · simp only [UnpackedFloat.sub, Int.sub_self, UnpackedFloat.normalize,
        Std.compare_self]
    rfl

theorem toFloat_roundsTo (n : UInt64) : RoundsTo n.toFloat n.toNat := by
  have h := roundsTo_of_pack (.normalize .binary64 n.toNat 0 .positive) (x := n.toFloat) rfl
  simpa using h

theorem zero_exact : (0.0 : Float).isFinite = true ∧ value 0.0 = 0 := by
  have hunpacked : unpacked 0.0 = .zero .positive := by rfl
  rw [isFinite_eq, value, hunpacked]
  exact ⟨rfl, rfl⟩

theorem one_exact : (1.0 : Float).isFinite = true ∧ value 1.0 = 1 := by
  have h := exact_of_unpacked (x := 1.0) (m := 2 ^ 52) (e := -52) (by decide) rfl
  norm_num at h ⊢
  exact h

private theorem mul_finite (s t : Sign) {m n : ℕ} {e f : ℤ} (hm : 0 < m) (hn : 0 < n) :
    UnpackedFloat.mul Format.binary64 (.finite s m e hm) (.finite t n f hn) =
      roundWithAccuracy Format.binary64 (s * t) (m * n) (e + f) .exact := rfl

/-- The decimal reader scales a whole number by 53 bits before it rounds. -/
private theorem ofScientific_eq {n e : ℕ} (hn : n ≠ 0) (he : e ≤ 2 ^ 11) :
    UnpackedFloat.ofScientific Format.binary64 n e =
      roundWithAccuracy Format.binary64 .positive (n * 2 ^ 53 * 10 ^ e) (-53) .exact := by
  have hbits : (2 ^ Format.binary64.exponentBits : ℤ) = 2 ^ 11 := rfl
  have hhigh : ¬ ((e : ℤ) > 2 ^ Format.binary64.exponentBits) := by
    rw [hbits, not_lt]
    exact_mod_cast he
  have hlow : ¬ ((e : ℤ) < -((2 ^ Format.binary64.exponentBits : ℤ) + n.log2)) := by
    rw [hbits]
    omega
  have hmantissa : Format.binary64.mantissaBits = 53 := rfl
  rw [UnpackedFloat.ofScientific, dif_neg hn, if_neg hhigh, if_neg hlow,
    if_pos (Int.natCast_nonneg e), mul_finite, hmantissa, Nat.shiftLeft_eq, Int.toNat_natCast,
    add_zero]
  rfl

/-- A decimal beyond the table of exact powers of ten becomes the nearest
binary64 number. -/
theorem ofScientific_roundsTo {n e : ℕ} (hn : 0 < n) (he : e ≤ 2 ^ 11)
    (hbeyond : ¬ (n < 2 ^ 53 ∧ e ≤ 22)) :
    RoundsTo (Float.ofScientific n false e) (n * 10 ^ e) := by
  rw [Float.ofScientific, dif_neg hbeyond]
  change RoundsTo (.ofModel (Float.Model.pack (UnpackedFloat.ofScientific Format.binary64 n e))) _
  have hpos : 0 < n * 10 ^ e := by positivity
  have hlog : 53 ≤ (n * 2 ^ 53 * 10 ^ e).log2 := by
    rw [Nat.mul_right_comm, Nat.le_log2 (by positivity)]
    exact Nat.le_mul_of_pos_left _ hpos
  have htarget : -53 ≤ Format.binary64.targetExponent
      (totalExponent (n * 2 ^ 53 * 10 ^ e) (-53)) := by
    rw [targetExponent_eq]
    apply le_max_of_le_left
    change (-53 : ℤ) ≤ (n * 2 ^ 53 * 10 ^ e).log2 + -53 - (52 : ℕ)
    omega
  have hrounded := Rounded.roundWithAccuracy .positive
    (x := (n * 2 ^ 53 * 10 ^ e : ℕ)) (by positivity) (tracks_exact _) htarget
  rw [← ofScientific_eq hn.ne' he] at hrounded
  have hvalue : ((Sign.positive.apply 1 : ℤ) : ℚ) * ((n * 2 ^ 53 * 10 ^ e : ℕ) * 2 ^ (-53 : ℤ)) =
      n * 10 ^ e := by
    push_cast
    norm_num [Sign.apply]
    ring
  rw [hvalue] at hrounded
  exact roundsTo_of_pack hrounded rfl

/-- A whole number becomes the nearest binary64 number. -/
theorem ofNat_roundsTo (n : ℕ) : RoundsTo (Float.ofNat n) n := by
  change RoundsTo (Float.ofScientific n false 0) n
  by_cases hsmall : n < 2 ^ 53 ∧ 0 ≤ 22
  · rw [Float.ofScientific, dif_pos hsmall]
    change RoundsTo (n.toUInt64.toFloat * 1.0) n
    have hn : n.toUInt64.toNat = n := by
      rw [Nat.toUInt64, UInt64.toNat_ofNat', Nat.mod_eq_of_lt (by omega)]
    have hexact := (toFloat_roundsTo n.toUInt64).exact_natCast (by omega)
    have hproduct := mul_roundsTo hexact.1 one_exact.1
    rwa [hexact.2, one_exact.2, hn, mul_one] at hproduct
  · have hrounds := ofScientific_roundsTo (n := n) (e := 0) (by omega) (by norm_num) hsmall
    rwa [pow_zero, mul_one] at hrounds

/-- Integers of at most 53 bits become binary64 numbers exactly. -/
theorem ofInt_exact {n : ℤ} (hn : |n| < 2 ^ 53) :
    (Float.ofInt n).isFinite = true ∧ value (Float.ofInt n) = n := by
  cases n with
  | ofNat k =>
      rw [Int.ofNat_eq_natCast, Nat.abs_cast] at hn
      exact (ofNat_roundsTo k).exact_natCast (by exact_mod_cast hn)
  | negSucc k =>
      have hk : k + 1 < 2 ^ 53 := by
        rw [Int.negSucc_eq, abs_neg] at hn
        exact_mod_cast hn
      obtain ⟨hfinite, hvalue⟩ := (ofNat_roundsTo (k + 1)).exact_natCast hk
      change (-Float.ofNat (k + 1)).isFinite = true ∧ value (-Float.ofNat (k + 1)) = _
      rw [isFinite_neg, value_neg, hvalue]
      exact ⟨hfinite, by push_cast; ring⟩

end StreetDogs.Binary64

namespace StreetDogs

open Binary Binary64

/-- Map coordinates become binary64 numbers exactly. -/
theorem Coord.real_exact (c : Coord) :
    (Coord.real c).isFinite = true ∧ value (Coord.real c) = c.toInt := by
  apply ofInt_exact
  have hlow := c.le_toInt
  have hhigh := c.toInt_lt
  rw [abs_lt]
  constructor <;> omega

theorem halfWidth_exact :
    halfWidth.isFinite = true ∧ value halfWidth = 3602879701896397 / 2 ^ 53 := by
  have h := exact_of_unpacked (x := halfWidth) (m := 7205759403792794) (e := -54)
    (by decide) rfl
  norm_num at h ⊢
  exact h

/-- A length of time is not negative in seconds either. -/
theorem Duration.value_inSeconds_nonneg {time : Duration}
    (h : time.inSeconds.isFinite = true) : 0 ≤ value time.inSeconds := by
  obtain ⟨hwhole, hpart⟩ := isFinite_of_add h
  have hbillion : (1000000000.0 : Float).isFinite = true ∧ value 1000000000.0 = 1000000000 := by
    have h := exact_of_unpacked (x := 1000000000.0) (m := 8388608000000000) (e := -23)
      (by decide) rfl
    norm_num at h ⊢
    exact h
  have hsub : time.subsecond < 2 ^ 53 := by
    rw [Duration.subsecond]
    omega
  have hnanos := (ofNat_roundsTo time.subsecond).exact_natCast hsub
  have hquotient := div_roundsTo hnanos.1 hbillion.1 (by rw [hbillion.2]; norm_num)
  rw [inSeconds, (add_roundsTo hwhole hpart).value_eq h]
  apply nearest_nonneg
  rw [(ofNat_roundsTo time.seconds).value_eq hwhole, hquotient.value_eq hpart, hnanos.2, hbillion.2]
  exact add_nonneg (nearest_nonneg (by positivity)) (nearest_nonneg (by positivity))

end StreetDogs
