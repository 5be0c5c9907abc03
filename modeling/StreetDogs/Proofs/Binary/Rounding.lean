import StreetDogs.Proofs.Binary.Nearest
import StreetDogs.Proofs.Binary.Canonical

/-!
# Rounding of unpacked numbers

The arithmetic of unpacked numbers shifts a significand to the right, keeps two
bits of what is lost, and rounds at the end.  What the kept bits say about the
exact significand is stated as a relation, and every rounded result is the
nearest number in the sense of `StreetDogs.Binary.nearest`.
-/

namespace StreetDogs.Binary

open Float.Model Float.Model.UnpackedFloat

variable {format : Format}

/-- The significand with its two further bits tells where `x` lies: at a
multiple of one half, or strictly between two of them. -/
def Tracks (em : ExtendedMantissa) (x : ℚ) : Prop :=
  let foot : ℚ := em.mantissa + if em.roundBit then 1 / 2 else 0
  if em.stickyBit then foot < x ∧ x < foot + 1 / 2 else x = foot

theorem tracks_exact (m : ℕ) : Tracks (ExtendedMantissa.ofMantissaAndAccuracy m .exact) m := by
  simp [Tracks, ExtendedMantissa.ofMantissaAndAccuracy]

theorem Tracks.floor_eq {em : ExtendedMantissa} {x : ℚ} (h : Tracks em x) :
    ⌊x⌋ = (em.mantissa : ℤ) := by
  obtain ⟨m, half, rest⟩ := em
  rw [Int.floor_eq_iff]
  cases half <;> cases rest <;> simp [Tracks] at h ⊢ <;> constructor <;> linarith

theorem Tracks.roundedMantissa_eq {em : ExtendedMantissa} {x : ℚ} (h : Tracks em x) :
    (em.roundedMantissa : ℤ) = nearestEven x := by
  have hfloor := h.floor_eq
  obtain ⟨m, half, rest⟩ := em
  cases half with
  | false =>
      have hlt : x - ⌊x⌋ < 1 / 2 := by
        rw [hfloor]
        cases rest <;> simp [Tracks] at h ⊢ <;> linarith
      rw [nearestEven_of_lt hlt, hfloor]
      cases rest <;> rfl
  | true =>
      cases rest with
      | false =>
          have heq : x - ⌊x⌋ = 1 / 2 := by
            rw [hfloor]
            simp [Tracks] at h ⊢
            linarith
          rw [nearestEven_of_eq heq, hfloor]
          rfl
      | true =>
          have hgt : 1 / 2 < x - ⌊x⌋ := by
            rw [hfloor]
            simp [Tracks] at h ⊢
            linarith
          rw [nearestEven_of_gt hgt, hfloor]
          rfl

theorem Tracks.shiftRightOne {em : ExtendedMantissa} {x : ℚ} (h : Tracks em x) :
    Tracks em.shiftRightOne (x / 2) := by
  obtain ⟨m, half, rest⟩ := em
  have hm : (m : ℚ) = 2 * (m / 2 : ℕ) + (m % 2 : ℕ) := by
    exact_mod_cast (Nat.div_add_mod m 2).symm
  have hbit : m % 2 = 0 ∨ m % 2 = 1 := Nat.mod_two_eq_zero_or_one m
  cases half with
  | false =>
      cases rest with
      | false =>
          rcases hbit with hbit | hbit <;> rw [hbit] at hm <;>
            simp [Tracks, ExtendedMantissa.shiftRightOne, hbit] at h hm ⊢ <;> linarith
      | true =>
          rcases hbit with hbit | hbit <;> rw [hbit] at hm <;>
            simp [Tracks, ExtendedMantissa.shiftRightOne, hbit] at h hm ⊢ <;>
            constructor <;> linarith
  | true =>
      rcases hbit with hbit | hbit <;> rw [hbit] at hm <;> cases rest <;>
        simp [Tracks, ExtendedMantissa.shiftRightOne, hbit] at h hm ⊢ <;>
        constructor <;> linarith

theorem Tracks.shiftRight {em : ExtendedMantissa} {x : ℚ} (h : Tracks em x) (n : ℕ) :
    Tracks (em >>> n) (x / 2 ^ n) := by
  change Tracks (n.repeat ExtendedMantissa.shiftRightOne em) (x / 2 ^ n)
  induction n with
  | zero => simpa [Nat.repeat] using h
  | succ n ih =>
      rw [Nat.repeat, pow_succ, ← div_div]
      exact ih.shiftRightOne

theorem targetExponent_eq (m : ℕ) (e : ℤ) :
    format.targetExponent (totalExponent m e) =
      max ((m.log2 : ℤ) + e - format.mantissaBitsWithoutImplicit) format.minExponent := by
  rw [Format.targetExponent, totalExponent, Format.mantissaBits]
  omega

/-- A number with the whole part `m` has the exponent of `m`. -/
theorem log_mul_zpow {x : ℚ} {m : ℕ} (e : ℤ) (hm : 0 < m) (hlow : (m : ℚ) ≤ x)
    (hhigh : x < m + 1) : Int.log 2 (x * 2 ^ e) = m.log2 + e := by
  have hpos : (0 : ℚ) < 2 ^ e := zpow_pos two_pos e
  have hx : 0 < x := lt_of_lt_of_le (by exact_mod_cast hm) hlow
  have hself : (2 : ℚ) ^ m.log2 ≤ m := by exact_mod_cast Nat.log2_self_le hm.ne'
  have hnext : (m : ℚ) + 1 ≤ 2 ^ (m.log2 + 1) := by exact_mod_cast Nat.lt_log2_self (n := m)
  apply le_antisymm
  · rw [← Int.lt_add_one_iff, ← Int.lt_zpow_iff_log_lt one_lt_two (mul_pos hx hpos),
      Nat.cast_ofNat, show (m.log2 : ℤ) + e + 1 = (m.log2 + 1 : ℕ) + e by push_cast; ring,
      zpow_add₀ two_ne_zero, zpow_natCast]
    exact mul_lt_mul_of_pos_right (hhigh.trans_le hnext) hpos
  · rw [← Int.zpow_le_iff_le_log one_lt_two (mul_pos hx hpos), Nat.cast_ofNat,
      zpow_add₀ two_ne_zero, zpow_natCast]
    exact mul_le_mul_of_nonneg_right (hself.trans hlow) hpos.le

/-- The exponent the shift aims at is that of the last place of the exact
value. -/
private theorem target_eq_ulpExponent {x : ℚ} {m : ℕ} {e : ℤ} (hx : 0 < x)
    (hfloor : ⌊x⌋ = (m : ℤ))
    (he : e ≤ format.targetExponent (totalExponent m e)) :
    format.targetExponent (totalExponent m e) = ulpExponent format (x * 2 ^ e) := by
  have hpos : (0 : ℚ) < 2 ^ e := zpow_pos two_pos e
  obtain ⟨hlow, hhigh⟩ := Int.floor_eq_iff.mp hfloor
  rw [ulpExponent, abs_of_pos (mul_pos hx hpos)]
  rw [targetExponent_eq] at he ⊢
  rcases Nat.eq_zero_or_pos m with rfl | hm
  · have hbits := format.hm
    have hlog : Int.log 2 (x * 2 ^ e) < e := by
      rw [← Int.lt_zpow_iff_log_lt one_lt_two (mul_pos hx hpos)]
      simpa using mul_lt_mul_of_pos_right hhigh hpos
    simp only [Nat.log2_zero] at he ⊢
    omega
  · rw [log_mul_zpow e hm (by exact_mod_cast hlow) (by exact_mod_cast hhigh)]

/-- The rounded significand has no more bits than the format or is the power of
two after them, and no fewer unless the exponent is the least one. -/
private theorem nearestEven_scaled_bounds {q : ℚ} (hq : 0 < q) :
    nearestEven (q / 2 ^ ulpExponent format q) ≤ 2 ^ format.mantissaBits ∧
      (2 ^ format.mantissaBitsWithoutImplicit ≤ nearestEven (q / 2 ^ ulpExponent format q) ∨
        ulpExponent format q = format.minExponent) := by
  have hpos : (0 : ℚ) < 2 ^ ulpExponent format q := zpow_pos two_pos _
  have hexp := ulpExponent_of_pos format hq
  constructor
  · have htop : q < 2 ^ (Int.log 2 q + 1) := Int.lt_zpow_succ_log_self one_lt_two q
    have hscaled : q / 2 ^ ulpExponent format q ≤ ((2 ^ format.mantissaBits : ℤ) : ℚ) := by
      rw [div_le_iff₀ hpos, Int.cast_pow, Int.cast_ofNat, ← zpow_natCast,
        ← zpow_add₀ two_ne_zero, Format.mantissaBits]
      refine htop.le.trans (zpow_le_zpow_right₀ one_le_two ?_)
      omega
    simpa only [nearestEven_intCast] using nearestEven_mono hscaled
  · rcases eq_or_ne (ulpExponent format q) format.minExponent with hleast | hleast
    · exact Or.inr hleast
    · left
      have hfoot : (2 : ℚ) ^ Int.log 2 q ≤ q := Int.zpow_log_le_self one_lt_two hq
      have hscaled : ((2 ^ format.mantissaBitsWithoutImplicit : ℤ) : ℚ) ≤
          q / 2 ^ ulpExponent format q := by
        rw [le_div_iff₀ hpos, Int.cast_pow, Int.cast_ofNat, ← zpow_natCast,
          ← zpow_add₀ two_ne_zero]
        refine le_trans (zpow_le_zpow_right₀ one_le_two ?_) hfoot
        omega
      simpa only [nearestEven_intCast] using nearestEven_mono hscaled

/-- A shift to an exponent that is `k` higher loses `k` bits. -/
private theorem shiftToTargetExponent_add {m k : ℕ} {e : ℤ} {accuracy : Accuracy}
    (h : format.targetExponent (totalExponent m e) = e + k) :
    shiftToTargetExponent format m e accuracy =
      (ExtendedMantissa.ofMantissaAndAccuracy m accuracy >>> k, e + k) := by
  have hamount : (format.targetExponent (totalExponent m e) - e).toNat = k := by omega
  rw [shiftToTargetExponent, shiftToExponent, hamount]

/-- A significand that is not too long is not shifted. -/
private theorem shift_within {r : ℕ} {t : ℤ} (hr : r < 2 ^ format.mantissaBits)
    (ht : format.minExponent ≤ t) :
    shiftToTargetExponent format r t .exact = (⟨r, false, false⟩, t) := by
  have hlog : r.log2 ≤ format.mantissaBitsWithoutImplicit := by
    rcases Nat.eq_zero_or_pos r with rfl | hpos
    · simp
    · rw [Format.mantissaBits, Nat.add_comm] at hr
      exact Nat.lt_succ_iff.mp ((Nat.log2_lt hpos.ne').mpr hr)
  have hnone : (format.targetExponent (totalExponent r t) - t).toNat = 0 := by
    rw [targetExponent_eq]
    omega
  rw [shiftToTargetExponent, shiftToExponent, hnone]
  simp [ExtendedMantissa.ofMantissaAndAccuracy, HShiftRight.hShiftRight, Nat.repeat]

/-- A significand that became a power of two, one bit too long, is halved. -/
private theorem shift_carry {t : ℤ} (ht : format.minExponent ≤ t) :
    shiftToTargetExponent format (2 ^ format.mantissaBits) t .exact =
      (⟨2 ^ format.mantissaBitsWithoutImplicit, false, false⟩, t + 1) := by
  rw [Format.mantissaBits, Nat.add_comm]
  set bits := format.mantissaBitsWithoutImplicit
  have hhalf : 2 ^ (bits + 1) / 2 = 2 ^ bits := by
    rw [pow_succ, Nat.mul_div_cancel _ two_pos]
  have heven : 2 ^ (bits + 1) % 2 = 0 := by
    rw [pow_succ, Nat.mul_mod_left]
  have hshift : (ExtendedMantissa.ofMantissaAndAccuracy (2 ^ (bits + 1)) .exact >>> 1) =
      ⟨2 ^ bits, false, false⟩ := by
    simp [ExtendedMantissa.ofMantissaAndAccuracy, HShiftRight.hShiftRight, Nat.repeat,
      ExtendedMantissa.shiftRightOne, hhalf, heven]
  have htarget : format.targetExponent (totalExponent (2 ^ (bits + 1)) t) = t + (1 : ℕ) := by
    rw [targetExponent_eq, Nat.log2_two_pow]
    omega
  exact (shiftToTargetExponent_add htarget).trans (Prod.ext hshift rfl)

/-! ## Rounding -/

/-- Rounding is a shift, the rounding of the significand, and another shift. -/
private theorem roundWithAccuracy_of_shifts (sign : Sign) {m r last : ℕ} {e t t' : ℤ}
    {accuracy : Accuracy} {em : ExtendedMantissa} {half rest : Bool}
    (hfirst : shiftToTargetExponent format m e accuracy = (em, t))
    (hr : em.roundedMantissa = r)
    (hsecond : shiftToTargetExponent format r t .exact = (⟨last, half, rest⟩, t')) :
    roundWithAccuracy format sign m e accuracy =
      if h : last = 0 then .zero sign else .finite sign last t' (Nat.pos_of_ne_zero h) := by
  simp only [roundWithAccuracy, hfirst, hr, hsecond]

def HasSign (sign : Sign) : UnpackedFloat → Prop
  | .zero s => s = sign
  | .finite s _ _ _ => s = sign
  | _ => False

theorem HasSign.isFinite {sign : Sign} {u : UnpackedFloat} (h : HasSign sign u) :
    u.isFinite = true := by
  cases u with
  | infinity _ => exact absurd h id
  | notANumber => exact absurd h id
  | zero _ => rfl
  | finite _ _ _ _ => rfl

theorem HasSign.exactValue_nonneg {u : UnpackedFloat} (h : HasSign .positive u) :
    0 ≤ exactValue u := by
  cases u with
  | infinity _ => exact absurd h id
  | notANumber => exact absurd h id
  | zero _ => exact le_rfl
  | finite s m e _ =>
      obtain rfl : s = .positive := h
      have hpos : (0 : ℚ) < 2 ^ e := zpow_pos two_pos e
      exact mul_nonneg (Int.cast_nonneg (Int.natCast_nonneg m)) hpos.le

/-- Rounding a positive magnitude gives the canonical form of the nearest
number.  The significand must have enough bits for its exponent. -/
theorem roundWithAccuracy_eq (sign : Sign) {m : ℕ} {e : ℤ} {accuracy : Accuracy} {x : ℚ}
    (hx : 0 < x) (htracks : Tracks (ExtendedMantissa.ofMantissaAndAccuracy m accuracy) x)
    (he : e ≤ format.targetExponent (totalExponent m e)) :
    let u := roundWithAccuracy format sign m e accuracy
    Canonical format u ∧ HasSign sign u ∧
      exactValue u = (sign.apply 1 : ℤ) * nearest format (x * 2 ^ e) := by
  have hfloor : ⌊x⌋ = (m : ℤ) := by
    rw [htracks.floor_eq]
    cases accuracy with
    | exact => rfl
    | inexact order => cases order <;> rfl
  have htarget := target_eq_ulpExponent hx hfloor he
  have hq : 0 < x * 2 ^ e := mul_pos hx (zpow_pos two_pos e)
  obtain ⟨hhigh, hlow⟩ := nearestEven_scaled_bounds hq
  set t := ulpExponent format (x * 2 ^ e) with ht
  have hleast : format.minExponent ≤ t := le_max_right _ _
  have hplaces : t = e + (t - e).toNat := by omega
  have hfirst : shiftToTargetExponent format m e accuracy =
      (ExtendedMantissa.ofMantissaAndAccuracy m accuracy >>> (t - e).toNat, t) := by
    rw [shiftToTargetExponent_add (htarget.trans hplaces), ← hplaces]
  have hscaled : x / 2 ^ (t - e).toNat = x * 2 ^ e / 2 ^ t := by
    rw [← zpow_natCast, Int.toNat_of_nonneg (by omega), zpow_sub₀ two_ne_zero]
    field_simp
  have hrounded := (htracks.shiftRight (t - e).toNat).roundedMantissa_eq
  rw [hscaled] at hrounded
  obtain ⟨r, hr⟩ : ∃ r : ℕ, (ExtendedMantissa.ofMantissaAndAccuracy m accuracy >>>
    (t - e).toNat).roundedMantissa = r := ⟨_, rfl⟩
  rw [hr] at hrounded
  have hvalue : nearest format (x * 2 ^ e) = r * 2 ^ t := by
    rw [nearest, ← ht, ← hrounded]
    push_cast
    rfl
  rw [← hrounded] at hhigh hlow
  norm_cast at hhigh hlow
  dsimp only
  rw [hvalue]
  rcases hhigh.lt_or_eq with hlt | rfl
  · rw [roundWithAccuracy_of_shifts sign hfirst hr (shift_within hlt hleast)]
    by_cases hzero : r = 0
    · rw [dif_pos hzero]
      simp [hzero, Canonical, HasSign, exactValue]
    · rw [dif_neg hzero]
      refine ⟨⟨hlt, hleast, hlow⟩, rfl, ?_⟩
      cases sign <;> simp [exactValue, Sign.apply]
  · have hdouble : 2 ^ format.mantissaBits = 2 ^ format.mantissaBitsWithoutImplicit * 2 := by
      rw [Format.mantissaBits, Nat.add_comm, pow_succ]
    have hpos := Nat.two_pow_pos format.mantissaBitsWithoutImplicit
    rw [roundWithAccuracy_of_shifts sign hfirst hr (shift_carry hleast), dif_neg hpos.ne']
    refine ⟨⟨by omega, by omega, Or.inl le_rfl⟩, rfl, ?_⟩
    rw [exactValue, zpow_add₀ two_ne_zero, hdouble]
    cases sign <;> simp [Sign.apply] <;> ring

private theorem log2_mul_two_pow {m : ℕ} (hm : 0 < m) (k : ℕ) :
    (m * 2 ^ k).log2 = m.log2 + k := by
  induction k with
  | zero => simp
  | succ k ih =>
      rw [pow_succ, ← mul_assoc, Nat.mul_comm, Nat.log2_two_mul (by positivity), ih]
      omega

/-- Rounding a signed significand gives the canonical form of the nearest
number, and the given zero for zero. -/
theorem normalize_eq (n e : ℤ) (zeroSign : Sign) :
    let u := UnpackedFloat.normalize format n e zeroSign
    Canonical format u ∧ u.isFinite = true ∧ exactValue u = nearest format (n * 2 ^ e) ∧
      (0 ≤ n → zeroSign = .positive → HasSign .positive u) := by
  have hround (sign : Sign) (m : ℕ) (hm : 0 < m) :
      let u := UnpackedFloat.round format sign m e
      Canonical format u ∧ HasSign sign u ∧
        exactValue u = (sign.apply 1 : ℤ) * nearest format (m * 2 ^ e) := by
    have hdecreased : ∃ k : ℕ, decreaseExponent m e
          (format.targetExponent (totalExponent m e)) = (m * 2 ^ k, e - k) ∧
        e - k ≤ format.targetExponent (totalExponent (m * 2 ^ k) (e - k)) := by
      refine ⟨(e - format.targetExponent (totalExponent m e)).toNat, ?_, ?_⟩
      · rw [decreaseExponent, Nat.shiftLeft_eq]
      · rw [targetExponent_eq, targetExponent_eq, log2_mul_two_pow hm]
        push_cast
        omega
    obtain ⟨k, hpair, hle⟩ := hdecreased
    have hexact := roundWithAccuracy_eq sign (x := (m * 2 ^ k : ℕ))
      (by exact_mod_cast Nat.mul_pos hm (Nat.two_pow_pos k)) (tracks_exact _) hle
    have hsame : ((m * 2 ^ k : ℕ) : ℚ) * 2 ^ (e - k) = m * 2 ^ e := by
      push_cast
      rw [zpow_sub₀ two_ne_zero, zpow_natCast]
      field_simp
    rw [hsame] at hexact
    simpa only [UnpackedFloat.round, hpair] using hexact
  rcases lt_trichotomy n 0 with hn | rfl | hn
  · obtain ⟨hcanonical, hsign, hvalue⟩ := hround .negative (-n).toNat (by omega)
    have hcast : (((-n).toNat : ℕ) : ℚ) = -n := by
      exact_mod_cast Int.toNat_of_nonneg (show 0 ≤ -n by omega)
    have hu : UnpackedFloat.normalize format n e zeroSign =
        UnpackedFloat.round format .negative (-n).toNat e := by
      rw [UnpackedFloat.normalize, compare_lt_iff_lt.mpr hn]
    rw [hcast, neg_mul, nearest_neg] at hvalue
    rw [hu]
    exact ⟨hcanonical, hsign.isFinite, by simpa [Sign.apply] using hvalue,
      fun h => absurd h (by omega)⟩
  · have hu : UnpackedFloat.normalize format 0 e zeroSign = .zero zeroSign := by
      rw [UnpackedFloat.normalize, compare_eq_iff_eq.mpr rfl]
    rw [hu]
    exact ⟨trivial, rfl, by simp [exactValue], fun _ h => h⟩
  · obtain ⟨hcanonical, hsign, hvalue⟩ := hround .positive n.toNat (by omega)
    have hcast : ((n.toNat : ℕ) : ℚ) = n := by
      exact_mod_cast Int.toNat_of_nonneg hn.le
    have hu : UnpackedFloat.normalize format n e zeroSign =
        UnpackedFloat.round format .positive n.toNat e := by
      rw [UnpackedFloat.normalize, compare_gt_iff_gt.mpr hn]
    rw [hcast] at hvalue
    rw [hu]
    exact ⟨hcanonical, hsign.isFinite, by simpa [Sign.apply] using hvalue, fun _ _ => hsign⟩

end StreetDogs.Binary
