import StreetDogs.Proofs.Binary64.Arithmetic

/-!
# Bit patterns

The patterns up to the one of positive infinity are those of the numbers from
positive zero upwards.
-/

namespace StreetDogs.Binary64

open Float.Model Float.Model.UnpackedFloat
open Binary

def infinityBits : ℕ := 0x7FF0000000000000

/-- Positive zero, a positive number or positive infinity. -/
def Upward (u : UnpackedFloat) : Prop := u = .infinity .positive ∨ HasSign .positive u

section Fields

variable (b : BitVec 64)

private theorem toNat_mantissa :
    (@unpackMantissa Format.binary64 b).toNat = b.toNat % 2 ^ 52 := by
  simp [unpackMantissa]

private theorem toNat_exponent :
    (@unpackExponent Format.binary64 b).toNat = b.toNat / 2 ^ 52 % 2 ^ 11 := by
  simp [unpackExponent, Nat.shiftRight_eq_div_pow]

private theorem toNat_sign :
    (@unpackSign Format.binary64 b).toNat = b.toNat / 2 ^ 63 := by
  have hb := b.isLt
  simp [unpackSign, Nat.shiftRight_eq_div_pow]
  omega

end Fields

private theorem ofBitVec_positive_iff (b : BitVec 1) :
    Sign.ofBitVec b = .positive ↔ b.toNat = 0 := by
  obtain rfl | rfl := BitVec.eq_zero_or_eq_one b
  · exact iff_of_true rfl rfl
  · exact iff_of_false nofun (by decide)

private theorem exponent_top_iff (b : BitVec 64) :
    @unpackExponent Format.binary64 b = -1#11 ↔ b.toNat / 2 ^ 52 % 2 ^ 11 = 2047 := by
  rw [← toNat_exponent, ← BitVec.toNat_inj]
  rfl

private theorem exponent_zero_iff (b : BitVec 64) :
    @unpackExponent Format.binary64 b = 0#11 ↔ b.toNat / 2 ^ 52 % 2 ^ 11 = 0 := by
  rw [← toNat_exponent, ← BitVec.toNat_inj]
  rfl

private theorem mantissa_zero_iff (b : BitVec 64) :
    @unpackMantissa Format.binary64 b = 0#52 ↔ b.toNat % 2 ^ 52 = 0 := by
  rw [← toNat_mantissa, ← BitVec.toNat_inj]
  rfl

/-- The patterns of the numbers from zero upwards are those up to infinity. -/
theorem upward_unpack_iff (b : BitVec 64) :
    Upward (UnpackedFloat.unpack Format.binary64 b) ↔ b.toNat ≤ infinityBits := by
  have hb := b.isLt
  have hsign : Sign.ofBitVec (@unpackSign Format.binary64 b) = .positive ↔
      b.toNat / 2 ^ 63 = 0 := by
    rw [ofBitVec_positive_iff, toNat_sign]
  have htop := exponent_top_iff b
  have hzero := exponent_zero_iff b
  have hmantissa := mantissa_zero_iff b
  rw [UnpackedFloat.unpack, infinityBits, Upward]
  dsimp only
  by_cases hone : b.toNat / 2 ^ 52 % 2 ^ 11 = 2047
  · rw [if_pos (htop.mpr hone)]
    by_cases hnone : b.toNat % 2 ^ 52 = 0
    · rw [if_pos (hmantissa.mpr hnone)]
      simp only [HasSign, infinity.injEq, or_false, hsign]
      omega
    · rw [if_neg (hmantissa.not.mpr hnone)]
      simp only [HasSign, or_false, reduceCtorEq, false_iff]
      omega
  · rw [if_neg (htop.not.mpr hone)]
    by_cases hsmall : b.toNat / 2 ^ 52 % 2 ^ 11 = 0
    · rw [if_pos (hzero.mpr hsmall)]
      split_ifs with hnone
      · simp only [HasSign, false_or, hsign]
        omega
      · simp only [HasSign, false_or, hsign]
        omega
    · rw [if_neg (hzero.not.mpr hsmall)]
      simp only [HasSign, reduceCtorEq, false_or, hsign]
      omega

theorem toBits_le_infinityBits {x : Float} (h : Upward (unpacked x)) :
    x.toBits.toNat ≤ infinityBits :=
  (upward_unpack_iff x.toBits.toBitVec).mp h

theorem upward_ofBits {bits : UInt64} (h : bits.toNat ≤ infinityBits) :
    Upward (unpacked (Float.ofBits bits)) := by
  have hupward := (upward_unpack_iff bits.toBitVec).mpr h
  obtain ⟨hcanonical, hfits⟩ := canonical_fits_unpack .binary64 (by decide) bits.toBitVec
  change Upward (Float.Model.pack _).unpack
  rwa [Float.Model.unpack, Float.Model.pack, unpack_pack hcanonical hfits]

/-- What rounds to a number above zero is a positive number or infinity. -/
theorem RoundsTo.upward {x : Float} {q : ℚ} (h : RoundsTo x q) (hq : 0 < nearest .binary64 q) :
    Upward (unpacked x) := by
  rcases lt_or_ge |nearest .binary64 q| (limit .binary64) with hin | hout
  · right
    obtain ⟨hfinite, hvalue⟩ := h.finite hin
    have hcases := finite_cases (u := unpacked x) hfinite
    rw [← hvalue, value] at hq
    generalize unpacked x = u at hcases hq
    obtain ⟨s, rfl⟩ | ⟨s, m, e, hm, rfl⟩ := hcases
    · exact absurd hq (lt_irrefl 0)
    · cases s with
      | positive => rfl
      | negative =>
          have hnonneg : (0 : ℚ) ≤ m * 2 ^ e :=
            mul_nonneg (Nat.cast_nonneg m) (zpow_pos two_pos e).le
          rw [exactValue_negative] at hq
          linarith
  · left
    rw [abs_of_pos hq] at hout
    exact h.above hout

end StreetDogs.Binary64
