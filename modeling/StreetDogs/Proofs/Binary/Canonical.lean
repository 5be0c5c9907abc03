import Mathlib

/-!
# Unpacked numbers

A number is unpacked into a sign, a significand and an exponent.  Canonical
numbers of a format have all its significant bits unless they are subnormal; a
canonical number in range survives packing, one above the range becomes
infinite, and every number that was packed unpacks to a canonical one.
-/

namespace StreetDogs.Binary

open Float.Model Float.Model.UnpackedFloat

variable {format : Format} {m : ℕ} {e : ℤ}

/-- The rational number an unpacked number stands for; zero if it is infinite
or no number. -/
def exactValue : UnpackedFloat → ℚ
  | .finite sign m e _ => (sign.apply m : ℤ) * 2 ^ e
  | _ => 0

theorem exactValue_zero (sign : Sign) : exactValue (.zero sign) = 0 := rfl

theorem exactValue_positive (e : ℤ) (hpos : 0 < m) :
    exactValue (.finite .positive m e hpos) = m * 2 ^ e := rfl

theorem exactValue_negative (e : ℤ) (hpos : 0 < m) :
    exactValue (.finite .negative m e hpos) = -(m * 2 ^ e) := by
  simp [exactValue, Sign.apply]

/-- The significand has all bits of the format, fewer only at the least
exponent. -/
def Canonical (format : Format) : UnpackedFloat → Prop
  | .finite _ m e _ => m < 2 ^ format.mantissaBits ∧ format.minExponent ≤ e ∧
      (2 ^ format.mantissaBitsWithoutImplicit ≤ m ∨ e = format.minExponent)
  | _ => True

/-- The exponent is not above the greatest one of the format. -/
def Fits (format : Format) : UnpackedFloat → Prop
  | .finite _ _ e _ => e + format.mantissaBits ≤ 2 ^ (format.exponentBits - 1)
  | _ => True

private def biased (format : Format) (e : ℤ) : ℤ :=
  e + format.exponentBias + format.mantissaBitsWithoutImplicit

private theorem biased_eq (format : Format) (e : ℤ) :
    biased format e = e - format.minExponent + 1 := by
  have hpower : 1 ≤ 2 ^ (format.exponentBits - 1) := Nat.one_le_two_pow
  rw [biased, Format.exponentBias, Format.minExponent, Format.mantissaBits, Nat.cast_sub hpower]
  push_cast
  ring

private theorem two_pow_exponentBits (format : Format) :
    (2 : ℤ) ^ format.exponentBits = 2 * 2 ^ (format.exponentBits - 1) := by
  rw [← pow_succ', Nat.sub_add_cancel format.he]

/-- A number fits as long as its exponent is none of those that mark infinite
ones. -/
private theorem fits_iff (sign : Sign) (hpos : 0 < m) :
    Fits format (.finite sign m e hpos) ↔ biased format e + 1 < 2 ^ format.exponentBits := by
  rw [Fits, biased_eq, two_pow_exponentBits, Format.minExponent]
  omega

/-- The significand of a normal number has its leading bit back. -/
private theorem toNat_leading {bits : ℕ} (fraction : BitVec bits) :
    (1#1 ++ fraction).toNat = 2 ^ bits + fraction.toNat := by
  rw [BitVec.toNat_append, ← Nat.shiftLeft_add_eq_or_of_lt fraction.isLt, Nat.shiftLeft_eq]
  simp

private theorem zero_ne_neg_one (format : Format) :
    BitVec.ofNat format.exponentBits 0 ≠ -BitVec.ofNat format.exponentBits 1 := by
  rw [ne_eq, BitVec.zero_eq_neg_one_iff]
  exact format.he.ne'

private theorem unpack_packedInfinity (format : Format) (sign : Sign) :
    UnpackedFloat.unpack format (packedInfinity format sign) = .infinity sign := by
  simp [packedInfinity, UnpackedFloat.unpack]

/-- A normal number is what its packed form unpacks to. -/
private theorem unpack_pack_normal (sign : Sign) (hpos : 0 < m)
    (hlow : 2 ^ format.mantissaBitsWithoutImplicit ≤ m) (hhigh : m < 2 ^ format.mantissaBits)
    (hleast : format.minExponent ≤ e) (hfits : Fits format (.finite sign m e hpos)) :
    UnpackedFloat.unpack format (UnpackedFloat.pack format (.finite sign m e hpos)) =
      .finite sign m e hpos := by
  rw [Format.mantissaBits, Nat.add_comm] at hhigh
  obtain ⟨stored, hstored⟩ : ∃ stored : ℕ, (stored : ℤ) = biased format e :=
    ⟨_, Int.toNat_of_nonneg (by rw [biased_eq]; omega)⟩
  have hone : 1 ≤ stored := by
    rw [biased_eq] at hstored
    omega
  have hin : stored + 1 < 2 ^ format.exponentBits := by
    rw [fits_iff, ← hstored] at hfits
    exact_mod_cast hfits
  have hlog : m.log2 + 1 = format.mantissaBits := by
    rw [(Nat.log2_eq_iff hpos.ne').mpr ⟨hlow, hhigh⟩, Format.mantissaBits, Nat.add_comm]
  have htoNat : (BitVec.ofNat format.exponentBits stored).toNat = stored := by
    rw [BitVec.toNat_ofNat, Nat.mod_eq_of_lt (by omega)]
  have hne_top : BitVec.ofNat format.exponentBits stored ≠ -1#_ := by
    intro h
    have hbits := congrArg BitVec.toNat h
    rw [htoNat, BitVec.neg_one_eq_allOnes, BitVec.toNat_allOnes] at hbits
    omega
  have hne_zero : BitVec.ofNat format.exponentBits stored ≠ 0#_ := by
    intro h
    have hbits := congrArg BitVec.toNat h
    rw [htoNat, BitVec.toNat_ofNat, Nat.zero_mod] at hbits
    omega
  have hm : (1#1 ++ BitVec.ofNat format.mantissaBitsWithoutImplicit m).toNat = m := by
    rw [toNat_leading, BitVec.toNat_ofNat, Nat.mod_eq_sub_mod hlow, Nat.mod_eq_of_lt (by omega)]
    omega
  rw [biased] at hstored
  rw [UnpackedFloat.pack, ← hstored, Int.toNat_natCast]
  simp only [hin.not_ge, hlog, if_false, if_true]
  rw [UnpackedFloat.unpack]
  simp only [unpackMantissa_packComponents, unpackExponent_packComponents,
    unpackSign_packComponents, Sign.ofBitVec_toBitVec, hne_top, hne_zero, if_false, htoNat, hm]
  congr 1
  omega

/-- A subnormal number is what its packed form unpacks to. -/
private theorem unpack_pack_subnormal (sign : Sign) (hpos : 0 < m)
    (hhigh : m < 2 ^ format.mantissaBitsWithoutImplicit)
    (hfits : Fits format (.finite sign m format.minExponent hpos)) :
    UnpackedFloat.unpack format
        (UnpackedFloat.pack format (.finite sign m format.minExponent hpos)) =
      .finite sign m format.minExponent hpos := by
  have hstored : (format.minExponent + format.exponentBias +
      format.mantissaBitsWithoutImplicit).toNat = 1 := by
    rw [← biased, biased_eq]
    omega
  have hin : 1 + 1 < 2 ^ format.exponentBits := by
    rw [fits_iff, biased_eq, sub_self] at hfits
    exact_mod_cast hfits
  have hlog : ¬ m.log2 + 1 = format.mantissaBits := by
    have hlt := (Nat.log2_lt hpos.ne').mpr hhigh
    rw [Format.mantissaBits]
    omega
  have hm : (BitVec.ofNat format.mantissaBitsWithoutImplicit m).toNat = m := by
    rw [BitVec.toNat_ofNat, Nat.mod_eq_of_lt hhigh]
  have hne_zero : BitVec.ofNat format.mantissaBitsWithoutImplicit m ≠ 0#_ := by
    intro h
    have hbits := congrArg BitVec.toNat h
    rw [hm, BitVec.toNat_ofNat, Nat.zero_mod] at hbits
    omega
  have hleast := biased_eq format format.minExponent
  rw [biased] at hleast
  rw [UnpackedFloat.pack, hstored]
  simp only [hin.not_ge, hlog, if_false]
  rw [UnpackedFloat.unpack]
  simp only [unpackMantissa_packComponents, unpackExponent_packComponents,
    unpackSign_packComponents, Sign.ofBitVec_toBitVec, zero_ne_neg_one format, hne_zero,
    if_false, if_true, dif_neg, not_false_eq_true, hm, BitVec.toNat_ofNat, Nat.zero_mod]
  congr 1
  omega

/-- A canonical number in range is what its packed form unpacks to. -/
theorem unpack_pack {u : UnpackedFloat} (hcanonical : Canonical format u) (hfits : Fits format u) :
    UnpackedFloat.unpack format (UnpackedFloat.pack format u) = u := by
  cases u with
  | infinity sign => exact unpack_packedInfinity format sign
  | notANumber => exact unpack_packedNaN
  | zero sign => exact unpack_packedZero
  | finite sign m e hpos =>
      obtain ⟨hhigh, hleast, hnormal⟩ := hcanonical
      by_cases hbits : 2 ^ format.mantissaBitsWithoutImplicit ≤ m
      · exact unpack_pack_normal sign hpos hbits hhigh hleast hfits
      · obtain rfl : e = format.minExponent := hnormal.resolve_left hbits
        exact unpack_pack_subnormal sign hpos (not_le.mp hbits) hfits

/-- A number above the range is packed as an infinite one. -/
theorem unpack_pack_overflow (sign : Sign) (hpos : 0 < m)
    (h : ¬ Fits format (.finite sign m e hpos)) :
    UnpackedFloat.unpack format (UnpackedFloat.pack format (.finite sign m e hpos)) =
      .infinity sign := by
  have hover : 2 ^ format.exponentBits ≤
      (e + format.exponentBias + format.mantissaBitsWithoutImplicit).toNat + 1 := by
    rw [fits_iff, not_lt, biased] at h
    zify
    exact h.trans (Int.add_le_add_right (Int.self_le_toNat _) 1)
  rw [UnpackedFloat.pack]
  simp only [hover, if_true]
  exact unpack_packedInfinity format sign

/-- Every bit pattern unpacks to a canonical number in range. -/
theorem canonical_fits_unpack (format : Format) (hbits : 1 < format.exponentBits)
    (b : BitVec format.numBits) :
    Canonical format (UnpackedFloat.unpack format b) ∧
      Fits format (UnpackedFloat.unpack format b) := by
  rw [UnpackedFloat.unpack]
  set fraction : BitVec format.mantissaBitsWithoutImplicit := @unpackMantissa format b
  set exponent : BitVec format.exponentBits := @unpackExponent format b
  have hfraction := fraction.isLt
  have hexponent : (exponent.toNat : ℤ) < 2 ^ format.exponentBits := by exact_mod_cast exponent.isLt
  have hpower := two_pow_exponentBits format
  have hhalf : (2 : ℤ) ≤ 2 ^ (format.exponentBits - 1) := le_self_pow₀ one_le_two (by omega)
  have hbias := biased_eq format 0
  rw [biased, zero_add] at hbias
  have hleast : format.minExponent + format.mantissaBits = 3 - 2 ^ (format.exponentBits - 1) := by
    rw [Format.minExponent]
    ring
  rw [hbias]
  by_cases htop : exponent = -1#_
  · rw [if_pos htop]
    split <;> exact ⟨trivial, trivial⟩
  rw [if_neg htop]
  have htop' : (exponent.toNat : ℤ) + 1 ≠ 2 ^ format.exponentBits := by
    intro h
    apply htop
    apply BitVec.eq_of_toNat_eq
    rw [BitVec.neg_one_eq_allOnes, BitVec.toNat_allOnes]
    have hnat : exponent.toNat + 1 = 2 ^ format.exponentBits := by exact_mod_cast h
    omega
  by_cases hzero : exponent = 0#_
  · rw [if_pos hzero]
    split
    · exact ⟨trivial, trivial⟩
    · simp only [Canonical, Fits, hzero, BitVec.toNat_ofNat, Nat.zero_mod, Format.mantissaBits,
        pow_add, pow_one] at hleast ⊢
      push_cast at hleast ⊢
      omega
  · rw [if_neg hzero]
    have hzero' : exponent.toNat ≠ 0 := fun h => hzero (BitVec.eq_of_toNat_eq (by simpa using h))
    simp only [Canonical, Fits, toNat_leading, Format.mantissaBits, pow_add, pow_one] at hleast ⊢
    push_cast at hleast ⊢
    omega

end StreetDogs.Binary
