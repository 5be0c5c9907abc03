import StreetDogs.Proofs.Binary.Arithmetic

/-!
# Products of binary32 numbers

A product is rounded to the nearest number, and the whole part of a number is
what is left without the fraction.  A product without its fraction is therefore
not below the whole part of the exact one.
-/

namespace StreetDogs.Binary32

open Float.Model Float.Model.UnpackedFloat
open Binary

def unpacked (x : Float32) : UnpackedFloat := x.toModel.unpack

/-- The rational number that a finite number stands for. -/
def value (x : Float32) : ℚ := exactValue (unpacked x)

theorem isFinite_eq (x : Float32) : x.isFinite = (unpacked x).isFinite := rfl

theorem canonical_unpacked (x : Float32) : Canonical .binary32 (unpacked x) :=
  (canonical_fits_unpack .binary32 (by decide) x.toModel.toBits.toBitVec).1

/-- A positive number is known by its significand and its exponent. -/
theorem exact_of_unpacked {x : Float32} {m : ℕ} {e : ℤ} (hpos : 0 < m)
    (h : unpacked x = .finite .positive m e hpos) :
    x.isFinite = true ∧ value x = m * 2 ^ e := by
  rw [isFinite_eq, value, h]
  exact ⟨rfl, rfl⟩

/-- Up to 24 bits before the point a rounded number stays in range when it is
packed. -/
theorem exact_of_pack {u : UnpackedFloat} {q : ℚ} (h : Rounded .binary32 u q) {x : Float32}
    (hx : x.toModel = Float32.Model.pack u) (hq : 0 ≤ q) (hle : q ≤ 2 ^ 24) :
    x.isFinite = true ∧ value x = nearest .binary32 q := by
  have htop : nearest .binary32 (2 ^ 24) = 2 ^ 24 :=
    nearest_of_representable ⟨1, 24, by decide, by decide, by norm_num⟩
  have hlimit : |nearest .binary32 q| < limit .binary32 := by
    rw [abs_of_nonneg (nearest_nonneg hq)]
    calc
      nearest .binary32 q ≤ 2 ^ 24 := (nearest_mono hle).trans_eq htop
      _ < 2 ^ (25 : ℤ) := by norm_num
      _ ≤ limit .binary32 := two_zpow_le_limit (by decide)
  have hpacked : unpacked x =
      UnpackedFloat.unpack .binary32 (UnpackedFloat.pack .binary32 u) := by
    rw [unpacked, hx, Float32.Model.unpack, Float32.Model.pack]
  rw [h.unpack_pack (by decide) hlimit] at hpacked
  rw [isFinite_eq, value, hpacked]
  exact ⟨h.isFinite, h.value_eq⟩

variable {x y : Float32}

theorem mul_nearest (hx : x.isFinite = true) (hy : y.isFinite = true)
    (hnonneg : 0 ≤ value x * value y) (hle : value x * value y ≤ 2 ^ 24) :
    (x * y).isFinite = true ∧ value (x * y) = nearest .binary32 (value x * value y) :=
  exact_of_pack (.mul (canonical_unpacked x) (canonical_unpacked y) hx hy) rfl hnonneg hle

private theorem nearest_natCast {n : ℕ} (hn : n < 2 ^ 24) : nearest .binary32 n = n := by
  have hint : |(n : ℤ)| < 2 ^ Format.binary32.mantissaBits := by
    rw [Nat.abs_cast]
    exact_mod_cast hn
  exact_mod_cast nearest_of_representable (representable_intCast hint)

/-- Whole numbers of up to 24 bits are converted exactly. -/
theorem toFloat32_exact {n : UInt64} (hn : n.toNat < 2 ^ 24) :
    n.toFloat32.isFinite = true ∧ value n.toFloat32 = n.toNat := by
  have hrounded : Rounded .binary32 (UnpackedFloat.ofUInt64 .binary32 n) n.toNat := by
    have hnormalized := Rounded.normalize .binary32 n.toNat 0 .positive
    rwa [zpow_zero, mul_one, Int.cast_natCast] at hnormalized
  have hexact := exact_of_pack hrounded (x := n.toFloat32) rfl (by positivity)
    (by exact_mod_cast hn.le)
  rwa [nearest_natCast hn] at hexact

private theorem one_exact : (1.0 : Float32).isFinite = true ∧ value 1.0 = 1 := by
  have h := exact_of_unpacked (x := 1.0) (m := 2 ^ 23) (e := -23) (by decide) rfl
  norm_num at h ⊢
  exact h

/-- Whole numbers of up to 23 bits are converted exactly, by a table of powers of ten. -/
theorem ofNat_exact {n : ℕ} (hn : n < 2 ^ 23) :
    (Float32.ofNat n).isFinite = true ∧ value (Float32.ofNat n) = n := by
  have htoNat : n.toUInt64.toNat = n := by
    rw [Nat.toUInt64, UInt64.toNat_ofNat', Nat.mod_eq_of_lt (by omega)]
  obtain ⟨hfinite, hvalue⟩ := toFloat32_exact (n := n.toUInt64) (by omega)
  have hproduct : value n.toUInt64.toFloat32 * value 1.0 = n := by
    rw [hvalue, one_exact.2, htoNat, mul_one]
  change (Float32.ofScientific n false 0).isFinite = true ∧
    value (Float32.ofScientific n false 0) = n
  rw [Float32.ofScientific, dif_pos ⟨hn, by decide⟩]
  change (n.toUInt64.toFloat32 * 1.0).isFinite = true ∧ value (n.toUInt64.toFloat32 * 1.0) = n
  have hmul := mul_nearest hfinite one_exact.1 (by rw [hproduct]; positivity)
    (by rw [hproduct]; exact_mod_cast (show n ≤ 2 ^ 24 by omega))
  rwa [hproduct, nearest_natCast (by omega)] at hmul

/-- The bits behind the point are shifted out. -/
private theorem roundToInt_eq_floor (m : ℕ) (e : ℤ) :
    roundToInt .positive m e = ⌊(m : ℚ) * 2 ^ e⌋ := by
  obtain ⟨whole, hwhole⟩ : ∃ whole : ℕ, (e - 0).toNat = whole := ⟨_, rfl⟩
  obtain ⟨places, hplaces⟩ : ∃ places : ℕ, (0 - (e - whole)).toNat = places := ⟨_, rfl⟩
  have he : e = whole - places := by omega
  have htracks := (tracks_exact (m * 2 ^ whole)).shiftRight places
  have hscaled : ((m * 2 ^ whole : ℕ) : ℚ) / 2 ^ places = m * 2 ^ e := by
    rw [he, zpow_sub₀ two_ne_zero, zpow_natCast, zpow_natCast]
    push_cast
    ring
  rw [roundToInt, decreaseExponent, hwhole, Nat.shiftLeft_eq]
  simp only [shiftToExponent, hplaces]
  rw [← hscaled, htracks.floor_eq]
  rfl

/-- Without its fraction, a number from zero upwards is its whole part. -/
theorem toNat_toUInt64 (hx : x.isFinite = true) (hnonneg : 0 ≤ value x)
    (hlt : value x < 2 ^ 64) : (x.toUInt64.toNat : ℤ) = ⌊value x⌋ := by
  have hfloor : 0 ≤ ⌊value x⌋ := Int.floor_nonneg.mpr hnonneg
  have hbound : ⌊value x⌋ < 2 ^ 64 := Int.floor_lt.mpr (by exact_mod_cast hlt)
  have hconvert : x.toUInt64 = UInt64.ofNatClamp ⌊value x⌋.toNat := by
    change UnpackedFloat.toUInt64 (unpacked x) = _
    rw [value] at hnonneg ⊢
    obtain ⟨s, hs⟩ | ⟨s, m, e, hm, hs⟩ := finite_cases (u := unpacked x) hx
    · rw [hs, exactValue_zero, Int.floor_zero]
      rfl
    · rw [hs] at hnonneg ⊢
      cases s with
      | positive =>
          rw [exactValue_positive, ← roundToInt_eq_floor]
          rfl
      | negative =>
          have hpos : (0 : ℚ) < m * 2 ^ e := mul_pos (by exact_mod_cast hm) (zpow_pos two_pos e)
          rw [exactValue_negative] at hnonneg
          linarith
  rw [hconvert, UInt64.ofNatClamp_eq_ofNat _ (by simp [UInt64.size]; omega),
    UInt64.toNat_ofNat', Nat.mod_eq_of_lt (by omega), Int.toNat_of_nonneg hfloor]

/-- A product without its fraction is not below the whole part of the exact one,
and above the exact one by at most one in the last of 24 places. -/
theorem toNat_mul_bounds (hx : x.isFinite = true) (hy : y.isFinite = true)
    (hone : 1 ≤ value x * value y) (hlt : value x * value y < 2 ^ 24) :
    ⌊value x * value y⌋ ≤ ((x * y).toUInt64.toNat : ℤ) ∧
      ((x * y).toUInt64.toNat : ℚ) ≤ value x * value y * (1 + 1 / 2 ^ 23) := by
  have hpos := zero_lt_one.trans_le hone
  obtain ⟨hfinite, hnearest⟩ := mul_nearest hx hy hpos.le hlt.le
  have hlog : 0 ≤ Int.log 2 (value x * value y) := by
    rwa [← Int.zpow_le_iff_le_log one_lt_two hpos, zpow_zero]
  have habove : nearest .binary32 (value x * value y) ≤ value x * value y * (1 + 1 / 2 ^ 23) :=
    nearest_le_mul hpos (by
      change -149 ≤ Int.log 2 (value x * value y) - (23 : ℕ)
      omega)
  have hnonneg : 0 ≤ value (x * y) := hnearest ▸ nearest_nonneg hpos.le
  have htruncated := toNat_toUInt64 hfinite hnonneg (by rw [hnearest]; linarith)
  rw [hnearest] at htruncated
  constructor
  · rw [htruncated, Int.le_floor]
    exact floor_le_nearest hpos.le hlt
  · calc
      ((x * y).toUInt64.toNat : ℚ) = (⌊nearest .binary32 (value x * value y)⌋ : ℤ) := by
        rw [← htruncated, Int.cast_natCast]
      _ ≤ nearest .binary32 (value x * value y) := Int.floor_le _
      _ ≤ value x * value y * (1 + 1 / 2 ^ 23) := habove

end StreetDogs.Binary32
