import StreetDogs.Proofs.Binary.Arithmetic

/-!
# Arithmetic of binary64 numbers

Every operation on finite numbers gives the exact result rounded to the nearest
number, and an infinite one of the right sign where that is out of range.
-/

namespace StreetDogs.Binary64

open Float.Model Float.Model.UnpackedFloat
open Binary

@[simp]
theorem mantissaBits_binary64 : Format.binary64.mantissaBits = 53 := rfl

@[simp]
theorem minExponent_binary64 : Format.binary64.minExponent = -1074 := rfl

def unpacked (x : Float) : UnpackedFloat := x.toModel.unpack

/-- The rational number that a finite number stands for. -/
def value (x : Float) : ℚ := exactValue (unpacked x)

theorem isFinite_eq (x : Float) : x.isFinite = (unpacked x).isFinite := rfl

theorem canonical_unpacked (x : Float) : Canonical .binary64 (unpacked x) :=
  (canonical_fits_unpack .binary64 (by decide) x.toModel.toBits.toBitVec).1

theorem fits_unpacked (x : Float) : Fits .binary64 (unpacked x) :=
  (canonical_fits_unpack .binary64 (by decide) x.toModel.toBits.toBitVec).2

theorem representable_value (x : Float) : Representable .binary64 (value x) :=
  representable_exactValue (canonical_unpacked x)

/-- A number is its own rounding. -/
@[simp]
theorem nearest_value (x : Float) : nearest .binary64 (value x) = value x :=
  nearest_of_representable (representable_value x)

theorem abs_value_lt_limit (x : Float) : |value x| < limit .binary64 :=
  (fits_iff_abs_lt (by decide) (canonical_unpacked x)).mp (fits_unpacked x)

/-- A positive number is known by its significand and its exponent. -/
theorem exact_of_unpacked {x : Float} {m : ℕ} {e : ℤ} (hpos : 0 < m)
    (h : unpacked x = .finite .positive m e hpos) :
    x.isFinite = true ∧ value x = m * 2 ^ e := by
  rw [isFinite_eq, value, h]
  exact ⟨rfl, rfl⟩

/-- The number is `q` rounded to the nearest one, infinite if that is out of
range. -/
structure RoundsTo (x : Float) (q : ℚ) : Prop where
  finite : |nearest .binary64 q| < limit .binary64 →
    x.isFinite = true ∧ value x = nearest .binary64 q
  above : limit .binary64 ≤ nearest .binary64 q → unpacked x = .infinity .positive
  below : nearest .binary64 q ≤ -limit .binary64 → unpacked x = .infinity .negative

/-- Packing the canonical form of a rounded number rounds to it. -/
theorem roundsTo_of_pack {u : UnpackedFloat} {q : ℚ} (h : Rounded .binary64 u q) {x : Float}
    (hx : x.toModel = Float.Model.pack u) : RoundsTo x q := by
  have hlimit := limit_pos .binary64
  have hpacked : unpacked x =
      UnpackedFloat.unpack .binary64 (UnpackedFloat.pack .binary64 u) := by
    rw [unpacked, hx, Float.Model.unpack, Float.Model.pack]
  constructor
  · intro hq
    rw [h.unpack_pack (by decide) hq] at hpacked
    rw [isFinite_eq, value, hpacked]
    exact ⟨h.isFinite, h.value_eq⟩
  · intro hq
    rw [hpacked, h.unpack_pack_overflow (by decide) (hq.trans (le_abs_self _)),
      if_pos (hlimit.trans_le hq)]
  · intro hq
    have habs : limit .binary64 ≤ |nearest .binary64 q| :=
      (le_neg_of_le_neg hq).trans (neg_le_abs _)
    rw [hpacked, h.unpack_pack_overflow (by decide) habs, if_neg (by linarith)]

theorem RoundsTo.isFinite_iff {x : Float} {q : ℚ} (h : RoundsTo x q) :
    x.isFinite = true ↔ |nearest .binary64 q| < limit .binary64 := by
  constructor
  · intro hx
    by_contra hq
    rw [isFinite_eq] at hx
    rcases le_abs.mp (not_lt.mp hq) with habove | hbelow
    · rw [h.above habove] at hx
      exact absurd hx Bool.false_ne_true
    · rw [h.below (by linarith)] at hx
      exact absurd hx Bool.false_ne_true
  · intro hq
    exact (h.finite hq).1

theorem RoundsTo.value_eq {x : Float} {q : ℚ} (h : RoundsTo x q) (hx : x.isFinite = true) :
    value x = nearest .binary64 q :=
  (h.finite (h.isFinite_iff.mp hx)).2

/-- A representable number in range is reached exactly. -/
theorem RoundsTo.exact {x : Float} {q : ℚ} (h : RoundsTo x q) (hq : Representable .binary64 q)
    (hbound : |q| < limit .binary64) : x.isFinite = true ∧ value x = q := by
  have hround := nearest_of_representable hq
  rw [← hround] at hbound
  have hfinite := h.finite hbound
  rwa [hround] at hfinite

theorem abs_lt_limit_of_abs_lt {q : ℚ} (hq : |q| < 2 ^ 53) : |q| < limit .binary64 :=
  hq.trans_le (by exact_mod_cast two_zpow_le_limit (e := 53) (by norm_num))

theorem RoundsTo.exact_intCast {x : Float} {n : ℤ} (h : RoundsTo x n) (hn : |n| < 2 ^ 53) :
    x.isFinite = true ∧ value x = n :=
  h.exact (representable_intCast hn) (abs_lt_limit_of_abs_lt (by exact_mod_cast hn))

theorem RoundsTo.exact_natCast {x : Float} {n : ℕ} (h : RoundsTo x n) (hn : n < 2 ^ 53) :
    x.isFinite = true ∧ value x = n := by
  have hint : RoundsTo x (n : ℤ) := by rwa [Int.cast_natCast]
  have hexact := hint.exact_intCast (by rw [Nat.abs_cast]; exact_mod_cast hn)
  rwa [Int.cast_natCast] at hexact

/-- What lies below a representable number in range does not overflow. -/
theorem RoundsTo.isFinite_of_abs_le {x : Float} {q bound : ℚ} (h : RoundsTo x q)
    (hbound : Representable .binary64 bound) (hlimit : bound < limit .binary64) (hq : |q| ≤ bound) :
    x.isFinite = true := by
  obtain ⟨hlow, hhigh⟩ := abs_le.mp hq
  have hround := nearest_of_representable hbound
  have hbelow : -bound ≤ nearest .binary64 q := by
    rw [← hround, ← nearest_neg]
    exact nearest_mono hlow
  have habove : nearest .binary64 q ≤ bound := by
    rw [← hround]
    exact nearest_mono hhigh
  exact h.isFinite_iff.mpr ((abs_le.mpr ⟨hbelow, habove⟩).trans_lt hlimit)

/-- What was rounded is finite unless it is infinite. -/
theorem RoundsTo.isFinite_of_not_isInf {x : Float} {q : ℚ} (h : RoundsTo x q)
    (hinf : ¬ x.isInf = true) : x.isFinite = true := by
  have hunpacked : x.isInf = (unpacked x).isInf := rfl
  rw [hunpacked] at hinf
  by_contra hx
  rw [h.isFinite_iff, not_lt, le_abs] at hx
  rcases hx with habove | hbelow
  · exact hinf (by rw [h.above habove]; rfl)
  · exact hinf (by rw [h.below (by linarith)]; rfl)

section Operations

variable {x y : Float}

theorem add_roundsTo (hx : x.isFinite = true) (hy : y.isFinite = true) :
    RoundsTo (x + y) (value x + value y) :=
  roundsTo_of_pack (.add (canonical_unpacked x) (canonical_unpacked y) hx hy) rfl

theorem sub_roundsTo (hx : x.isFinite = true) (hy : y.isFinite = true) :
    RoundsTo (x - y) (value x - value y) :=
  roundsTo_of_pack (.sub (canonical_unpacked x) (canonical_unpacked y) hx hy) rfl

theorem mul_roundsTo (hx : x.isFinite = true) (hy : y.isFinite = true) :
    RoundsTo (x * y) (value x * value y) :=
  roundsTo_of_pack (.mul (canonical_unpacked x) (canonical_unpacked y) hx hy) rfl

theorem div_roundsTo (hx : x.isFinite = true) (hy : y.isFinite = true) (hne : value y ≠ 0) :
    RoundsTo (x / y) (value x / value y) :=
  roundsTo_of_pack (.div hx hy hne) rfl

end Operations

end StreetDogs.Binary64
