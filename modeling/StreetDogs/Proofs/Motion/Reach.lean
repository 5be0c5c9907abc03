import StreetDogs.Motion.Turn
import StreetDogs.Proofs.Motion.Box

/-!
# Reach of a crossing road

The reach test compares a rounded difference with the half-width.  Near a whole
number the difference is exact, so the test is exact, and a coordinate that
passes it lies between the edges of the crossing road.
-/

namespace StreetDogs

open Binary Binary64

namespace Binary64

/-- A representable number has a multiple of two to the `e` as its value when
it is at least `2 ^ (e + 52)` in size. -/
private theorem exists_multiple_of_le {x : ℚ} (hx : Representable .binary64 x) {e : ℤ}
    (hlarge : (2 : ℚ) ^ (e + 52) ≤ |x|) : ∃ n : ℤ, x = n * 2 ^ e := by
  obtain ⟨m, f, hm, -, rfl⟩ := hx
  have hpos : (0 : ℚ) < 2 ^ f := zpow_pos two_pos f
  have hef : e ≤ f := by
    by_contra hlt
    have hbound : |(m : ℚ) * 2 ^ f| < 2 ^ (53 + f) := by
      rw [abs_mul, abs_of_pos hpos, zpow_add₀ two_ne_zero]
      exact mul_lt_mul_of_pos_right (by exact_mod_cast hm) hpos
    have hpower : (2 : ℚ) ^ (53 + f) ≤ 2 ^ (e + 52) :=
      zpow_le_zpow_right₀ one_le_two (by omega)
    linarith
  refine ⟨m * 2 ^ (f - e).toNat, ?_⟩
  push_cast
  rw [mul_assoc, ← zpow_natCast, ← zpow_add₀ two_ne_zero]
  congr 2
  omega

/-- The difference between a whole number and a representable number at most
one half away is representable. -/
theorem representable_intCast_sub {x : ℚ} (hx : Representable .binary64 x) (n : ℤ)
    (hclose : |n - x| ≤ 1 / 2) : Representable .binary64 (n - x) := by
  by_cases hn : n = 0
  · simpa [hn] using hx.neg
  have hone : (1 : ℚ) ≤ |(n : ℚ)| := by exact_mod_cast Int.one_le_abs hn
  have hhalf : (2 : ℚ) ^ (-53 + 52 : ℤ) ≤ |x| := by
    have htriangle : |(n : ℚ)| ≤ |n - x| + |x| := by
      simpa using abs_add_le ((n : ℚ) - x) x
    norm_num
    linarith
  obtain ⟨m, rfl⟩ := exists_multiple_of_le hx hhalf
  have hdifference : (n : ℚ) - m * 2 ^ (-53 : ℤ) = (n * 2 ^ 53 - m : ℤ) * 2 ^ (-53 : ℤ) := by
    push_cast
    norm_num
    ring
  rw [hdifference] at hclose ⊢
  refine ⟨_, _, ?_, by norm_num, rfl⟩
  have hpos : (0 : ℚ) < 2 ^ (-53 : ℤ) := zpow_pos two_pos _
  have hpower : (1 : ℚ) / 2 = 2 ^ 52 * 2 ^ (-53 : ℤ) := by norm_num
  rw [abs_mul, abs_of_pos hpos, hpower] at hclose
  have hscaled : |((n * 2 ^ 53 - m : ℤ) : ℚ)| ≤ 2 ^ 52 := le_of_mul_le_mul_right hclose hpos
  have hint : |n * 2 ^ 53 - m| ≤ 2 ^ 52 := by exact_mod_cast hscaled
  rw [mantissaBits_binary64]
  omega

/-- Rounding moves no difference between a whole and a representable number
across the half-width. -/
private theorem nearest_sub_le_iff {x : ℚ} (hx : Representable .binary64 x) (n : ℤ) :
    nearest .binary64 (n - x) ≤ halfWidthValue ↔ n - x ≤ halfWidthValue := by
  have hhalfWidth : nearest .binary64 halfWidthValue = halfWidthValue := nearest_value halfWidth
  constructor
  · intro h
    by_contra hlt
    rcases le_or_gt ((n : ℚ) - x) (1 / 2) with hclose | hfar
    · have hpos := halfWidthValue_nonneg
      rw [nearest_of_representable
        (representable_intCast_sub hx n (abs_le.mpr ⟨by linarith, hclose⟩))] at h
      exact hlt h
    · have hone : Representable .binary64 (1 / 2) := ⟨1, -1, by norm_num, by norm_num, by norm_num⟩
      have hmono : 1 / 2 ≤ nearest .binary64 (n - x) :=
        (nearest_of_representable hone).symm.trans_le (nearest_mono hfar.le)
      rw [halfWidthValue_eq] at h
      norm_num at h hmono
      linarith
  · intro h
    exact (nearest_mono h).trans_eq hhalfWidth

theorem abs_nearest_sub_le_iff {x : ℚ} (hx : Representable .binary64 x) (n : ℤ) :
    |nearest .binary64 (n - x)| ≤ halfWidthValue ↔ |n - x| ≤ halfWidthValue := by
  have hneg : nearest .binary64 (-n - -x) = -nearest .binary64 (n - x) := by
    rw [← nearest_neg]
    congr 1
    ring
  have habove := nearest_sub_le_iff hx n
  have hbelow := nearest_sub_le_iff hx.neg (-n)
  push_cast at hbelow
  rw [hneg] at hbelow
  rw [abs_le, abs_le, habove]
  constructor
  · rintro ⟨h, habove'⟩
    have := hbelow.mp (by linarith)
    exact ⟨by linarith, habove'⟩
  · rintro ⟨h, habove'⟩
    have := hbelow.mpr (by linarith)
    exact ⟨by linarith, habove'⟩

end Binary64

namespace Road

/-- The reach test is exact. -/
theorem inReach_iff (other : Road) {cross : Float} (hcross : cross.isFinite = true) :
    other.inReach cross = true ↔ |other.fixed.toInt - value cross| ≤ halfWidthValue := by
  obtain ⟨hfixed, hvalue⟩ := Coord.real_exact other.fixed
  have hrounds := sub_roundsTo hfixed hcross
  rw [hvalue] at hrounds
  rw [inReach, decide_eq_true_iff]
  by_cases hfinite : (Coord.real other.fixed - cross).isFinite = true
  · rw [le_iff (by rwa [isFinite_abs]) halfWidth_exact.1, value_abs, hrounds.value_eq hfinite]
    exact abs_nearest_sub_le_iff (representable_value cross) _
  · have hlimit : limit .binary64 ≤ |nearest .binary64 (other.fixed.toInt - value cross)| :=
      not_lt.mp fun h => hfinite (hrounds.isFinite_iff.mpr h)
    have hwide : halfWidthValue < limit .binary64 :=
      (le_abs_self _).trans_lt (abs_value_lt_limit halfWidth)
    rw [← abs_nearest_sub_le_iff (representable_value cross)]
    apply iff_of_false _ (by linarith)
    apply not_le_of_posInf _ halfWidth_exact.1
    rw [unpacked_abs]
    rcases le_abs.mp hlimit with habove | hbelow
    · rw [hrounds.above habove]
      rfl
    · rw [hrounds.below (by linarith)]
      rfl

/-- The reach test tells no two zeros apart, nor any other numbers of one value. -/
theorem inReach_congr (other : Road) {x y : Float} (hx : x.isFinite = true)
    (hy : y.isFinite = true) (h : value x = value y) :
    other.inReach x = true ↔ other.inReach y = true := by
  rw [inReach_iff other hx, inReach_iff other hy, h]

/-- A coordinate within reach of a road lies between its edges. -/
theorem within_of_inReach {other : Road} {cross : Float} (hcross : cross.isFinite = true)
    (h : other.inReach cross = true) : other.Within other.axis.perpendicular cross := by
  rw [inReach_iff other hcross, abs_le] at h
  rw [Within, extent_perpendicular]
  refine ⟨hcross, ?_, ?_⟩
  · rw [← nearest_value cross, lowEdge]
    apply nearest_mono
    linarith
  · rw [← nearest_value cross, highEdge]
    apply nearest_mono
    linarith

end Road

end StreetDogs
