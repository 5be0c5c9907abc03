import StreetDogs.Road
import StreetDogs.Proofs.Binary64.Arithmetic

/-!
# Order of binary64 numbers

Finite numbers are ordered as the rational numbers they stand for, infinite
ones lie beyond them, and what is no number is comparable with nothing.
Clamping to finite bounds is the clamping of rational numbers.
-/

namespace StreetDogs.Binary64

open Float.Model Float.Model.UnpackedFloat
open Binary

private theorem compare_magnitudes {m n : ℕ} {e f : ℤ} (hm : m < 2 ^ 53) (hn : n < 2 ^ 53)
    (hem : 2 ^ 52 ≤ m ∨ e = -1074) (hfn : 2 ^ 52 ≤ n ∨ f = -1074) (he : -1074 ≤ e)
    (hf : -1074 ≤ f) :
    (compare e f).then (compare m n) = compare ((m : ℚ) * 2 ^ e) (n * 2 ^ f) := by
  have hstep {k l : ℕ} {a b : ℤ} (hk : k < 2 ^ 53) (hl : 2 ^ 52 ≤ l) (hab : a < b) :
      (k : ℚ) * 2 ^ a < l * 2 ^ b := by
    calc
      (k : ℚ) * 2 ^ a < 2 ^ 53 * 2 ^ a :=
        mul_lt_mul_of_pos_right (by exact_mod_cast hk) (zpow_pos two_pos a)
      _ = 2 ^ 52 * 2 ^ (a + 1) := by rw [zpow_add₀ two_ne_zero]; ring
      _ ≤ 2 ^ 52 * 2 ^ b := by
        apply mul_le_mul_of_nonneg_left _ (by positivity)
        exact zpow_le_zpow_right₀ one_le_two (by omega)
      _ ≤ l * 2 ^ b :=
        mul_le_mul_of_nonneg_right (by exact_mod_cast hl) (zpow_pos two_pos b).le
  rcases lt_trichotomy e f with hlt | rfl | hgt
  · rw [compare_lt_iff_lt.mpr hlt, compare_lt_iff_lt.mpr (hstep hm (by omega) hlt)]
    rfl
  · have hpos : (0 : ℚ) < 2 ^ e := zpow_pos two_pos e
    rw [compare_eq_iff_eq.mpr rfl]
    rcases lt_trichotomy m n with hlt | rfl | hgt
    · rw [compare_lt_iff_lt.mpr hlt, compare_lt_iff_lt.mpr
        (mul_lt_mul_of_pos_right (by exact_mod_cast hlt) hpos)]
      rfl
    · rw [compare_eq_iff_eq.mpr rfl, compare_eq_iff_eq.mpr rfl]
      rfl
    · rw [compare_gt_iff_gt.mpr hgt, compare_gt_iff_gt.mpr
        (mul_lt_mul_of_pos_right (by exact_mod_cast hgt) hpos)]
      rfl
  · rw [compare_gt_iff_gt.mpr hgt, compare_gt_iff_gt.mpr (hstep hn (by omega) hgt)]
    rfl

private theorem swap_compare_neg (a b : ℚ) : (compare a b).swap = compare (-a) (-b) := by
  rcases lt_trichotomy a b with hlt | rfl | hgt
  · rw [compare_lt_iff_lt.mpr hlt, compare_gt_iff_gt.mpr (neg_lt_neg hlt)]
    rfl
  · rw [compare_eq_iff_eq.mpr rfl, compare_eq_iff_eq.mpr rfl]
    rfl
  · rw [compare_gt_iff_gt.mpr hgt, compare_lt_iff_lt.mpr (neg_lt_neg hgt)]
    rfl

/-- Canonical finite numbers compare as their values. -/
theorem compare_eq {u v : UnpackedFloat} (hu : Canonical .binary64 u)
    (hv : Canonical .binary64 v)
    (hu' : u.isFinite = true) (hv' : v.isFinite = true) :
    u.compare v = some (compare (exactValue u) (exactValue v)) := by
  have hpos {m : ℕ} {e : ℤ} (hm : 0 < m) : (0 : ℚ) < m * 2 ^ e :=
    mul_pos (by exact_mod_cast hm) (zpow_pos two_pos e)
  obtain ⟨s, rfl⟩ | ⟨s, m, e, hm, rfl⟩ := finite_cases hu' <;>
    obtain ⟨t, rfl⟩ | ⟨t, n, f, hn, rfl⟩ := finite_cases hv'
  · rw [exactValue_zero, exactValue_zero, compare_eq_iff_eq.mpr rfl]
    rfl
  · cases t
    · rw [exactValue_zero, exactValue_negative, compare_gt_iff_gt.mpr (neg_neg_of_pos (hpos hn))]
      rfl
    · rw [exactValue_zero, exactValue_positive, compare_lt_iff_lt.mpr (hpos hn)]
      rfl
  · cases s
    · rw [exactValue_zero, exactValue_negative, compare_lt_iff_lt.mpr (neg_neg_of_pos (hpos hm))]
      rfl
    · rw [exactValue_zero, exactValue_positive, compare_gt_iff_gt.mpr (hpos hm)]
      rfl
  · have hmagnitudes := compare_magnitudes hu.1 hv.1 hu.2.2 hv.2.2 hu.2.1 hv.2.1
    cases s <;> cases t
    · rw [exactValue_negative, exactValue_negative, ← swap_compare_neg, ← hmagnitudes]
      rfl
    · rw [exactValue_negative, exactValue_positive,
        compare_lt_iff_lt.mpr ((neg_neg_of_pos (hpos hm)).trans (hpos hn))]
      rfl
    · rw [exactValue_positive, exactValue_negative,
        compare_gt_iff_gt.mpr ((neg_neg_of_pos (hpos hn)).trans (hpos hm))]
      rfl
    · rw [exactValue_positive, exactValue_positive, ← hmagnitudes]
      rfl

section Order

variable {x y : Float}

theorem lt_iff_compare : x < y ↔ (unpacked x).compare (unpacked y) = some .lt := by
  change decide (x.toModel.lt y.toModel = true) = true ↔ _
  rw [decide_eq_true_iff]
  exact beq_iff_eq

theorem le_iff_compare :
    x ≤ y ↔ ((unpacked x).compare (unpacked y)).any (·.isLE) = true := by
  change decide (x.toModel.le y.toModel = true) = true ↔ _
  rw [decide_eq_true_iff]
  rfl

theorem beq_iff_compare :
    (x == y) = true ↔ (unpacked x).compare (unpacked y) = some .eq := by
  change ((unpacked x).compare (unpacked y) == some .eq) = true ↔ _
  exact beq_iff_eq

private theorem compare_unpacked (hx : x.isFinite = true) (hy : y.isFinite = true) :
    (unpacked x).compare (unpacked y) = some (compare (value x) (value y)) :=
  compare_eq (canonical_unpacked x) (canonical_unpacked y) hx hy

theorem lt_iff (hx : x.isFinite = true) (hy : y.isFinite = true) : x < y ↔ value x < value y := by
  rw [lt_iff_compare, compare_unpacked hx hy, Option.some.injEq, compare_lt_iff_lt]

theorem le_iff (hx : x.isFinite = true) (hy : y.isFinite = true) : x ≤ y ↔ value x ≤ value y := by
  rw [le_iff_compare, compare_unpacked hx hy, Option.any_some, ← compare_le_iff_le]
  cases compare (value x) (value y) <;> decide

theorem beq_iff (hx : x.isFinite = true) (hy : y.isFinite = true) :
    (x == y) = true ↔ value x = value y := by
  rw [beq_iff_compare, compare_unpacked hx hy, Option.some.injEq, compare_eq_iff_eq]

/-- A number that is not finite is no number or infinite. -/
theorem not_finite_cases (hx : ¬ x.isFinite = true) :
    unpacked x = .notANumber ∨ ∃ s, unpacked x = .infinity s := by
  rw [isFinite_eq] at hx
  cases hu : unpacked x with
  | infinity s => exact Or.inr ⟨s, rfl⟩
  | notANumber => exact Or.inl rfl
  | zero s => exact absurd rfl (hu ▸ hx)
  | finite s m e hm => exact absurd rfl (hu ▸ hx)

private theorem compare_infinity (hx : x.isFinite = true) {s : Sign}
    (hy : unpacked y = .infinity s) :
    (unpacked x).compare (unpacked y) =
      some (match s with
        | .positive => .lt
        | .negative => .gt) := by
  have hcases := finite_cases (u := unpacked x) hx
  generalize unpacked x = u at hcases
  simp only [hy]
  obtain ⟨t, rfl⟩ | ⟨t, m, e, hm, rfl⟩ := hcases <;> cases s <;> cases t <;> rfl

/-- Finite numbers lie below positive infinity. -/
theorem lt_of_posInf (hx : x.isFinite = true) (hy : unpacked y = .infinity .positive) :
    x < y := by
  rw [lt_iff_compare, compare_infinity hx hy]

/-- Finite numbers lie above negative infinity. -/
theorem lt_of_negInf (hx : unpacked x = .infinity .negative) (hy : y.isFinite = true) :
    x < y := by
  have hcases := finite_cases (u := unpacked y) hy
  rw [lt_iff_compare]
  generalize unpacked y = v at hcases
  rw [hx]
  obtain ⟨t, rfl⟩ | ⟨t, n, f, hn, rfl⟩ := hcases <;> rfl

theorem not_le_of_posInf (hx : unpacked x = .infinity .positive) (hy : y.isFinite = true) :
    ¬ x ≤ y := by
  have hcases := finite_cases (u := unpacked y) hy
  rw [le_iff_compare]
  generalize unpacked y = v at hcases
  rw [hx]
  obtain ⟨t, rfl⟩ | ⟨t, n, f, hn, rfl⟩ := hcases <;> exact Bool.false_ne_true

/-- Only finite numbers are equal to a finite one. -/
theorem isFinite_of_beq (hx : x.isFinite = true) (h : (x == y) = true) : y.isFinite = true := by
  by_contra hy
  rw [beq_iff_compare] at h
  obtain hnan | ⟨s, hinf⟩ := not_finite_cases hy
  · rw [hnan] at h
    cases hu : unpacked x <;> rw [hu] at h <;> cases h
  · rw [compare_infinity hx hinf] at h
    cases s <;> cases h

end Order

/-! ## Clamping -/

section Clamp

variable {low high x : Float}

/-- Clamping to finite bounds takes the value between the bounds. -/
theorem clampTo_finite (hlow : low.isFinite = true) (hhigh : high.isFinite = true)
    (hx : x.isFinite = true) (hle : value low ≤ value high) :
    (clampTo low high x).isFinite = true ∧
      value (clampTo low high x) = max (value low) (min (value high) (value x)) := by
  rw [clampTo]
  split_ifs with hbelow habove
  · rw [lt_iff hx hlow] at hbelow
    exact ⟨hlow, (max_eq_left ((min_le_right _ _).trans hbelow.le)).symm⟩
  · rw [lt_iff hhigh hx] at habove
    rw [min_eq_left habove.le, max_eq_right hle]
    exact ⟨hhigh, rfl⟩
  · rw [lt_iff hx hlow, not_lt] at hbelow
    rw [lt_iff hhigh hx, not_lt] at habove
    rw [min_eq_right habove, max_eq_right hbelow]
    exact ⟨hx, rfl⟩

theorem clampTo_of_mem (hlow : low.isFinite = true) (hhigh : high.isFinite = true)
    (hx : x.isFinite = true) (hbelow : value low ≤ value x) (habove : value x ≤ value high) :
    clampTo low high x = x := by
  rw [clampTo]
  rw [if_neg (by rwa [lt_iff hx hlow, not_lt]), if_neg (by rwa [lt_iff hhigh hx, not_lt])]

/-- Clamping leaves the numbers between the bounds alone, and no others. -/
theorem clampTo_beq_iff (hlow : low.isFinite = true) (hhigh : high.isFinite = true)
    (hle : value low ≤ value high) :
    (clampTo low high x == x) = true ↔
      x.isFinite = true ∧ value low ≤ value x ∧ value x ≤ value high := by
  by_cases hx : x.isFinite = true
  · obtain ⟨hfinite, hvalue⟩ := clampTo_finite hlow hhigh hx hle
    rw [beq_iff hfinite hx, hvalue]
    constructor
    · intro h
      have hbelow : value low ≤ value x := (le_max_left _ _).trans_eq h
      have habove : value x ≤ value high := by
        rw [← h]
        exact max_le hle (min_le_left _ _)
      exact ⟨hx, hbelow, habove⟩
    · intro ⟨_, hbelow, habove⟩
      rw [min_eq_right habove, max_eq_right hbelow]
  · apply iff_of_false _ fun h => hx h.1
    intro h
    obtain hnan | ⟨s, hinf⟩ := not_finite_cases hx
    · rw [beq_iff_compare, hnan] at h
      cases hu : unpacked (clampTo low high x) <;> rw [hu] at h <;> cases h
    · cases s
      · rw [clampTo, if_pos (lt_of_negInf hinf hlow)] at h
        exact absurd (isFinite_of_beq hlow h) hx
      · rw [clampTo] at h
        split_ifs at h with hbelow habove
        · exact absurd (isFinite_of_beq hlow h) hx
        · exact absurd (isFinite_of_beq hhigh h) hx
        · exact absurd (lt_of_posInf hhigh hinf) habove

end Clamp

end StreetDogs.Binary64
