import Mathlib

/-!
# Rounding to the nearest number of a format

Rational numbers rounded to as many significant bits as a binary format has, or
to a multiple of its least subnormal number, with a tie going to the even
neighbour.  The exponent has no upper bound here; overflow is treated where
results are packed.  Rounding is monotone, odd, and leaves every representable
number alone.
-/

namespace StreetDogs.Binary

open Float.Model (Format)

/-- The nearest integer, the even one of two that are equally near. -/
def nearestEven (x : ℚ) : ℤ :=
  if x - ⌊x⌋ < 1 / 2 then ⌊x⌋
  else if 1 / 2 < x - ⌊x⌋ then ⌊x⌋ + 1
  else ⌊x⌋ + ⌊x⌋ % 2

theorem nearestEven_of_lt {x : ℚ} (h : x - ⌊x⌋ < 1 / 2) : nearestEven x = ⌊x⌋ := if_pos h

theorem nearestEven_of_gt {x : ℚ} (h : 1 / 2 < x - ⌊x⌋) : nearestEven x = ⌊x⌋ + 1 := by
  rw [nearestEven, if_neg h.not_gt, if_pos h]

theorem nearestEven_of_eq {x : ℚ} (h : x - ⌊x⌋ = 1 / 2) : nearestEven x = ⌊x⌋ + ⌊x⌋ % 2 := by
  rw [nearestEven, if_neg h.not_lt, if_neg h.not_gt]

theorem floor_le_nearestEven (x : ℚ) : ⌊x⌋ ≤ nearestEven x := by
  rw [nearestEven]
  split_ifs <;> omega

theorem nearestEven_le_floor_add_one (x : ℚ) : nearestEven x ≤ ⌊x⌋ + 1 := by
  rw [nearestEven]
  split_ifs <;> omega

@[simp]
theorem nearestEven_intCast (n : ℤ) : nearestEven n = n := by
  simp [nearestEven]

@[simp]
theorem nearestEven_zero : nearestEven 0 = 0 := nearestEven_intCast 0

/-- Moving by an even number keeps the side a tie goes to. -/
theorem nearestEven_add_of_even (x : ℚ) {n : ℤ} (hn : n % 2 = 0) :
    nearestEven (x + n) = nearestEven x + n := by
  have hfraction : x + n - (⌊x⌋ + n : ℤ) = x - ⌊x⌋ := by
    push_cast
    ring
  rw [nearestEven, nearestEven, Int.floor_add_intCast, hfraction]
  split_ifs <;> omega

theorem nearestEven_mono : Monotone nearestEven := by
  intro x y hxy
  rcases (Int.floor_mono hxy).lt_or_eq with hlt | heq
  · calc
      nearestEven x ≤ ⌊x⌋ + 1 := nearestEven_le_floor_add_one x
      _ ≤ ⌊y⌋ := hlt
      _ ≤ nearestEven y := floor_le_nearestEven y
  · have hfraction : x - ⌊x⌋ ≤ y - ⌊y⌋ := by
      rw [heq]
      exact sub_le_sub_right hxy _
    rcases lt_trichotomy (x - ⌊x⌋) (1 / 2) with hx | hx | hx
    · rw [nearestEven_of_lt hx, heq]
      exact floor_le_nearestEven y
    · rcases (hx.ge.trans hfraction).lt_or_eq with hy | hy
      · rw [nearestEven_of_gt hy, ← heq]
        exact nearestEven_le_floor_add_one x
      · rw [nearestEven_of_eq hx, nearestEven_of_eq hy.symm, heq]
    · rw [nearestEven_of_gt (hx.trans_le hfraction), ← heq]
      exact nearestEven_le_floor_add_one x

/-- A number strictly between two neighbouring integers has the floor of its
negative just below the negative of its floor. -/
private theorem floor_neg_of_ne (x : ℚ) (hx : (⌊x⌋ : ℚ) ≠ x) : ⌊-x⌋ = -⌊x⌋ - 1 := by
  have hlow : (⌊x⌋ : ℚ) < x := lt_of_le_of_ne (Int.floor_le x) hx
  have hhigh : x < ⌊x⌋ + 1 := Int.lt_floor_add_one x
  rw [Int.floor_eq_iff]
  push_cast
  constructor <;> linarith

theorem nearestEven_neg (x : ℚ) : nearestEven (-x) = -nearestEven x := by
  by_cases hx : (⌊x⌋ : ℚ) = x
  · rw [← hx, ← Int.cast_neg, nearestEven_intCast, nearestEven_intCast]
  · have hfloor := floor_neg_of_ne x hx
    have hfraction : -x - ⌊-x⌋ = 1 - (x - ⌊x⌋) := by
      rw [hfloor]
      push_cast
      ring
    rcases lt_trichotomy (x - ⌊x⌋) (1 / 2) with hlt | heq | hgt
    · rw [nearestEven_of_lt hlt, nearestEven_of_gt (by linarith), hfloor]
      ring
    · rw [nearestEven_of_eq heq, nearestEven_of_eq (by linarith), hfloor]
      omega
    · rw [nearestEven_of_gt hgt, nearestEven_of_lt (by linarith), hfloor]
      ring

variable {format : Format} {p q : ℚ}

def ulpExponent (format : Format) (q : ℚ) : ℤ :=
  max (Int.log 2 |q| - format.mantissaBitsWithoutImplicit) format.minExponent

theorem ulpExponent_of_pos (format : Format) (hq : 0 < q) :
    ulpExponent format q =
      max (Int.log 2 q - format.mantissaBitsWithoutImplicit) format.minExponent := by
  rw [ulpExponent, abs_of_pos hq]

theorem ulpExponent_neg (q : ℚ) : ulpExponent format (-q) = ulpExponent format q := by
  rw [ulpExponent, ulpExponent, abs_neg]

/-- The number of the format nearest to `q`, the exponent being unbounded above. -/
def nearest (format : Format) (q : ℚ) : ℚ :=
  nearestEven (q / 2 ^ ulpExponent format q) * 2 ^ ulpExponent format q

@[simp]
theorem nearest_zero : nearest format 0 = 0 := by
  simp [nearest]

theorem nearest_neg (q : ℚ) : nearest format (-q) = -nearest format q := by
  rw [nearest, nearest, ulpExponent_neg, neg_div, nearestEven_neg]
  push_cast
  ring

private theorem two_zpow_pos (e : ℤ) : (0 : ℚ) < 2 ^ e := zpow_pos two_pos e

theorem nearest_nonneg (hq : 0 ≤ q) : 0 ≤ nearest format q := by
  have hscaled : 0 ≤ q / 2 ^ ulpExponent format q := div_nonneg hq (two_zpow_pos _).le
  have hnearest := nearestEven_mono hscaled
  rw [nearestEven_zero] at hnearest
  exact mul_nonneg (by exact_mod_cast hnearest) (two_zpow_pos _).le

/-- A multiple of the last place of `q` that lies above `q` stays above it. -/
theorem nearest_le_of_multiple {n : ℤ} (h : q ≤ n * 2 ^ ulpExponent format q) :
    nearest format q ≤ n * 2 ^ ulpExponent format q := by
  have hpos := two_zpow_pos (ulpExponent format q)
  have hscaled : q / 2 ^ ulpExponent format q ≤ n := (div_le_iff₀ hpos).mpr h
  have hnearest := nearestEven_mono hscaled
  rw [nearestEven_intCast] at hnearest
  exact mul_le_mul_of_nonneg_right (by exact_mod_cast hnearest) hpos.le

/-- A multiple of the last place of `q` that lies below `q` stays below it. -/
theorem le_nearest_of_multiple {n : ℤ} (h : n * 2 ^ ulpExponent format q ≤ q) :
    n * 2 ^ ulpExponent format q ≤ nearest format q := by
  have hpos := two_zpow_pos (ulpExponent format q)
  have hscaled : (n : ℚ) ≤ q / 2 ^ ulpExponent format q := (le_div_iff₀ hpos).mpr h
  have hnearest := nearestEven_mono hscaled
  rw [nearestEven_intCast] at hnearest
  exact mul_le_mul_of_nonneg_right (by exact_mod_cast hnearest) hpos.le

/-- A power of two is a multiple of every smaller one. -/
private theorem exists_multiple {e k : ℤ} (h : e ≤ k) : ∃ n : ℤ, (2 : ℚ) ^ k = n * 2 ^ e := by
  refine ⟨2 ^ (k - e).toNat, ?_⟩
  push_cast
  rw [← zpow_natCast, ← zpow_add₀ two_ne_zero]
  congr 1
  omega

private theorem nearest_mono_of_pos (hp : 0 < p) (hpq : p ≤ q) :
    nearest format p ≤ nearest format q := by
  have hq : 0 < q := hp.trans_le hpq
  have hlog : Int.log 2 p ≤ Int.log 2 q := Int.log_mono_right hp hpq
  have hp' := ulpExponent_of_pos format hp
  have hq' := ulpExponent_of_pos format hq
  by_cases hsame : ulpExponent format p = ulpExponent format q
  · rw [nearest, nearest, hsame]
    have hpos := two_zpow_pos (ulpExponent format q)
    have hnearest := nearestEven_mono (div_le_div_of_nonneg_right hpq hpos.le)
    exact mul_le_mul_of_nonneg_right (by exact_mod_cast hnearest) hpos.le
  -- Otherwise the power of two at the foot of the binade of `q` separates the roundings.
  · have hfoot : (2 : ℚ) ^ Int.log 2 q ≤ q := Int.zpow_log_le_self one_lt_two hq
    have hpfoot : p ≤ (2 : ℚ) ^ Int.log 2 q := by
      have htop : p < (2 : ℚ) ^ (Int.log 2 p + 1) := Int.lt_zpow_succ_log_self one_lt_two p
      refine htop.le.trans (zpow_le_zpow_right₀ one_le_two ?_)
      omega
    obtain ⟨m, hm⟩ := exists_multiple (e := ulpExponent format p) (k := Int.log 2 q) (by omega)
    obtain ⟨n, hn⟩ := exists_multiple (e := ulpExponent format q) (k := Int.log 2 q) (by omega)
    calc
      nearest format p ≤ 2 ^ Int.log 2 q := by
        rw [hm] at hpfoot ⊢
        exact nearest_le_of_multiple hpfoot
      _ ≤ nearest format q := by
        rw [hn] at hfoot ⊢
        exact le_nearest_of_multiple hfoot

/-- Rounding preserves order. -/
theorem nearest_mono : Monotone (nearest format) := by
  intro p q hpq
  rcases lt_or_ge 0 p with hp | hp
  · exact nearest_mono_of_pos hp hpq
  rcases lt_or_ge q 0 with hq | hq
  · have hneg : nearest format (-q) ≤ nearest format (-p) :=
      nearest_mono_of_pos (neg_pos.mpr hq) (neg_le_neg hpq)
    rw [nearest_neg, nearest_neg] at hneg
    exact neg_le_neg_iff.mp hneg
  · have hpneg : 0 ≤ nearest format (-p) := nearest_nonneg (neg_nonneg.mpr hp)
    rw [nearest_neg] at hpneg
    exact (neg_nonneg.mp hpneg).trans (nearest_nonneg hq)

/-- The numbers that need no rounding: at most as many significant bits as the
format has, above its least exponent. -/
def Representable (format : Format) (q : ℚ) : Prop :=
  ∃ m e : ℤ, |m| < 2 ^ format.mantissaBits ∧ format.minExponent ≤ e ∧ q = m * 2 ^ e

theorem nearest_of_representable (hq : Representable format q) : nearest format q = q := by
  obtain ⟨m, e, hm, he, rfl⟩ := hq
  by_cases hzero : m = 0
  · simp [hzero]
  have hexp : ulpExponent format (m * 2 ^ e) ≤ e := by
    have hmpos : (0 : ℚ) < |(m : ℚ)| := abs_pos.mpr (by exact_mod_cast hzero)
    have hbound : |(m : ℚ) * 2 ^ e| < 2 ^ (format.mantissaBits + e) := by
      rw [abs_mul, abs_of_pos (two_zpow_pos e), zpow_add₀ two_ne_zero]
      exact mul_lt_mul_of_pos_right (by exact_mod_cast hm) (two_zpow_pos e)
    have hlog : Int.log 2 |(m : ℚ) * 2 ^ e| < format.mantissaBits + e := by
      rw [← Int.lt_zpow_iff_log_lt one_lt_two]
      · exact_mod_cast hbound
      · rw [abs_mul]
        exact mul_pos hmpos (abs_pos.mpr (two_zpow_pos e).ne')
    rw [Format.mantissaBits] at hlog
    rw [ulpExponent]
    omega
  obtain ⟨n, hn⟩ := exists_multiple hexp
  have hvalue : (m : ℚ) * 2 ^ e = (m * n : ℤ) * 2 ^ ulpExponent format (m * 2 ^ e) := by
    push_cast
    rw [mul_assoc, ← hn]
  exact le_antisymm
    ((nearest_le_of_multiple hvalue.le).trans_eq hvalue.symm)
    (hvalue.le.trans (le_nearest_of_multiple hvalue.ge))

theorem minExponent_nonpos (format : Format) : format.minExponent ≤ 0 := by
  have hbits := format.hm
  have hpower : (0 : ℤ) < 2 ^ (format.exponentBits - 1) := by positivity
  rw [Format.minExponent, Format.mantissaBits]
  omega

theorem representable_intCast {n : ℤ} (hn : |n| < 2 ^ format.mantissaBits) :
    Representable format n :=
  ⟨n, 0, hn, minExponent_nonpos format, by simp⟩

theorem representable_one : Representable format 1 := by
  have hone : |(1 : ℤ)| < 2 ^ format.mantissaBits := by
    rw [abs_one, Format.mantissaBits]
    exact one_lt_pow₀ one_lt_two (by omega)
  simpa using representable_intCast hone

theorem Representable.neg (hq : Representable format q) : Representable format (-q) := by
  obtain ⟨m, e, hm, he, rfl⟩ := hq
  exact ⟨-m, e, by rwa [abs_neg], he, by push_cast; ring⟩

/-- Rounding does not pass a whole number that the format represents. -/
theorem floor_le_nearest (hq : 0 ≤ q) (hlt : q < 2 ^ format.mantissaBits) :
    (⌊q⌋ : ℚ) ≤ nearest format q := by
  have hfloor : |⌊q⌋| < 2 ^ format.mantissaBits := by
    rw [abs_of_nonneg (Int.floor_nonneg.mpr hq), Int.floor_lt]
    exact_mod_cast hlt
  calc
    (⌊q⌋ : ℚ) = nearest format ⌊q⌋ := (nearest_of_representable (representable_intCast hfloor)).symm
    _ ≤ nearest format q := nearest_mono (Int.floor_le q)

/-- Rounding goes up by at most one in the last place. -/
theorem nearest_le_add_ulp (q : ℚ) : nearest format q ≤ q + 2 ^ ulpExponent format q := by
  have hpos := two_zpow_pos (ulpExponent format q)
  have hscaled : (nearestEven (q / 2 ^ ulpExponent format q) : ℚ) ≤
      q / 2 ^ ulpExponent format q + 1 :=
    calc
      (nearestEven (q / 2 ^ ulpExponent format q) : ℚ) ≤ ⌊q / 2 ^ ulpExponent format q⌋ + 1 := by
        exact_mod_cast nearestEven_le_floor_add_one _
      _ ≤ q / 2 ^ ulpExponent format q + 1 := by
        gcongr
        exact Int.floor_le _
  calc
    nearest format q ≤ (q / 2 ^ ulpExponent format q + 1) * 2 ^ ulpExponent format q :=
      mul_le_mul_of_nonneg_right hscaled hpos.le
    _ = q + 2 ^ ulpExponent format q := by
      rw [add_mul, div_mul_cancel₀ _ hpos.ne', one_mul]

/-- Of a number with all bits of the format, rounding up adds at most one in the
last of them. -/
theorem nearest_le_mul (hq : 0 < q)
    (hnormal : format.minExponent ≤ Int.log 2 q - format.mantissaBitsWithoutImplicit) :
    nearest format q ≤ q * (1 + 1 / 2 ^ format.mantissaBitsWithoutImplicit) := by
  have hulp : (2 : ℚ) ^ ulpExponent format q ≤ q / 2 ^ format.mantissaBitsWithoutImplicit := by
    rw [ulpExponent_of_pos format hq, max_eq_left hnormal, zpow_sub₀ two_ne_zero, zpow_natCast]
    exact div_le_div_of_nonneg_right (Int.zpow_log_le_self one_lt_two hq) (by positivity)
  calc
    nearest format q ≤ q + 2 ^ ulpExponent format q := nearest_le_add_ulp q
    _ ≤ q + q / 2 ^ format.mantissaBitsWithoutImplicit := add_le_add_right hulp q
    _ = q * (1 + 1 / 2 ^ format.mantissaBitsWithoutImplicit) := by ring

end StreetDogs.Binary
