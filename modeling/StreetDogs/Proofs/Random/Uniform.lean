import StreetDogs.Random.Uniform
import StreetDogs.Proofs.Binary64.Bits
import StreetDogs.Proofs.Binary64.Conversion
import StreetDogs.Proofs.Binary64.Order

/-!
# Range of uniform choice

An index drawn below a count is below it, and a coordinate drawn between two
map coordinates lies between them: the scale is chosen so that the rounded
product and sum stay in range for the greatest fraction, and rounding is
monotone.
-/

namespace StreetDogs.Uniform

open Binary Binary64

theorem indexOf_lt {count : ℕ} (hcount : 0 < count) (word : UInt64) :
    indexOf count word < count := by
  rw [indexOf, Nat.div_lt_iff_lt_mul (by norm_num), mul_comm count]
  exact Nat.mul_lt_mul_of_pos_right word.toNat_lt hcount

theorem index_lt {count : ℕ} (hcount : 0 < count) (words : Supply UInt64) :
    (index count words).1 < count := by
  rw [index]
  cases words.search (accepts count) period with
  | none => exact indexOf_lt hcount _
  | some found => exact indexOf_lt hcount found.1

private theorem fractions_exact : fractions.isFinite = true ∧ value fractions = 2 ^ 52 := by
  have h := exact_of_unpacked (x := fractions) (m := 2 ^ 52) (e := 0) (by decide) rfl
  norm_num at h ⊢
  exact h

private theorem unpacked_topFraction :
    unpacked topFraction = .finite .positive (2 ^ 53 - 2) (-53) (by decide) := by rfl

theorem topFraction_exact :
    topFraction.isFinite = true ∧ value topFraction = (2 ^ 52 - 1) / 2 ^ 52 := by
  have h := exact_of_unpacked (by decide) unpacked_topFraction
  norm_num at h ⊢
  exact h

theorem fraction_mem (word : UInt64) :
    (fraction word).isFinite = true ∧ 0 ≤ value (fraction word) ∧
      value (fraction word) ≤ value topFraction := by
  have hword := word.toNat_lt
  have hcut : (word >>> 12).toNat = word.toNat / 2 ^ 12 := by
    rw [UInt64.toNat_shiftRight, Nat.shiftRight_eq_div_pow]
    rfl
  set n := (word >>> 12).toNat with hn
  have hbound : n ≤ 2 ^ 52 - 1 := by omega
  have hnat : (word >>> 12).toFloat.isFinite = true ∧ value (word >>> 12).toFloat = n :=
    (toFloat_roundsTo (word >>> 12)).exact_natCast (by omega)
  have hrounds := div_roundsTo hnat.1 fractions_exact.1 (by rw [fractions_exact.2]; norm_num)
  rw [hnat.2, fractions_exact.2] at hrounds
  have hn' : (n : ℚ) ≤ 2 ^ 52 - 1 := by
    have hcast : ((n : ℕ) : ℚ) ≤ ((2 ^ 52 - 1 : ℕ) : ℚ) := by exact_mod_cast hbound
    norm_num at hcast ⊢
    exact hcast
  have hexact : (fraction word).isFinite = true ∧ value (fraction word) = n / 2 ^ 52 := by
    apply hrounds.exact
    · refine ⟨n, -52, ?_, by norm_num, ?_⟩
      · rw [Nat.abs_cast, mantissaBits_binary64]
        omega
      · norm_num
        ring
    · apply abs_lt_limit_of_abs_lt
      rw [abs_of_nonneg (by positivity), div_lt_iff₀ (by norm_num)]
      norm_num at hn' ⊢
      linarith
  refine ⟨hexact.1, ?_, ?_⟩
  · rw [hexact.2]
    positivity
  · rw [hexact.2, topFraction_exact.2]
    exact div_le_div_of_nonneg_right hn' (by norm_num)

/-! ## Scales -/

/-- A finite scale from zero upwards that takes the greatest fraction no
further than from `low` to `high`. -/
def Scales (low high scale : Float) : Prop :=
  scale.isFinite = true ∧ 0 ≤ value scale ∧
    nearest .binary64 (nearest .binary64 (value topFraction * value scale) + value low) ≤
      value high

private theorem unpacked_infinite_mul {x y : Float} (hx : unpacked x = .infinity .positive)
    (hy : unpacked y = unpacked topFraction) : unpacked (x * y) = .infinity .positive := by
  change (Float.Model.pack (Float.Model.UnpackedFloat.mul Float.Model.Format.binary64
    (unpacked x) (unpacked y))).unpack = _
  rw [hx, hy, unpacked_topFraction]
  rfl

private theorem unpacked_infinite_add {x y : Float} (hx : unpacked x = .infinity .positive)
    (hy : y.isFinite = true) : unpacked (x + y) = .infinity .positive := by
  change (Float.Model.pack (Float.Model.UnpackedFloat.add Float.Model.Format.binary64
    (unpacked x) (unpacked y))).unpack = _
  have hcases := finite_cases (u := unpacked y) hy
  generalize unpacked y = v at hcases
  rw [hx]
  obtain ⟨s, rfl⟩ | ⟨s, m, e, hm, rfl⟩ := hcases
  · simp only [Float.Model.UnpackedFloat.add]
    rfl
  · simp only [Float.Model.UnpackedFloat.add]
    rfl

/-- The greatest fraction of a finite scale from zero upwards is finite. -/
private theorem mul_topFraction_exact {scale : Float} (hscale : scale.isFinite = true)
    (hnonneg : 0 ≤ value scale) :
    (scale * topFraction).isFinite = true ∧
      value (scale * topFraction) = nearest .binary64 (value topFraction * value scale) := by
  obtain ⟨htop, hvalue⟩ := topFraction_exact
  have hrounds := mul_roundsTo hscale htop
  rw [mul_comm] at hrounds
  apply hrounds.finite
  have htop' : 0 ≤ value topFraction ∧ value topFraction ≤ 1 := by
    rw [hvalue]
    norm_num
  have hle : nearest .binary64 (value topFraction * value scale) ≤ value scale :=
    (nearest_mono (mul_le_of_le_one_left hnonneg htop'.2)).trans_eq (nearest_value scale)
  rw [abs_of_nonneg (nearest_nonneg (mul_nonneg htop'.1 hnonneg))]
  exact hle.trans_lt ((le_abs_self _).trans_lt (abs_value_lt_limit scale))

/-- A number from zero upwards is a scale if its greatest fraction is accepted. -/
private theorem scales_of_not_lt {low high scale : Float} (hlow : low.isFinite = true)
    (hhigh : high.isFinite = true) (hscale : Upward (unpacked scale))
    (h : ¬ high < scale * topFraction + low) : Scales low high scale := by
  rcases hscale with hinfinite | hsign
  · have hproduct := unpacked_infinite_mul hinfinite (y := topFraction) rfl
    exact absurd (lt_of_posInf hhigh (unpacked_infinite_add hproduct hlow)) h
  · have hfinite : scale.isFinite = true := hsign.isFinite
    have hnonneg : 0 ≤ value scale := hsign.exactValue_nonneg
    obtain ⟨hproduct, hvalue⟩ := mul_topFraction_exact hfinite hnonneg
    have hrounds := add_roundsTo hproduct hlow
    rw [hvalue] at hrounds
    refine ⟨hfinite, hnonneg, ?_⟩
    have hbelow : -limit .binary64 <
        nearest .binary64 (nearest .binary64 (value topFraction * value scale) + value low) := by
      have htop : 0 ≤ value topFraction := by
        rw [topFraction_exact.2]
        norm_num
      calc
        -limit .binary64 < value low := (abs_lt.mp (abs_value_lt_limit low)).1
        _ = nearest .binary64 (value low) := (nearest_value low).symm
        _ ≤ _ := nearest_mono
          (le_add_of_nonneg_left (nearest_nonneg (mul_nonneg htop hnonneg)))
    rcases lt_or_ge
      (nearest .binary64 (nearest .binary64 (value topFraction * value scale) + value low))
      (limit .binary64)
      with hin | hout
    · obtain ⟨hsum, hsumValue⟩ := hrounds.finite (abs_lt.mpr ⟨hbelow, hin⟩)
      rw [lt_iff hhigh hsum, hsumValue, not_lt] at h
      exact h
    · exact absurd (lt_of_posInf hhigh (hrounds.above hout)) h

/-- Down from any number, a scale is found. -/
theorem scaleWithin_scales {low high : Float} (hlow : low.isFinite = true)
    (hhigh : high.isFinite = true) (hle : value low ≤ value high) {bits : ℕ}
    (hbits : bits ≤ infinityBits) : Scales low high (scaleWithin low high bits) := by
  induction bits with
  | zero =>
      refine ⟨zero_exact.1, zero_exact.2.ge, ?_⟩
      rw [scaleWithin, zero_exact.2, mul_zero, nearest_zero, zero_add, nearest_value]
      exact hle
  | succ bits ih =>
      unfold scaleWithin
      dsimp only
      split_ifs with hbeyond
      · exact ih (by omega)
      · apply scales_of_not_lt hlow hhigh _ hbeyond
        apply upward_ofBits
        rw [Nat.toUInt64, UInt64.toNat_ofNat']
        exact (Nat.mod_le _ _).trans hbits

/-- Whatever fraction is drawn, the scaled fraction stays between the bounds. -/
private theorem scaled_mem {low high scale fraction : Float} (hlow : low.isFinite = true)
    (hscale : Scales low high scale) (hfraction : fraction.isFinite = true)
    (hnonneg : 0 ≤ value fraction) (htop : value fraction ≤ value topFraction) :
    (fraction * scale + low).isFinite = true ∧ value low ≤ value (fraction * scale + low) ∧
      value (fraction * scale + low) ≤ value high := by
  obtain ⟨hfinite, hscaleNonneg, hhigh⟩ := hscale
  have hproductNonneg : 0 ≤ nearest .binary64 (value fraction * value scale) :=
    nearest_nonneg (mul_nonneg hnonneg hscaleNonneg)
  have hproductLe : nearest .binary64 (value fraction * value scale) ≤
      nearest .binary64 (value topFraction * value scale) :=
    nearest_mono (mul_le_mul_of_nonneg_right htop hscaleNonneg)
  have hproduct : (fraction * scale).isFinite = true ∧
      value (fraction * scale) = nearest .binary64 (value fraction * value scale) := by
    apply (mul_roundsTo hfraction hfinite).finite
    obtain ⟨-, hvalue⟩ := mul_topFraction_exact hfinite hscaleNonneg
    rw [abs_of_nonneg hproductNonneg]
    calc
      nearest .binary64 (value fraction * value scale) ≤ value (scale * topFraction) :=
        hproductLe.trans_eq hvalue.symm
      _ ≤ |value (scale * topFraction)| := le_abs_self _
      _ < limit .binary64 := abs_value_lt_limit _
  have hrounds := add_roundsTo hproduct.1 hlow
  rw [hproduct.2] at hrounds
  have hge : value low ≤
      nearest .binary64 (nearest .binary64 (value fraction * value scale) + value low) := by
    calc
      value low = nearest .binary64 (value low) := (nearest_value low).symm
      _ ≤ _ := nearest_mono (le_add_of_nonneg_left hproductNonneg)
  have hle : nearest .binary64 (nearest .binary64 (value fraction * value scale) + value low) ≤
      value high :=
    (nearest_mono (add_le_add_left hproductLe _)).trans hhigh
  have hsum := hrounds.finite (abs_lt.mpr
    ⟨(abs_lt.mp (abs_value_lt_limit low)).1.trans_le hge,
      hle.trans_lt (abs_lt.mp (abs_value_lt_limit high)).2⟩)
  refine ⟨hsum.1, ?_, ?_⟩
  · rwa [hsum.2]
  · rwa [hsum.2]

/-- The search for a scale starts at a pattern not above that of infinity. -/
private theorem start_le_infinityBits {c d : Coord} (h : c ≤ d) :
    ((Coord.real d - Coord.real c) / topFraction).toBits.toNat ≤ infinityBits := by
  obtain ⟨hc, hcValue⟩ := Coord.real_exact c
  obtain ⟨hd, hdValue⟩ := Coord.real_exact d
  apply toBits_le_infinityBits
  by_cases heq : c = d
  · right
    have hdifference : unpacked (Coord.real d - Coord.real d) = .zero .positive :=
      unpacked_sub_self hd
    rw [heq]
    change HasSign _ (Float.Model.pack
      (Float.Model.UnpackedFloat.div Float.Model.Format.binary64
        (unpacked (Coord.real d - Coord.real d)) (unpacked topFraction))).unpack
    rw [hdifference, unpacked_topFraction]
    rfl
  · have hlt : c.toInt + 1 ≤ d.toInt := by
      have hle := Int32.le_iff_toInt_le.mp h
      have hne : c.toInt ≠ d.toInt := fun h => heq (Int32.toInt_inj.mp h)
      omega
    have hdifference := (sub_roundsTo hd hc)
    rw [hdValue, hcValue] at hdifference
    have hbounds := And.intro c.le_toInt d.toInt_lt
    have hexact : (Coord.real d - Coord.real c).isFinite = true ∧
        value (Coord.real d - Coord.real c) = (d.toInt - c.toInt : ℤ) := by
      rw [← Int.cast_sub] at hdifference
      apply hdifference.exact_intCast
      rw [abs_lt]
      constructor <;> omega
    obtain ⟨htop, htopValue⟩ := topFraction_exact
    apply (div_roundsTo hexact.1 htop (by rw [htopValue]; norm_num)).upward
    have hone : (1 : ℚ) ≤ (d.toInt - c.toInt : ℤ) := by exact_mod_cast (by omega)
    have hquotient : (1 : ℚ) ≤ (d.toInt - c.toInt : ℤ) / value topFraction := by
      rw [htopValue, le_div_iff₀ (by norm_num), one_mul]
      exact le_trans (by norm_num) hone
    rw [hexact.2]
    calc
      (0 : ℚ) < 1 := one_pos
      _ = nearest .binary64 1 := (nearest_of_representable representable_one).symm
      _ ≤ _ := nearest_mono hquotient

/-- A coordinate drawn between two map coordinates is finite and lies between
them. -/
theorem coordinate_mem {c d : Coord} (h : c ≤ d) (words : Supply UInt64) :
    let drawn := (coordinate (Coord.real c) (Coord.real d) words).1
    drawn.isFinite = true ∧ (c.toInt : ℚ) ≤ value drawn ∧ value drawn ≤ d.toInt := by
  obtain ⟨hc, hcValue⟩ := Coord.real_exact c
  obtain ⟨hd, hdValue⟩ := Coord.real_exact d
  have hle : value (Coord.real c) ≤ value (Coord.real d) := by
    rw [hcValue, hdValue]
    exact_mod_cast Int32.le_iff_toInt_le.mp h
  have hscale := scaleWithin_scales hc hd hle (start_le_infinityBits h)
  obtain ⟨hfraction, hnonneg, htop⟩ := fraction_mem words.next.1
  have hmem := scaled_mem hc hscale hfraction hnonneg htop
  rwa [hcValue, hdValue] at hmem

end StreetDogs.Uniform
