import StreetDogs.Proofs.Binary.Rounding

/-!
# Arithmetic of unpacked numbers

Every operation on finite canonical numbers gives the canonical form of the
nearest number to the exact result.  Packed, it stays as it is below the limit
of the format, and becomes infinite from there on.
-/

namespace StreetDogs.Binary

open Float.Model Float.Model.UnpackedFloat

variable {format : Format} {q : ℚ}

/-- A finite number is a zero or has a significand. -/
theorem finite_cases {u : UnpackedFloat} (hu : u.isFinite = true) :
    (∃ s, u = .zero s) ∨ ∃ s m e hm, u = .finite s m e hm := by
  cases u with
  | infinity s => exact absurd hu Bool.false_ne_true
  | notANumber => exact absurd hu Bool.false_ne_true
  | zero s => exact Or.inl ⟨s, rfl⟩
  | finite s m e hm => exact Or.inr ⟨s, m, e, hm, rfl⟩

/-- The least power of two beyond the range of finite numbers. -/
@[irreducible]
def limit (format : Format) : ℚ := 2 ^ (2 ^ (format.exponentBits - 1) : ℤ)

theorem two_zpow_le_limit {e : ℤ} (he : e ≤ 2 ^ (format.exponentBits - 1)) :
    (2 : ℚ) ^ e ≤ limit format := by
  rw [limit]
  exact zpow_le_zpow_right₀ one_le_two he

theorem limit_le_two_zpow {e : ℤ} (he : 2 ^ (format.exponentBits - 1) ≤ e) :
    limit format ≤ 2 ^ e := by
  rw [limit]
  exact zpow_le_zpow_right₀ one_le_two he

theorem limit_pos (format : Format) : 0 < limit format :=
  (zpow_pos two_pos 0).trans_le (two_zpow_le_limit (by positivity))

theorem representable_exactValue {u : UnpackedFloat} (hu : Canonical format u) :
    Representable format (exactValue u) := by
  cases u with
  | finite s m e hm =>
      obtain ⟨hbound, hleast, -⟩ := hu
      refine ⟨s.apply m, e, ?_, hleast, rfl⟩
      cases s <;> simp only [Sign.apply, abs_neg, Nat.abs_cast] <;> exact_mod_cast hbound
  | _ => exact representable_intCast (n := 0) (by rw [abs_zero]; positivity)

theorem abs_exactValue_finite (s : Sign) {m : ℕ} {e : ℤ} (hm : 0 < m) :
    |exactValue (.finite s m e hm)| = m * 2 ^ e := by
  have hpos : (0 : ℚ) < 2 ^ e := zpow_pos two_pos e
  cases s <;> simp [exactValue, Sign.apply, abs_mul, abs_of_pos hpos]

/-- The canonical numbers in range are those below the limit. -/
theorem fits_iff_abs_lt {u : UnpackedFloat} (hbits : 1 < format.exponentBits)
    (hu : Canonical format u) : Fits format u ↔ |exactValue u| < limit format := by
  cases u with
  | finite s m e hm =>
      obtain ⟨hhigh, -, hlow⟩ := hu
      rw [abs_exactValue_finite s hm]
      constructor
      · intro hfits
        calc
          (m : ℚ) * 2 ^ e < 2 ^ format.mantissaBits * 2 ^ e :=
            mul_lt_mul_of_pos_right (by exact_mod_cast hhigh) (zpow_pos two_pos e)
          _ = 2 ^ (e + format.mantissaBits) := by
            rw [add_comm, zpow_add₀ two_ne_zero, zpow_natCast]
          _ ≤ limit format := two_zpow_le_limit hfits
      · intro hlt
        by_contra hfits
        have hpower : (2 : ℤ) ≤ 2 ^ (format.exponentBits - 1) :=
          le_self_pow₀ one_le_two (by omega)
        rw [Fits, Format.mantissaBits] at hfits
        have hleading : 2 ^ format.mantissaBitsWithoutImplicit ≤ m := by
          refine hlow.resolve_right fun hleast => ?_
          rw [Format.minExponent, Format.mantissaBits] at hleast
          omega
        refine hlt.not_ge ?_
        calc
          limit format ≤ 2 ^ (format.mantissaBitsWithoutImplicit + e) :=
            limit_le_two_zpow (by omega)
          _ = 2 ^ format.mantissaBitsWithoutImplicit * 2 ^ e := by
            rw [zpow_add₀ two_ne_zero, zpow_natCast]
          _ ≤ m * 2 ^ e :=
            mul_le_mul_of_nonneg_right (by exact_mod_cast hleading) (zpow_pos two_pos e).le
  | _ => exact iff_of_true trivial (by simpa [exactValue] using limit_pos format)

/-- An unpacked number that stands for `q` rounded, in canonical form. -/
structure Rounded (format : Format) (u : UnpackedFloat) (q : ℚ) : Prop where
  canonical : Canonical format u
  isFinite : u.isFinite = true
  value_eq : exactValue u = nearest format q

namespace Rounded

theorem unpack_pack {u : UnpackedFloat} (h : Rounded format u q) (hbits : 1 < format.exponentBits)
    (hlimit : |nearest format q| < limit format) :
    UnpackedFloat.unpack format (UnpackedFloat.pack format u) = u := by
  rw [← h.value_eq, ← fits_iff_abs_lt hbits h.canonical] at hlimit
  exact Binary.unpack_pack h.canonical hlimit

/-- Beyond the limit a rounded number becomes infinite, with its sign. -/
theorem unpack_pack_overflow {u : UnpackedFloat} (h : Rounded format u q)
    (hbits : 1 < format.exponentBits) (hlimit : limit format ≤ |nearest format q|) :
    UnpackedFloat.unpack format (UnpackedFloat.pack format u) =
      .infinity (if 0 < nearest format q then .positive else .negative) := by
  obtain ⟨hcanonical, hfinite, hvalue⟩ := h
  rw [← hvalue, ← not_lt, ← fits_iff_abs_lt hbits hcanonical] at hlimit
  rw [← hvalue]
  obtain ⟨s, rfl⟩ | ⟨s, m, e, hm, rfl⟩ := finite_cases hfinite
  · exact absurd trivial hlimit
  rw [Binary.unpack_pack_overflow s hm hlimit]
  have hpos : (0 : ℚ) < m * 2 ^ e := mul_pos (by exact_mod_cast hm) (zpow_pos two_pos e)
  cases s with
  | positive => rw [exactValue_positive, if_pos hpos]
  | negative => rw [exactValue_negative, if_neg (neg_neg_of_pos hpos).not_gt]

end Rounded

theorem Rounded.of_canonical {u : UnpackedFloat} (hcanonical : Canonical format u)
    (hfinite : u.isFinite = true) : Rounded format u (exactValue u) :=
  ⟨hcanonical, hfinite, (nearest_of_representable (representable_exactValue hcanonical)).symm⟩

theorem Rounded.zero (s : Sign) : Rounded format (.zero s) 0 :=
  ⟨trivial, rfl, by simp [exactValue]⟩

theorem Rounded.normalize (format : Format) (n e : ℤ) (zeroSign : Sign) :
    Rounded format (UnpackedFloat.normalize format n e zeroSign) (n * 2 ^ e) :=
  have h := normalize_eq n e zeroSign
  ⟨h.1, h.2.1, h.2.2.1⟩

private theorem decrease_value (s : Sign) (m : ℕ) {e t : ℤ} (ht : t ≤ e) :
    ((s.apply (decreaseExponent m e t).1 : ℤ) : ℚ) * 2 ^ t = (s.apply m : ℤ) * 2 ^ e := by
  have hshift : ((2 : ℚ) ^ (e - t).toNat) * 2 ^ t = 2 ^ e := by
    rw [← zpow_natCast, ← zpow_add₀ two_ne_zero]
    congr 1
    omega
  rw [decreaseExponent, Nat.shiftLeft_eq, ← hshift]
  cases s <;> simp [Sign.apply, mul_assoc]

theorem Rounded.add {u v : UnpackedFloat} (hu : Canonical format u) (hv : Canonical format v)
    (hu' : u.isFinite = true) (hv' : v.isFinite = true) :
    Rounded format (UnpackedFloat.add format u v) (exactValue u + exactValue v) := by
  obtain ⟨s, rfl⟩ | ⟨s, m, e, hm, rfl⟩ := finite_cases hu' <;>
    obtain ⟨t, rfl⟩ | ⟨t, n, f, hn, rfl⟩ := finite_cases hv'
  · rw [exactValue_zero, exactValue_zero, add_zero]
    cases s <;> cases t <;> exact Rounded.zero _
  · rw [exactValue_zero, zero_add]
    exact Rounded.of_canonical hv hv'
  · rw [exactValue_zero, add_zero]
    exact Rounded.of_canonical hu hu'
  · have hsum := Rounded.normalize format (s.apply (decreaseExponent m e (min e f)).1 +
      t.apply (decreaseExponent n f (min e f)).1) (min e f) .positive
    rw [Int.cast_add, add_mul, decrease_value s m (min_le_left e f),
      decrease_value t n (min_le_right e f)] at hsum
    exact hsum

theorem exactValue_neg (u : UnpackedFloat) : exactValue u.neg = -exactValue u := by
  cases u with
  | finite s m e hm =>
      cases s
      · change ((m : ℤ) : ℚ) * 2 ^ e = -(((-m : ℤ) : ℚ) * 2 ^ e)
        push_cast
        ring
      · change (((-m : ℤ) : ℚ) * 2 ^ e) = -(((m : ℤ) : ℚ) * 2 ^ e)
        push_cast
        ring
  | _ => exact neg_zero.symm

theorem Rounded.sub {u v : UnpackedFloat} (hu : Canonical format u) (hv : Canonical format v)
    (hu' : u.isFinite = true) (hv' : v.isFinite = true) :
    Rounded format (UnpackedFloat.sub format u v) (exactValue u - exactValue v) := by
  obtain ⟨s, rfl⟩ | ⟨s, m, e, hm, rfl⟩ := finite_cases hu' <;>
    obtain ⟨t, rfl⟩ | ⟨t, n, f, hn, rfl⟩ := finite_cases hv'
  · rw [exactValue_zero, exactValue_zero, sub_zero]
    cases s <;> cases t <;> exact Rounded.zero _
  · rw [exactValue_zero, zero_sub, ← exactValue_neg]
    exact Rounded.of_canonical hv rfl
  · rw [exactValue_zero, sub_zero]
    exact Rounded.of_canonical hu hu'
  · have hdifference := Rounded.normalize format (s.apply (decreaseExponent m e (min e f)).1 -
      t.apply (decreaseExponent n f (min e f)).1) (min e f) .positive
    rw [Int.cast_sub, sub_mul, decrease_value s m (min_le_left e f),
      decrease_value t n (min_le_right e f)] at hdifference
    exact hdifference

private theorem sign_mul_apply (s t : Sign) : (s * t).apply 1 = s.apply 1 * t.apply 1 := by
  cases s <;> cases t <;> rfl

private theorem sign_div_eq_mul (s t : Sign) : s / t = s * t := by
  cases s <;> cases t <;> rfl

private theorem exactValue_finite (s : Sign) {m : ℕ} (e : ℤ) (hm : 0 < m) :
    exactValue (.finite s m e hm) = (s.apply 1 : ℤ) * (m * 2 ^ e) := by
  cases s <;> simp [exactValue, Sign.apply]

theorem Rounded.roundWithAccuracy (s : Sign) {m : ℕ} {e : ℤ} {accuracy : Accuracy}
    {x : ℚ} (hx : 0 < x) (htracks : Tracks (ExtendedMantissa.ofMantissaAndAccuracy m accuracy) x)
    (he : e ≤ format.targetExponent (totalExponent m e)) :
    Rounded format (UnpackedFloat.roundWithAccuracy format s m e accuracy)
      ((s.apply 1 : ℤ) * (x * 2 ^ e)) := by
  obtain ⟨hcanonical, hsign, hvalue⟩ := roundWithAccuracy_eq s hx htracks he
  refine ⟨hcanonical, hsign.isFinite, ?_⟩
  rw [hvalue]
  cases s <;> simp [Sign.apply, nearest_neg]

/-- The product of two canonical significands has enough bits, or its exponent
is below the least one. -/
private theorem mul_exponent_le {s t : Sign} {m n : ℕ} {e f : ℤ} {hm : 0 < m} {hn : 0 < n}
    (hu : Canonical format (.finite s m e hm)) (hv : Canonical format (.finite t n f hn)) :
    e + f ≤ format.targetExponent (totalExponent (m * n) (e + f)) := by
  have hleast := minExponent_nonpos format
  rw [targetExponent_eq]
  by_cases hbits : 2 ^ format.mantissaBitsWithoutImplicit ≤ m * n
  · have hlog := (Nat.le_log2 (Nat.mul_pos hm hn).ne').mpr hbits
    omega
  · have he := hu.2.2.resolve_left fun h => hbits (h.trans (Nat.le_mul_of_pos_right m hn))
    have hf := hv.2.2.resolve_left fun h => hbits (h.trans (Nat.le_mul_of_pos_left n hm))
    omega

theorem Rounded.mul {u v : UnpackedFloat} (hu : Canonical format u) (hv : Canonical format v)
    (hu' : u.isFinite = true) (hv' : v.isFinite = true) :
    Rounded format (UnpackedFloat.mul format u v) (exactValue u * exactValue v) := by
  obtain ⟨s, rfl⟩ | ⟨s, m, e, hm, rfl⟩ := finite_cases hu' <;>
    obtain ⟨t, rfl⟩ | ⟨t, n, f, hn, rfl⟩ := finite_cases hv'
  · rw [exactValue_zero, zero_mul]
    exact Rounded.zero _
  · rw [exactValue_zero, zero_mul]
    exact Rounded.zero _
  · rw [exactValue_zero, mul_zero]
    exact Rounded.zero _
  · have hproduct := Rounded.roundWithAccuracy (s * t) (x := (m * n : ℕ))
      (by exact_mod_cast Nat.mul_pos hm hn) (tracks_exact _) (mul_exponent_le hu hv)
    have hvalue : exactValue (.finite s m e hm) * exactValue (.finite t n f hn) =
        ((s * t).apply 1 : ℤ) * ((m * n : ℕ) * 2 ^ (e + f)) := by
      rw [exactValue_finite, exactValue_finite, sign_mul_apply, zpow_add₀ two_ne_zero]
      push_cast
      ring
    rw [hvalue]
    exact hproduct

private theorem tracks_quotient (k : ℕ) {n : ℕ} (hn : 0 < n) :
    Tracks (ExtendedMantissa.ofMantissaAndAccuracy (k / n) (accuracyOfFraction (k % n) n))
      (k / n) := by
  have hn' : (0 : ℚ) < n := by exact_mod_cast hn
  have hk : (k : ℚ) = n * (k / n : ℕ) + (k % n : ℕ) := by
    exact_mod_cast (Nat.div_add_mod k n).symm
  have hmod : ((k % n : ℕ) : ℚ) < n := by exact_mod_cast Nat.mod_lt k hn
  have hquotient : (k : ℚ) / n = (k / n : ℕ) + (k % n : ℕ) / n := by
    rw [hk]
    field_simp
  rw [hquotient, accuracyOfFraction]
  by_cases hzero : k % n = 0
  · simpa [hzero] using tracks_exact (k / n)
  · have hpos : (0 : ℚ) < (k % n : ℕ) / n :=
      div_pos (by exact_mod_cast Nat.pos_of_ne_zero hzero) hn'
    have hone : ((k % n : ℕ) : ℚ) / n < 1 := (div_lt_one hn').mpr hmod
    rw [if_neg hzero]
    rcases lt_trichotomy (2 * (k % n)) n with hlt | heq | hgt
    · have hhalf : ((k % n : ℕ) : ℚ) / n < 1 / 2 := by
        rw [div_lt_div_iff₀ hn' two_pos, one_mul, mul_comm]
        exact_mod_cast hlt
      rw [compare_lt_iff_lt.mpr hlt]
      simp only [Tracks, ExtendedMantissa.ofMantissaAndAccuracy, if_true, if_false,
        Bool.false_eq_true]
      constructor <;> linarith
    · have hhalf : ((k % n : ℕ) : ℚ) / n = 1 / 2 := by
        rw [div_eq_div_iff hn'.ne' two_ne_zero, one_mul, mul_comm]
        exact_mod_cast heq
      rw [compare_eq_iff_eq.mpr heq]
      simp only [Tracks, ExtendedMantissa.ofMantissaAndAccuracy, if_true, if_false,
        Bool.false_eq_true]
      linarith
    · have hhalf : 1 / 2 < ((k % n : ℕ) : ℚ) / n := by
        rw [div_lt_div_iff₀ two_pos hn', one_mul, mul_comm]
        exact_mod_cast hgt
      rw [compare_gt_iff_gt.mpr hgt]
      simp only [Tracks, ExtendedMantissa.ofMantissaAndAccuracy, if_true]
      constructor <;> linarith

/-- The quotient of the shifted significands has enough bits, or its exponent
is the least one. -/
private theorem div_exponent_le (format : Format) {m n : ℕ} {e f : ℤ} (hm : 0 < m) (hn : 0 < n) :
    let t := min (e - f)
      (format.targetExponent (totalExponent m e - totalExponent n f))
    t ≤ format.targetExponent
      (totalExponent (m <<< (e - f - t).toNat / n) t) := by
  intro t
  rw [targetExponent_eq]
  set bits := format.mantissaBitsWithoutImplicit
  rcases le_or_gt t format.minExponent with hleast | hleast
  · omega
  have htarget : t ≤ (m.log2 : ℤ) + e - (n.log2 + f) - (bits + 1) := by
    have hmin : t ≤ _ := min_le_right _ _
    rw [Format.targetExponent, totalExponent, totalExponent, Format.mantissaBits] at hmin
    omega
  have hshift : n.log2 + (bits + 1) ≤ m.log2 + (e - f - t).toNat := by omega
  have hlarge : 2 ^ bits ≤ m <<< (e - f - t).toNat / n := by
    rw [Nat.le_div_iff_mul_le hn, Nat.shiftLeft_eq]
    calc
      2 ^ bits * n ≤ 2 ^ bits * 2 ^ (n.log2 + 1) := Nat.mul_le_mul_left _ Nat.lt_log2_self.le
      _ = 2 ^ (n.log2 + (bits + 1)) := by rw [← Nat.pow_add]; congr 1; omega
      _ ≤ 2 ^ (m.log2 + (e - f - t).toNat) := Nat.pow_le_pow_right two_pos hshift
      _ = 2 ^ m.log2 * 2 ^ (e - f - t).toNat := Nat.pow_add ..
      _ ≤ m * 2 ^ (e - f - t).toNat := Nat.mul_le_mul_right _ (Nat.log2_self_le hm.ne')
  have hlog := (Nat.le_log2 ((Nat.two_pow_pos bits).trans_le hlarge).ne').mpr hlarge
  omega

theorem Rounded.div {u v : UnpackedFloat} (hu' : u.isFinite = true)
    (hv' : v.isFinite = true) (hv : exactValue v ≠ 0) :
    Rounded format (UnpackedFloat.div format u v) (exactValue u / exactValue v) := by
  obtain ⟨t, rfl⟩ | ⟨t, n, f, hn, rfl⟩ := finite_cases hv'
  · exact absurd rfl hv
  obtain ⟨s, rfl⟩ | ⟨s, m, e, hm, rfl⟩ := finite_cases hu'
  · rw [exactValue_zero, zero_div]
    exact Rounded.zero _
  have hle := div_exponent_le format hm hn (e := e) (f := f)
  set d := min (e - f) (format.targetExponent (totalExponent m e - totalExponent n f))
    with hd
  have hde : d ≤ e - f := min_le_left _ _
  have hn' : (0 : ℚ) < n := by exact_mod_cast hn
  have hshifted : ((m <<< (e - f - d).toNat : ℕ) : ℚ) = m * 2 ^ (e - f - d) := by
    rw [Nat.shiftLeft_eq]
    push_cast
    rw [← zpow_natCast, Int.toNat_of_nonneg (by omega)]
  have hx : (0 : ℚ) < (m <<< (e - f - d).toNat : ℕ) / n := by
    rw [hshifted]
    exact div_pos (mul_pos (by exact_mod_cast hm) (zpow_pos two_pos _)) hn'
  have hquotient := Rounded.roundWithAccuracy (s / t) hx (tracks_quotient _ hn) hle
  have hvalue : exactValue (.finite s m e hm) / exactValue (.finite t n f hn) =
      ((s / t).apply 1 : ℤ) * ((m <<< (e - f - d).toNat : ℕ) / n * 2 ^ d) := by
    have hinv : ((t.apply 1 : ℤ) : ℚ)⁻¹ = (t.apply 1 : ℤ) := by
      cases t <;> simp [Sign.apply]
    rw [exactValue_finite, exactValue_finite, sign_div_eq_mul, sign_mul_apply, hshifted,
      zpow_sub₀ two_ne_zero, zpow_sub₀ two_ne_zero, Int.cast_mul, div_eq_mul_inv, mul_inv, hinv]
    field_simp
  rw [hvalue]
  exact hquotient

end StreetDogs.Binary
