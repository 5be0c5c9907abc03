import Mathlib
import StreetDogs.Decimal.Digits

/-!
# Written digits

The digits of a number read back as the number, and a text of digits is taken
up to the first character that is none.
-/

namespace StreetDogs

namespace Digit

@[simp]
theorem ofChar?_char (digit : Digit) : ofChar? digit.char = some digit := by
  revert digit
  decide

end Digit

namespace Decimal

/-- A text that does not go on with a digit. -/
def StopsDigits (text : List Char) : Prop := ∀ c ∈ text.head?, Digit.ofChar? c = none

theorem takeDigits_of_stops {text : List Char} (h : StopsDigits text) :
    takeDigits text = ([], text) := by
  cases text with
  | nil => rfl
  | cons c text =>
      have hc : Digit.ofChar? c = none := h c rfl
      rw [takeDigits, hc]

/-- Written digits are taken back, and what follows them is left. -/
theorem takeDigits_map_char (digits : List Digit) {rest : List Char} (h : StopsDigits rest) :
    takeDigits (digits.map Digit.char ++ rest) = (digits, rest) := by
  induction digits with
  | nil => exact takeDigits_of_stops h
  | cons digit digits ih =>
      rw [List.map_cons, List.cons_append, takeDigits, Digit.ofChar?_char]
      simp only [ih]

theorem digitsOnto_eq (n : ℕ) (tail : List Digit) : digitsOnto n tail = digits n ++ tail := by
  induction n using Nat.strong_induction_on generalizing tail with
  | h n ih =>
      rw [digits, digitsOnto.eq_1 n tail, digitsOnto.eq_1 n []]
      split
      · rfl
      · have hlt : n / 10 < n := by omega
        rw [ih _ hlt, ih _ hlt [_], List.append_assoc]
        rfl

theorem digits_of_lt {n : ℕ} (h : n < 10) : digits n = [⟨n, h⟩] := by
  rw [digits, digitsOnto]
  simp [h, Nat.mod_eq_of_lt h]

/-- The last digit of a number comes behind the digits of its tenth part. -/
theorem digits_of_le {n : ℕ} (h : 10 ≤ n) :
    digits n = digits (n / 10) ++ [⟨n % 10, Nat.mod_lt n (by decide)⟩] := by
  rw [digits, digitsOnto]
  rw [dif_neg (by omega), digitsOnto_eq]

@[simp]
theorem ofDigits_digits (n : ℕ) : ofDigits (digits n) = n := by
  induction n using Nat.strong_induction_on with
  | h n ih =>
      by_cases hn : n < 10
      · rw [digits_of_lt hn]
        simp [ofDigits, extend]
      · have hfold := ih (n / 10) (by omega)
        rw [ofDigits, extend] at hfold ⊢
        rw [digits_of_le (by omega), List.foldl_append, hfold]
        simp only [List.foldl_cons, List.foldl_nil]
        omega

/-- A number of several digits starts with another digit than zero. -/
theorem digits_eq_cons {n : ℕ} (h : 10 ≤ n) :
    ∃ first second more, digits n = first :: second :: more ∧ first.val ≠ 0 := by
  induction n using Nat.strong_induction_on with
  | h n ih =>
      rw [digits_of_le h]
      by_cases hn : n / 10 < 10
      · refine ⟨⟨n / 10, hn⟩, ⟨n % 10, Nat.mod_lt n (by decide)⟩, [], ?_, ?_⟩
        · rw [digits_of_lt hn]
          rfl
        · change n / 10 ≠ 0
          omega
      · obtain ⟨first, second, more, hdigits, hne⟩ := ih (n / 10) (by omega) (by omega)
        refine ⟨first, second, more ++ [⟨n % 10, Nat.mod_lt n (by decide)⟩], ?_, hne⟩
        rw [hdigits]
        rfl

end Decimal

end StreetDogs
