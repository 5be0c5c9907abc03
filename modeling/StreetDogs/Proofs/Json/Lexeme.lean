import StreetDogs.Proofs.Decimal.Digits
import StreetDogs.Json.Lexeme

/-!
# Lexemes read back

What a lexeme writes is read as that lexeme, up to its last character and no
further.  Only a number depends on the text behind it, which must not go on with
the number.
-/

namespace StreetDogs.Json.Lexeme

/-- A text that does not go on with the number before it. -/
def EndsNumber (text : List Char) : Prop :=
  ∀ c ∈ text.head?, Digit.ofChar? c = none ∧ c ≠ '.' ∧ c ≠ 'e' ∧ c ≠ 'E'

theorem EndsNumber.stopsDigits {text : List Char} (h : EndsNumber text) :
    Decimal.StopsDigits text := fun c hc => (h c hc).1

theorem endsNumber_nil : EndsNumber [] := by simp [EndsNumber]

def fractionChars (fraction : List Digit) : List Char :=
  if fraction.isEmpty then [] else '.' :: fraction.map Digit.char

def exponentChars : Option Int → List Char
  | none => []
  | some exponent => 'e' :: Numeral.exponentChars exponent

def unsignedChars (numeral : Numeral) : List Char :=
  Decimal.chars numeral.whole ++ fractionChars numeral.fraction ++ exponentChars numeral.exponent

theorem numeral_chars (numeral : Numeral) :
    numeral.chars = (if numeral.negative then ['-'] else []) ++ unsignedChars numeral := by
  obtain ⟨negative, whole, fraction, exponent⟩ := numeral
  cases exponent <;>
    simp [Numeral.chars, unsignedChars, fractionChars, exponentChars]

/-- A written number starts with a digit. -/
theorem chars_eq_cons (n : ℕ) : ∃ digit more, Decimal.chars n = Digit.char digit :: more := by
  rw [Decimal.chars]
  by_cases hn : n < 10
  · rw [Decimal.digits_of_lt hn]
    exact ⟨_, _, rfl⟩
  · obtain ⟨first, second, more, hdigits, -⟩ := Decimal.digits_eq_cons (Nat.le_of_not_lt hn)
    rw [hdigits]
    exact ⟨_, _, rfl⟩

variable {rest : List Char}

theorem scanWhole?_chars (n : ℕ) (h : Decimal.StopsDigits rest) :
    scanWhole? (Decimal.chars n ++ rest) = some (n, rest) := by
  rw [scanWhole?, Decimal.chars, Decimal.takeDigits_map_char _ h]
  by_cases hn : n < 10
  · rw [Decimal.digits_of_lt hn]
  · obtain ⟨first, second, more, hdigits, hne⟩ := Decimal.digits_eq_cons (Nat.le_of_not_lt hn)
    have hvalue := Decimal.ofDigits_digits n
    rw [hdigits] at hvalue ⊢
    simp only [if_neg hne, hvalue]

theorem scanFraction?_chars (fraction : List Digit) (hstops : Decimal.StopsDigits rest)
    (hpoint : ∀ c ∈ rest.head?, c ≠ '.') :
    scanFraction? (fractionChars fraction ++ rest) = some (fraction, rest) := by
  cases fraction with
  | nil =>
      cases rest with
      | nil => rfl
      | cons c rest =>
          have hc : c ≠ '.' := hpoint c rfl
          change scanFraction? (c :: rest) = _
          rw [scanFraction?]
          simpa using hc
  | cons digit fraction =>
      change scanFraction? ('.' :: ((digit :: fraction).map Digit.char ++ rest)) = _
      rw [scanFraction?, Decimal.takeDigits_map_char _ hstops]

theorem scanExponentDigits?_chars (n : ℕ) (h : Decimal.StopsDigits rest) :
    scanExponentDigits? (Decimal.chars n ++ rest) = some (n, rest) := by
  rw [scanExponentDigits?, Decimal.chars, Decimal.takeDigits_map_char _ h]
  have hvalue := Decimal.ofDigits_digits n
  obtain ⟨digit, more, hchars⟩ := chars_eq_cons n
  cases hdigits : Decimal.digits n with
  | nil => simp [Decimal.chars, hdigits] at hchars
  | cons digit digits =>
      rw [hdigits] at hvalue
      simp only [hvalue]

theorem scanSignedExponent?_chars (exponent : ℤ) (h : Decimal.StopsDigits rest) :
    scanSignedExponent? (Numeral.exponentChars exponent ++ rest) = some (exponent, rest) := by
  have hscan := scanExponentDigits?_chars exponent.natAbs h
  rw [Numeral.exponentChars]
  by_cases hneg : exponent < 0
  · rw [if_pos hneg, List.cons_append, scanSignedExponent?, hscan, Option.map_some]
    simp only [Option.some.injEq, Prod.mk.injEq, and_true]
    omega
  · rw [if_neg hneg, List.cons_append, scanSignedExponent?, hscan, Option.map_some]
    simp only [Option.some.injEq, Prod.mk.injEq, and_true]
    omega

theorem scanExponent?_chars (exponent : Option ℤ) (h : EndsNumber rest) :
    scanExponent? (exponentChars exponent ++ rest) = some (exponent, rest) := by
  cases exponent with
  | none =>
      cases rest with
      | nil => rfl
      | cons c rest =>
          obtain ⟨-, -, hlower, hupper⟩ := h c rfl
          change scanExponent? (c :: rest) = _
          rw [scanExponent?]
          · simpa using hlower
          · simpa using hupper
  | some exponent =>
      rw [exponentChars, List.cons_append, scanExponent?,
        scanSignedExponent?_chars exponent h.stopsDigits]
      rfl

theorem scanUnsigned?_chars (numeral : Numeral) (h : EndsNumber rest) :
    scanUnsigned? numeral.negative (unsignedChars numeral ++ rest) = some (numeral, rest) := by
  obtain ⟨negative, whole, fraction, exponent⟩ := numeral
  have hexponent : ∀ c ∈ (exponentChars exponent ++ rest).head?,
      Digit.ofChar? c = none ∧ c ≠ '.' := by
    cases exponent with
    | none => exact fun c hc => ⟨(h c hc).1, (h c hc).2.1⟩
    | some exponent =>
        rintro c ⟨⟩
        exact ⟨by decide, by decide⟩
  have hfraction :
      Decimal.StopsDigits (fractionChars fraction ++ (exponentChars exponent ++ rest)) := by
    cases fraction with
    | nil => exact fun c hc => (hexponent c hc).1
    | cons digit fraction =>
        rintro c ⟨⟩
        decide
  rw [unsignedChars, List.append_assoc, List.append_assoc, scanUnsigned?,
    scanWhole?_chars whole hfraction]
  have hscanned := scanFraction?_chars fraction (fun c hc => (hexponent c hc).1)
    fun c hc => (hexponent c hc).2
  simp only [Option.bind_eq_bind, Option.bind_some, hscanned, scanExponent?_chars exponent h]
  rfl

theorem scan?_numeral (numeral : Numeral) (h : EndsNumber rest) :
    scan? (numeral.chars ++ rest) = some (number numeral, rest) := by
  have hscan := scanUnsigned?_chars numeral h
  obtain ⟨digit, more, hchars⟩ := chars_eq_cons numeral.whole
  obtain ⟨text, htext⟩ : ∃ text, unsignedChars numeral ++ rest = digit.char :: text := by
    rw [unsignedChars, hchars]
    exact ⟨_, rfl⟩
  rw [numeral_chars, List.append_assoc, htext]
  rw [htext] at hscan
  cases hnegative : numeral.negative with
  | true =>
      rw [hnegative] at hscan
      change (scanUnsigned? true (digit.char :: text)).map _ = _
      rw [hscan]
      rfl
  | false =>
      rw [hnegative] at hscan
      have hnumber : scan? (digit.char :: text) =
          (scanUnsigned? false (digit.char :: text)).map
            fun found => (number found.1, found.2) := by
        fin_cases digit <;> rfl
      change scan? (digit.char :: text) = _
      rw [hnumber, hscan]
      rfl

def withUnit (unit : ℕ) : List ℕ × List Char → List ℕ × List Char
  | (units, rest) => (unit :: units, rest)

/-- An escape of one character is read as the character it stands for. -/
theorem scanUnits?_short {letter c : Char} (hletter : letter ≠ 'u')
    (hshort : shortEscape? letter = some c) (text : List Char) :
    scanUnits? ('\\' :: letter :: text) = (scanUnits? text).map (withUnit c.toNat) := by
  rw [scanUnits?.eq_3 _ _ fun _ _ _ _ _ hu => absurd hu hletter, hshort]
  cases scanUnits? text <;> rfl

/-- An escape of four hexadecimal digits is read as the number it writes. -/
theorem scanUnits?_hex {n : ℕ} (h : n < 32) (text : List Char) :
    scanUnits? ('\\' :: 'u' :: (Text.hexPadded 4 n ++ text)) =
      (scanUnits? text).map (withUnit n) := by
  obtain ⟨a, b, c, d, hchars, hvalue⟩ :
      ∃ a b c d, Text.hexPadded 4 n = [a, b, c, d] ∧ hex4? a b c d = some n := by
    interval_cases n <;> exact ⟨_, _, _, _, rfl, by decide⟩
  rw [hchars]
  change scanUnits? ('\\' :: 'u' :: a :: b :: c :: d :: text) = _
  rw [scanUnits?, hvalue]
  cases scanUnits? text <;> rfl

/-- A character that needs no escape is read as itself. -/
theorem scanUnits?_plain {c : Char} (hquote : c ≠ '"') (hslash : c ≠ '\\')
    (hcontrol : ¬ c.toNat < 0x20) (text : List Char) :
    scanUnits? (c :: text) = (scanUnits? text).map (withUnit c.toNat) := by
  rw [scanUnits?.eq_4 _ _ hquote (fun _ _ _ _ _ hc => absurd hc hslash)
    fun _ _ hc => absurd hc hslash, if_neg hcontrol]
  cases scanUnits? text <;> rfl

theorem scanUnits?_escapedChar (c : Char) (text : List Char) :
    scanUnits? (escapedChar c ++ text) = (scanUnits? text).map (withUnit c.toNat) := by
  fun_cases escapedChar c with
  | case8 _ hquote hslash _ _ _ _ _ hcontrol => exact scanUnits?_hex hcontrol text
  | case9 _ hquote hslash _ _ _ _ _ hcontrol =>
      exact scanUnits?_plain hquote hslash hcontrol text
  | _ => exact scanUnits?_short (by decide) rfl text

/-- The characters between the quotes are read as their codes. -/
theorem scanUnits?_flatMap (content : List Char) (rest : List Char) :
    scanUnits? (content.flatMap escapedChar ++ '"' :: rest) =
      some (content.map Char.toNat, rest) := by
  induction content with
  | nil => rfl
  | cons c content ih =>
      rw [List.flatMap_cons, List.append_assoc, scanUnits?_escapedChar, ih]
      rfl

/-- No character has the code of a surrogate. -/
theorem not_isSurrogate (c : Char) : isLead c.toNat = false ∧ isTrail c.toNat = false := by
  have hvalid : c.toNat < 0xD800 ∨ 0xDFFF < c.toNat ∧ c.toNat < 0x110000 := c.valid
  simp only [isLead, isTrail, Bool.and_eq_false_iff, decide_eq_false_iff_not]
  omega

theorem joinUnits?_map_toNat (content : List Char) :
    joinUnits? (content.map Char.toNat) = some content := by
  induction content with
  | nil => rfl
  | cons c content ih =>
      obtain ⟨hlead, htrail⟩ := not_isSurrogate c
      cases content with
      | nil => simp [joinUnits?, hlead, htrail, Char.ofNat_toNat]
      | cons d content =>
          rw [List.map_cons] at ih
          rw [List.map_cons, List.map_cons, joinUnits?, hlead, htrail, ih]
          simp [Char.ofNat_toNat]

theorem scan?_string (content : String) (rest : List Char) :
    scan? ((string (some content)).chars ++ rest) = some (string (some content), rest) := by
  have hchars : (string (some content)).chars ++ rest =
      '"' :: (content.toList.flatMap escapedChar ++ '"' :: rest) := by
    rw [chars, stringChars, Option.getD_some, List.cons_append, List.append_assoc]
    rfl
  rw [hchars, scan?, scanUnits?_flatMap]
  simp [joinUnits?_map_toNat]

/-- The lexeme reads back when it is written in front of the text. -/
def StandsBefore (rest : List Char) : Lexeme → Prop
  | number _ => EndsNumber rest
  | string content => content.isSome
  | _ => True

theorem scan?_chars {lexeme : Lexeme} (h : lexeme.StandsBefore rest) :
    scan? (lexeme.chars ++ rest) = some (lexeme, rest) := by
  cases lexeme with
  | number numeral => exact scan?_numeral numeral h
  | string content =>
      obtain ⟨content, rfl⟩ := Option.isSome_iff_exists.mp h
      exact scan?_string content rest
  | bool value => cases value <;> rfl
  | _ => rfl

/-- A lexeme starts with a character that is no blank. -/
theorem chars_eq_cons_of_not_isBlank (lexeme : Lexeme) :
    ∃ c more, lexeme.chars = c :: more ∧ isBlank c = false := by
  cases lexeme with
  | number numeral =>
      obtain ⟨digit, more, hchars⟩ := chars_eq_cons numeral.whole
      rw [chars, numeral_chars, unsignedChars, hchars]
      cases numeral.negative with
      | true => exact ⟨_, _, rfl, by decide⟩
      | false => exact ⟨_, _, rfl, by clear hchars; revert digit; decide⟩
  | bool value => cases value <;> exact ⟨_, _, rfl, by decide⟩
  | _ => exact ⟨_, _, rfl, by decide⟩

end StreetDogs.Json.Lexeme
