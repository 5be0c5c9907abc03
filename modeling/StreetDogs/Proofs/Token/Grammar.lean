import StreetDogs.Token
import StreetDogs.Api.Error
import Mathlib.Data.List.Basic
import Mathlib.Tactic.IntervalCases

/-!
# The grammar of tokens

Clients write a token as 32 hexadecimal digits in either case, bare or in an
authorization header.  What they write is read as the digits in lower case, so
tokens made of bytes are read as themselves, and different bytes or numbers make
different tokens.
-/

namespace StreetDogs

namespace Text

def hexDigits : List Char := "0123456789abcdefABCDEF".toList

/-- Only digits have a value. -/
theorem mem_hexDigits_of_hexValue? {c : Char} {n : ℕ} (h : hexValue? c = some n) :
    c ∈ hexDigits := by
  rw [hexValue?] at h
  have hrange : 48 ≤ c.toNat ∧ c.toNat ≤ 57 ∨ 97 ≤ c.toNat ∧ c.toNat ≤ 102 ∨
      65 ≤ c.toNat ∧ c.toNat ≤ 70 := by
    split_ifs at h with hnumeric hlower hupper
    · exact Or.inl hnumeric
    · exact Or.inr (Or.inl hlower)
    · exact Or.inr (Or.inr hupper)
  rw [← Char.ofNat_toNat c]
  generalize c.toNat = code at hrange
  obtain ⟨hlow, hhigh⟩ | ⟨hlow, hhigh⟩ | ⟨hlow, hhigh⟩ := hrange <;> interval_cases code <;> decide

/-- A character whose lower-case form is a digit is a digit. -/
theorem mem_hexDigits_of_toLower {c : Char} (h : c.toLower ∈ hexDigits) : c ∈ hexDigits := by
  by_cases hupper : 65 ≤ c.toNat ∧ c.toNat ≤ 90
  · obtain ⟨hlow, hhigh⟩ := hupper
    rw [← Char.ofNat_toNat c] at h ⊢
    revert h
    generalize c.toNat = code at hlow hhigh
    interval_cases code <;> decide
  · have hsame : c.toLower = c := dif_neg hupper
    rwa [hsame] at h

/-- The lower-case form of a digit is a digit in lower case. -/
theorem toLower_hexDigits :
    ∀ c ∈ hexDigits, c.toLower ∈ hexDigits ∧ c.toLower.toLower = c.toLower := by
  have hall : hexDigits.all fun c =>
      decide (c.toLower ∈ hexDigits ∧ c.toLower.toLower = c.toLower) := by decide
  exact fun c hc => of_decide_eq_true (List.all_eq_true.mp hall c hc)

/-- The digit of a number is one in lower case, and has the number as its value. -/
theorem hexChar_spec {n : ℕ} (h : n < 16) :
    hexChar n ∈ hexDigits ∧ (hexChar n).toLower = hexChar n ∧ hexValue? (hexChar n) = some n := by
  interval_cases n <;> decide

end Text

namespace Token

/-- Exactly 32 hexadecimal digits in either case. -/
def IsDigits (digits : List Char) : Prop :=
  digits.length = 32 ∧ ∀ c ∈ digits, c ∈ Text.hexDigits

/-- A text consists of the digits, bare or in an authorization header. -/
def Writes (raw : String) (digits : List Char) : Prop :=
  raw.toList = digits ∨ raw.toList = "Bearer ".toList ++ digits

/-- The token with the digits in lower case. -/
def ofDigits (digits : List Char) : Token := ⟨String.ofList (digits.map Char.toLower)⟩

theorem lowerDigit?_of_mem : ∀ c ∈ Text.hexDigits, lowerDigit? c = some c.toLower := by
  have hall : Text.hexDigits.all fun c => decide (lowerDigit? c = some c.toLower) := by decide
  exact fun c hc => of_decide_eq_true (List.all_eq_true.mp hall c hc)

theorem lowerDigit?_eq_some_iff {c d : Char} :
    lowerDigit? c = some d ↔ c ∈ Text.hexDigits ∧ c.toLower = d := by
  constructor
  · intro h
    obtain ⟨n, hvalue, -⟩ := Option.map_eq_some_iff.mp h
    have hmem := Text.mem_hexDigits_of_hexValue? hvalue
    rw [lowerDigit?_of_mem c hmem] at h
    exact ⟨hmem, Option.some.inj h⟩
  · rintro ⟨hmem, rfl⟩
    exact lowerDigit?_of_mem c hmem

theorem mapM_lowerDigit?_eq_some_iff {chars digits : List Char} :
    chars.mapM lowerDigit? = some digits ↔
      (∀ c ∈ chars, c ∈ Text.hexDigits) ∧ chars.map Char.toLower = digits := by
  induction chars generalizing digits with
  | nil => simp
  | cons c chars ih =>
      simp only [List.mapM_cons, Option.bind_eq_bind, Option.bind_eq_some_iff, Option.pure_def,
        Option.some.injEq, ih, lowerDigit?_eq_some_iff, List.forall_mem_cons, List.map_cons]
      constructor
      · rintro ⟨_, ⟨hmem, rfl⟩, _, ⟨hmems, rfl⟩, rfl⟩
        exact ⟨⟨hmem, hmems⟩, rfl⟩
      · rintro ⟨⟨hmem, hmems⟩, rfl⟩
        exact ⟨_, ⟨hmem, rfl⟩, _, ⟨hmems, rfl⟩, rfl⟩

theorem parse?_eq_some_iff {raw : String} {token : Token} :
    parse? raw = some token ↔ IsDigits raw.toList ∧ ofDigits raw.toList = token := by
  rw [parse?, IsDigits, ofDigits]
  split_ifs with hlength
  · rw [Option.map_eq_some_iff]
    simp only [mapM_lowerDigit?_eq_some_iff]
    constructor
    · rintro ⟨_, ⟨hdigits, rfl⟩, rfl⟩
      exact ⟨⟨hlength, hdigits⟩, rfl⟩
    · rintro ⟨⟨-, hdigits⟩, rfl⟩
      exact ⟨_, ⟨hdigits, rfl⟩, rfl⟩
  · exact iff_of_false nofun fun h => hlength h.1.1

theorem ofBearer?_eq_some_iff {header : String} {token : Token} :
    ofBearer? header = some token ↔
      ∃ digits, header.toList = "Bearer ".toList ++ digits ∧ IsDigits digits ∧
        ofDigits digits = token := by
  have hbearer : "Bearer ".toList = bearer := rfl
  rw [ofBearer?, hbearer]
  split_ifs with hprefix
  · obtain ⟨digits, hdigits⟩ := List.isPrefixOf_iff_prefix.mp hprefix
    rw [← hdigits, List.drop_left, parse?_eq_some_iff, String.toList_ofList]
    constructor
    · exact fun h => ⟨digits, rfl, h⟩
    · rintro ⟨_, heq, h⟩
      rwa [← List.append_cancel_left heq] at h
  · refine iff_of_false nofun ?_
    rintro ⟨digits, hdigits, -⟩
    exact hprefix (List.isPrefixOf_iff_prefix.mpr ⟨digits, hdigits.symm⟩)

/-- A text is read as a token exactly when it consists of 32 digits, bare or in a
header, and the token has these digits in lower case. -/
theorem ofClient?_eq_some_iff {raw : String} {token : Token} :
    ofClient? raw = some token ↔
      ∃ digits, IsDigits digits ∧ Writes raw digits ∧ ofDigits digits = token := by
  rw [ofClient?]
  constructor
  · intro h
    rcases Option.or_eq_some_iff.mp h with h | ⟨-, h⟩
    · obtain ⟨digits, hraw, hdigits, htoken⟩ := ofBearer?_eq_some_iff.mp h
      exact ⟨digits, hdigits, Or.inr hraw, htoken⟩
    · obtain ⟨hdigits, htoken⟩ := parse?_eq_some_iff.mp h
      exact ⟨_, hdigits, Or.inl rfl, htoken⟩
  · rintro ⟨digits, hdigits, rfl | hraw, htoken⟩
    · have hbare : ofBearer? raw = none := by
        rw [Option.eq_none_iff_forall_ne_some]
        intro other hother
        obtain ⟨rest, hraw, -⟩ := ofBearer?_eq_some_iff.mp hother
        have hletter : 'r' ∈ Text.hexDigits := hdigits.2 'r' (by rw [hraw]; simp)
        revert hletter
        decide
      rw [hbare, Option.none_or]
      exact parse?_eq_some_iff.mpr ⟨hdigits, htoken⟩
    · rw [ofBearer?_eq_some_iff.mpr ⟨digits, hraw, hdigits, htoken⟩, Option.some_or]

theorem ofClient?_eq_none_iff {raw : String} :
    ofClient? raw = none ↔ ∀ digits, IsDigits digits → ¬ Writes raw digits := by
  rw [Option.eq_none_iff_forall_ne_some]
  constructor
  · intro h digits hdigits hraw
    exact h _ (ofClient?_eq_some_iff.mpr ⟨digits, hdigits, hraw, rfl⟩)
  · intro h token htoken
    obtain ⟨digits, hdigits, hraw, -⟩ := ofClient?_eq_some_iff.mp htoken
    exact h digits hdigits hraw

theorem parseToken_eq_ok_iff {raw : String} {token : Token} :
    Api.parseToken raw = .ok token ↔ ofClient? raw = some token := by
  rw [Api.parseToken]
  cases ofClient? raw with
  | none => exact iff_of_false nofun nofun
  | some other => rw [Except.ok.injEq, Option.some.injEq]

theorem parseToken_eq_error_iff {raw : String} {error : Api.ApiError} :
    Api.parseToken raw = .error error ↔ error = .invalidToken ∧ ofClient? raw = none := by
  rw [Api.parseToken]
  cases ofClient? raw with
  | none => rw [Except.error.injEq, eq_comm, and_iff_left rfl]
  | some other => exact iff_of_false nofun fun h => nomatch h.2

/-- The token has 32 digits in lower case. -/
def IsNormal (token : Token) : Prop :=
  IsDigits token.text.toList ∧ ∀ c ∈ token.text.toList, c.toLower = c

/-- Digits that differ from those of the token in nothing but their case. -/
theorem IsNormal.of_toLower {token : Token} (h : token.IsNormal) {digits : List Char}
    (hdigits : digits.map Char.toLower = token.text.toList) :
    IsDigits digits ∧ ofDigits digits = token := by
  refine ⟨⟨?_, fun c hc => ?_⟩, ?_⟩
  · rw [← h.1.1, ← hdigits, List.length_map]
  · apply Text.mem_hexDigits_of_toLower
    apply h.1.2
    rw [← hdigits]
    exact List.mem_map_of_mem hc
  · rw [ofDigits, hdigits, String.ofList_toList]

/-- The token is read from its digits in any mix of cases, bare or in a header. -/
theorem IsNormal.ofClient?_eq {token : Token} (h : token.IsNormal) {raw : String}
    {digits : List Char} (hdigits : digits.map Char.toLower = token.text.toList)
    (hraw : Writes raw digits) : ofClient? raw = some token := by
  obtain ⟨his, htoken⟩ := h.of_toLower hdigits
  exact ofClient?_eq_some_iff.mpr ⟨digits, his, hraw, htoken⟩

/-- A token in normal form is read as itself. -/
theorem IsNormal.ofClient?_text {token : Token} (h : token.IsNormal) :
    ofClient? token.text = some token :=
  h.ofClient?_eq ((List.map_congr_left h.2).trans (List.map_id _)) (Or.inl rfl)

theorem IsNormal.parse?_text {token : Token} (h : token.IsNormal) :
    parse? token.text = some token :=
  parse?_eq_some_iff.mpr ⟨h.1, (h.of_toLower ((List.map_congr_left h.2).trans (List.map_id _))).2⟩

/-- What is read is in normal form. -/
theorem isNormal_of_ofClient? {raw : String} {token : Token} (h : ofClient? raw = some token) :
    token.IsNormal := by
  obtain ⟨digits, ⟨hlength, hdigits⟩, -, rfl⟩ := ofClient?_eq_some_iff.mp h
  rw [IsNormal, IsDigits, ofDigits, String.toList_ofList, List.length_map]
  simp only [List.forall_mem_map]
  exact ⟨⟨hlength, fun c hc => (Text.toLower_hexDigits c (hdigits c hc)).1⟩,
    fun c hc => (Text.toLower_hexDigits c (hdigits c hc)).2⟩

theorem byteChars_eq (byte : UInt8) :
    byteChars byte = [Text.hexChar (byte.toNat / 16), Text.hexChar (byte.toNat % 16)] := by
  have hlt := byte.toNat_lt
  rw [byteChars, Text.hexPadded, Text.hexPadded, Text.hexPadded, List.nil_append,
    Nat.mod_eq_of_lt (by omega : byte.toNat / 16 < 16)]
  rfl

/-- The digits of a byte tell the byte. -/
theorem byteChars_injective : Function.Injective byteChars := by
  intro a b h
  have ha := a.toNat_lt
  have hb := b.toNat_lt
  rw [byteChars_eq, byteChars_eq, List.cons.injEq, List.cons.injEq] at h
  obtain ⟨hhigh, hlow, -⟩ := h
  have hvalue {m n : ℕ} (hm : m < 16) (hn : n < 16) (hmn : Text.hexChar m = Text.hexChar n) :
      m = n := by
    have hvalue := (Text.hexChar_spec hm).2.2
    rw [hmn, (Text.hexChar_spec hn).2.2] at hvalue
    exact (Option.some.inj hvalue).symm
  have hquotients := hvalue (by omega) (by omega) hhigh
  have hremainders := hvalue (by omega) (by omega) hlow
  apply UInt8.toNat_inj.mp
  omega

theorem flatMap_byteChars_injective :
    Function.Injective fun bytes : List UInt8 => bytes.flatMap byteChars := by
  intro left right h
  induction left generalizing right with
  | nil =>
      cases right with
      | nil => rfl
      | cons b right => simp [byteChars_eq] at h
  | cons a left ih =>
      cases right with
      | nil => simp [byteChars_eq] at h
      | cons b right =>
          simp only [List.flatMap_cons] at h
          obtain ⟨hbyte, hrest⟩ := List.append_inj h (by rw [byteChars_eq, byteChars_eq]; rfl)
          rw [byteChars_injective hbyte, ih hrest]

/-- Different bytes make different tokens. -/
theorem ofBytes_injective : Function.Injective ofBytes := by
  intro left right h
  have htext := congrArg (fun token => token.text.toList) h
  simp only [ofBytes, String.toList_ofList] at htext
  exact Vector.toList_inj.mp (flatMap_byteChars_injective htext)

/-- The byte of a number that holds a bit, and the place of the bit in it. -/
private theorem getLsbD_eq_testBit_byte (n : BitVec 128) (bit : ℕ) :
    n.getLsbD bit = ((n >>> (8 * (bit / 8))).toNat.toUInt8).toNat.testBit (bit % 8) := by
  have hlt : bit % 8 < 8 := Nat.mod_lt _ (by decide)
  rw [BitVec.toNat_ushiftRight, UInt8.toNat_ofNat', Nat.testBit_mod_two_pow, Nat.testBit_shiftRight,
    decide_eq_true hlt, Bool.true_and, Nat.div_add_mod, BitVec.testBit_toNat]

/-- Different numbers make different tokens. -/
theorem ofNumber_injective : Function.Injective ofNumber := by
  intro left right h
  have hbytes := ofBytes_injective h
  apply BitVec.eq_of_getLsbD_eq
  intro bit hbit
  have hindex : 15 - bit / 8 < 16 := by omega
  have hbyte := congrArg (fun bytes => bytes[15 - bit / 8]) hbytes
  simp only [Vector.getElem_ofFn] at hbyte
  rw [Nat.sub_sub_self (by omega : bit / 8 ≤ 15)] at hbyte
  rw [getLsbD_eq_testBit_byte, getLsbD_eq_testBit_byte, hbyte]

/-- A token made of bytes is in normal form. -/
theorem isNormal_ofBytes (bytes : Vector UInt8 16) : (ofBytes bytes).IsNormal := by
  have hdigit : ∀ c ∈ bytes.toList.flatMap byteChars, c ∈ Text.hexDigits ∧ c.toLower = c := by
    intro c hc
    obtain ⟨byte, -, hbyte⟩ := List.mem_flatMap.mp hc
    have hlt := byte.toNat_lt
    rw [byteChars_eq, List.mem_pair] at hbyte
    rcases hbyte with rfl | rfl
    · obtain ⟨hmem, hlower, -⟩ := Text.hexChar_spec (by omega : byte.toNat / 16 < 16)
      exact ⟨hmem, hlower⟩
    · obtain ⟨hmem, hlower, -⟩ := Text.hexChar_spec (by omega : byte.toNat % 16 < 16)
      exact ⟨hmem, hlower⟩
  rw [IsNormal, IsDigits, ofBytes, String.toList_ofList]
  refine ⟨⟨?_, fun c hc => (hdigit c hc).1⟩, fun c hc => (hdigit c hc).2⟩
  simp [List.length_flatMap, byteChars_eq]

end Token

end StreetDogs
