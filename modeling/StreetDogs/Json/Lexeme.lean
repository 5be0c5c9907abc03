import StreetDogs.Decimal.Layout
import StreetDogs.Text.Hex

/-!
# Lexemes

The smallest meaningful parts of a document: punctuation, literals, numbers and
strings.  `Lexeme.scan?` reads one lexeme from a text and `Lexeme.chars` writes
one; blanks may stand between lexemes.
-/

namespace StreetDogs.Json

/-- A part of a document.  A string whose escapes leave a surrogate unpaired has
no content. -/
inductive Lexeme where
  | openBrace
  | closeBrace
  | openBracket
  | closeBracket
  | comma
  | colon
  | null
  | bool (value : Bool)
  | number (numeral : Numeral)
  | string (content : Option String)
deriving DecidableEq, Repr

/-- The characters that may stand between lexemes. -/
def isBlank (c : Char) : Bool := c == ' ' || c == '\t' || c == '\n' || c == '\r'

namespace Lexeme

/-! ## Writing -/

/-- A character inside a string: quotes, backslashes and control characters are
escaped, everything else stands for itself. -/
def escapedChar (c : Char) : List Char :=
  match c with
  | '"' => ['\\', '"']
  | '\\' => ['\\', '\\']
  | '\x08' => ['\\', 'b']
  | '\t' => ['\\', 't']
  | '\n' => ['\\', 'n']
  | '\x0c' => ['\\', 'f']
  | '\r' => ['\\', 'r']
  | c => if c.toNat < 0x20 then ['\\', 'u'] ++ Text.hexPadded 4 c.toNat else [c]

def stringChars (content : List Char) : List Char :=
  '"' :: (content.flatMap escapedChar ++ ['"'])

def chars : Lexeme → List Char
  | openBrace => ['{']
  | closeBrace => ['}']
  | openBracket => ['[']
  | closeBracket => [']']
  | comma => [',']
  | colon => [':']
  | null => ['n', 'u', 'l', 'l']
  | bool true => ['t', 'r', 'u', 'e']
  | bool false => ['f', 'a', 'l', 's', 'e']
  | number numeral => numeral.chars
  | string content => stringChars (content.getD "").toList

/-! ## Strings -/

def hex4? (a b c d : Char) : Option Nat := do
  let a ← Text.hexValue? a
  let b ← Text.hexValue? b
  let c ← Text.hexValue? c
  let d ← Text.hexValue? d
  return ((a * 16 + b) * 16 + c) * 16 + d

/-- The character behind a backslash, for the escapes of one character. -/
def shortEscape? : Char → Option Char
  | '"' => some '"'
  | '\\' => some '\\'
  | '/' => some '/'
  | 'b' => some '\x08'
  | 'f' => some '\x0c'
  | 'n' => some '\n'
  | 'r' => some '\r'
  | 't' => some '\t'
  | _ => none

/-- The code units of a string up to its closing quote, and the text behind the
quote.  Escaped surrogates are units of their own. -/
def scanUnits? : List Char → Option (List Nat × List Char)
  | '"' :: text => some ([], text)
  | '\\' :: 'u' :: a :: b :: c :: d :: text => do
    let unit ← hex4? a b c d
    let (units, rest) ← scanUnits? text
    return (unit :: units, rest)
  | '\\' :: c :: text => do
    let c ← shortEscape? c
    let (units, rest) ← scanUnits? text
    return (c.toNat :: units, rest)
  | c :: text =>
    if c.toNat < 0x20 then none
    else do
      let (units, rest) ← scanUnits? text
      return (c.toNat :: units, rest)
  | [] => none

def isLead (unit : Nat) : Bool := decide (0xD800 ≤ unit) && decide (unit < 0xDC00)

def isTrail (unit : Nat) : Bool := decide (0xDC00 ≤ unit) && decide (unit < 0xE000)

/-- The characters of code units: a leading and a trailing surrogate make one
character, and neither may stand alone. -/
def joinUnits? : List Nat → Option (List Char)
  | [] => some []
  | lead :: trail :: units =>
    if isLead lead then
      if isTrail trail then do
        let chars ← joinUnits? units
        return Char.ofNat (0x10000 + (lead - 0xD800) * 0x400 + (trail - 0xDC00)) :: chars
      else
        none
    else if isTrail lead then none
    else do
      let chars ← joinUnits? (trail :: units)
      return Char.ofNat lead :: chars
  | [unit] => if isLead unit || isTrail unit then none else some [Char.ofNat unit]

/-! ## Numbers -/

/-- The digits before the point: a single zero, or digits that start with
another one. -/
def scanWhole? (text : List Char) : Option (Nat × List Char) :=
  match Decimal.takeDigits text with
  | ([], _) => none
  | ([digit], rest) => some (digit.val, rest)
  | (digit :: digits, rest) =>
    if digit.val = 0 then none else some (Decimal.ofDigits (digit :: digits), rest)

/-- The point and the digits after it, if there is a point. -/
def scanFraction? : List Char → Option (List Digit × List Char)
  | '.' :: text =>
    match Decimal.takeDigits text with
    | ([], _) => none
    | (digits, rest) => some (digits, rest)
  | text => some ([], text)

def scanExponentDigits? (text : List Char) : Option (Nat × List Char) :=
  match Decimal.takeDigits text with
  | ([], _) => none
  | (digits, rest) => some (Decimal.ofDigits digits, rest)

/-- The exponent behind its letter: an optional sign and at least one digit. -/
def scanSignedExponent? : List Char → Option (Int × List Char)
  | '+' :: text => (scanExponentDigits? text).map fun (n, rest) => (n, rest)
  | '-' :: text => (scanExponentDigits? text).map fun (n, rest) => (-n, rest)
  | text => (scanExponentDigits? text).map fun (n, rest) => (n, rest)

/-- The exponent, if its letter is there. -/
def scanExponent? : List Char → Option (Option Int × List Char)
  | 'e' :: text => (scanSignedExponent? text).map fun (e, rest) => (some e, rest)
  | 'E' :: text => (scanSignedExponent? text).map fun (e, rest) => (some e, rest)
  | text => some (none, text)

def scanUnsigned? (negative : Bool) (text : List Char) : Option (Numeral × List Char) := do
  let (whole, text) ← scanWhole? text
  let (fraction, text) ← scanFraction? text
  let (exponent, text) ← scanExponent? text
  return ({ negative, whole, fraction, exponent }, text)

def scanNumber? : List Char → Option (Numeral × List Char)
  | '-' :: text => scanUnsigned? true text
  | text => scanUnsigned? false text

/-! ## Reading -/

/-- Reads the lexeme at the start of a text that does not start with a blank. -/
def scan? : List Char → Option (Lexeme × List Char)
  | '{' :: text => some (openBrace, text)
  | '}' :: text => some (closeBrace, text)
  | '[' :: text => some (openBracket, text)
  | ']' :: text => some (closeBracket, text)
  | ',' :: text => some (comma, text)
  | ':' :: text => some (colon, text)
  | 'n' :: 'u' :: 'l' :: 'l' :: text => some (null, text)
  | 't' :: 'r' :: 'u' :: 'e' :: text => some (bool true, text)
  | 'f' :: 'a' :: 'l' :: 's' :: 'e' :: text => some (bool false, text)
  | '"' :: text =>
    (scanUnits? text).map fun (units, rest) =>
      (string ((joinUnits? units).map String.ofList), rest)
  | text => (scanNumber? text).map fun (numeral, rest) => (number numeral, rest)

/-! ## Progress -/

private theorem scanUnits?_length {text : List Char} {units : List Nat} {rest : List Char}
    (hscan : scanUnits? text = some (units, rest)) : rest.length < text.length := by
  fun_induction scanUnits? text generalizing units rest with
  | case1 text =>
      simp only [Option.some.injEq, Prod.mk.injEq] at hscan
      simp [← hscan.2]
  | case2 a b c d text ih =>
      simp only [Option.bind_eq_bind, Option.pure_def, Option.bind_eq_some_iff,
        Option.some.injEq, Prod.mk.injEq, Prod.exists] at hscan
      obtain ⟨_, _, _, _, hrest, _, rfl⟩ := hscan
      have := ih hrest
      simp only [List.length_cons]
      omega
  | case3 c text _ ih =>
      simp only [Option.bind_eq_bind, Option.pure_def, Option.bind_eq_some_iff,
        Option.some.injEq, Prod.mk.injEq, Prod.exists] at hscan
      obtain ⟨_, _, _, _, hrest, _, rfl⟩ := hscan
      have := ih hrest
      simp only [List.length_cons]
      omega
  | case4 => simp at hscan
  | case5 c text _ _ _ hc ih =>
      simp only [Option.bind_eq_bind, Option.pure_def, Option.bind_eq_some_iff,
        Option.some.injEq, Prod.mk.injEq, Prod.exists] at hscan
      obtain ⟨_, _, hrest, _, rfl⟩ := hscan
      have := ih hrest
      simp only [List.length_cons]
      omega
  | case6 => simp at hscan

private theorem scanWhole?_length {text rest : List Char} {whole : Nat}
    (hscan : scanWhole? text = some (whole, rest)) : rest.length < text.length := by
  cases text with
  | nil => simp [scanWhole?, Decimal.takeDigits] at hscan
  | cons c text =>
      have hle := Decimal.takeDigits_length_le text
      simp only [scanWhole?, Decimal.takeDigits] at hscan
      cases hdigit : Digit.ofChar? c with
      | none => simp [hdigit] at hscan
      | some digit =>
          simp only [hdigit] at hscan
          simp only [List.length_cons]
          split at hscan
          · simp at hscan
          · next heq =>
              simp only [Option.some.injEq, Prod.mk.injEq] at hscan heq
              obtain ⟨_, rfl⟩ := hscan
              rw [← heq.2]
              omega
          · next heq =>
              split at hscan
              · simp at hscan
              · simp only [Option.some.injEq, Prod.mk.injEq] at hscan heq
                obtain ⟨_, rfl⟩ := hscan
                rw [← heq.2]
                omega

private theorem scanFraction?_length {text rest : List Char} {fraction : List Digit}
    (hscan : scanFraction? text = some (fraction, rest)) : rest.length ≤ text.length := by
  fun_cases scanFraction? text with
  | case1 => simp_all [scanFraction?]
  | case2 text digits rest' hne heq =>
      have hle := Decimal.takeDigits_length_le text
      simp_all [scanFraction?]
      omega
  | case3 => simp_all [scanFraction?]

private theorem scanExponentDigits?_length {text rest : List Char} {n : Nat}
    (hscan : scanExponentDigits? text = some (n, rest)) : rest.length ≤ text.length := by
  have hle := Decimal.takeDigits_length_le text
  fun_cases scanExponentDigits? text with
  | case1 => simp_all [scanExponentDigits?]
  | case2 => simp_all [scanExponentDigits?]

private theorem scanSignedExponent?_length {text rest : List Char} {e : Int}
    (hscan : scanSignedExponent? text = some (e, rest)) : rest.length ≤ text.length := by
  fun_cases scanSignedExponent? text with
  | case1 text =>
      simp only [scanSignedExponent?, Option.map_eq_some_iff, Prod.mk.injEq, Prod.exists] at hscan
      obtain ⟨_, _, hdigits, _, rfl⟩ := hscan
      have := scanExponentDigits?_length hdigits
      simp only [List.length_cons]
      omega
  | case2 text =>
      simp only [scanSignedExponent?, Option.map_eq_some_iff, Prod.mk.injEq, Prod.exists] at hscan
      obtain ⟨_, _, hdigits, _, rfl⟩ := hscan
      have := scanExponentDigits?_length hdigits
      simp only [List.length_cons]
      omega
  | case3 text hplus hminus =>
      rw [scanSignedExponent?.eq_3 _ hplus hminus] at hscan
      simp only [Option.map_eq_some_iff, Prod.mk.injEq, Prod.exists] at hscan
      obtain ⟨_, _, hdigits, _, rfl⟩ := hscan
      exact scanExponentDigits?_length hdigits

private theorem scanExponent?_length {text rest : List Char} {e : Option Int}
    (hscan : scanExponent? text = some (e, rest)) : rest.length ≤ text.length := by
  fun_cases scanExponent? text with
  | case1 text =>
      simp only [scanExponent?, Option.map_eq_some_iff, Prod.mk.injEq, Prod.exists] at hscan
      obtain ⟨_, _, hsigned, _, rfl⟩ := hscan
      have := scanSignedExponent?_length hsigned
      simp only [List.length_cons]
      omega
  | case2 text =>
      simp only [scanExponent?, Option.map_eq_some_iff, Prod.mk.injEq, Prod.exists] at hscan
      obtain ⟨_, _, hsigned, _, rfl⟩ := hscan
      have := scanSignedExponent?_length hsigned
      simp only [List.length_cons]
      omega
  | case3 text hlower hupper =>
      rw [scanExponent?.eq_3 _ hlower hupper] at hscan
      simp only [Option.some.injEq, Prod.mk.injEq] at hscan
      exact Nat.le_of_eq (congrArg List.length hscan.2.symm)

private theorem scanUnsigned?_length {negative : Bool} {text rest : List Char}
    {numeral : Numeral} (hscan : scanUnsigned? negative text = some (numeral, rest)) :
    rest.length < text.length := by
  simp only [scanUnsigned?, Option.bind_eq_bind, Option.pure_def, Option.bind_eq_some_iff,
    Option.some.injEq, Prod.mk.injEq, Prod.exists] at hscan
  obtain ⟨_, _, hwhole, _, _, hfraction, _, _, hexponent, _, rfl⟩ := hscan
  have := scanWhole?_length hwhole
  have := scanFraction?_length hfraction
  have := scanExponent?_length hexponent
  omega

private theorem scanNumber?_length {text rest : List Char} {numeral : Numeral}
    (hscan : scanNumber? text = some (numeral, rest)) : rest.length < text.length := by
  fun_cases scanNumber? text with
  | case1 text =>
      have := scanUnsigned?_length (show scanUnsigned? true text = some (numeral, rest) from hscan)
      simp only [List.length_cons]
      omega
  | case2 text hminus =>
      rw [scanNumber?.eq_2 _ hminus] at hscan
      exact scanUnsigned?_length hscan

/-- Every lexeme takes at least one character. -/
theorem scan?_length {text rest : List Char} {lexeme : Lexeme}
    (hscan : scan? text = some (lexeme, rest)) : rest.length < text.length := by
  fun_cases scan? text with
  | case11 =>
      rw [scan?] at hscan
      all_goals try assumption
      simp only [Option.map_eq_some_iff, Prod.mk.injEq, Prod.exists] at hscan
      obtain ⟨_, _, hnumber, _, rfl⟩ := hscan
      exact scanNumber?_length hnumber
  | case10 text =>
      simp only [scan?, Option.map_eq_some_iff, Prod.mk.injEq, Prod.exists] at hscan
      obtain ⟨_, _, hunits, _, rfl⟩ := hscan
      have := scanUnits?_length hunits
      simp only [List.length_cons]
      omega
  | _ =>
      simp only [scan?, Option.some.injEq, Prod.mk.injEq] at hscan
      rw [← hscan.2]
      simp only [List.length_cons]
      omega

end Lexeme

end StreetDogs.Json
