import StreetDogs.Decimal.Shortest

/-!
# Written numbers

A numeral is a number as it is written: a sign, the digits before and after the
point, and an exponent.  A layout fixes how a binary64 value becomes a numeral.
-/

namespace StreetDogs

/-- A decimal number as it is written.  No fraction and a fraction without
digits are the same. -/
structure Numeral where
  negative : Bool
  whole : Nat
  fraction : List Digit := []
  exponent : Option Int := none
deriving DecidableEq, Repr

namespace Numeral

/-- The exponent with its sign, which is always written. -/
def exponentChars (exponent : Int) : List Char :=
  (if exponent < 0 then '-' else '+') :: Decimal.chars exponent.natAbs

def chars (numeral : Numeral) : List Char :=
  (if numeral.negative then ['-'] else []) ++ Decimal.chars numeral.whole ++
    (if numeral.fraction.isEmpty then [] else '.' :: numeral.fraction.map Digit.char) ++
    (match numeral.exponent with
    | none => []
    | some exponent => 'e' :: exponentChars exponent)

def ofInt (n : Int) : Numeral := { negative := decide (n < 0), whole := n.natAbs }

end Numeral

namespace Decimal

/-- How binary64 values are written. -/
structure Layout where
  /-- Which of two equally near shortest decimals is taken. -/
  tie : Tie
  /-- Whether a number is written without an exponent, told by the exponent of
  its first digit. -/
  positional : Int → Bool
  /-- Whether a whole number gets the fraction `.0`. -/
  padded : Bool

namespace Layout

/-- The digits before the point and after it when the point stands `point`
digits into `digits`. -/
def split (digits : List Digit) (point : Int) : Nat × List Digit :=
  if point ≤ 0 then
    (0, List.replicate (-point).toNat 0 ++ digits)
  else
    (ofDigits (digits.take point.toNat) * Nat.pow 10 (point.toNat - digits.length),
      digits.drop point.toNat)

/-- A fraction, which a padded layout never leaves empty. -/
def pad (layout : Layout) (fraction : List Digit) : List Digit :=
  if layout.padded && fraction.isEmpty then [0] else fraction

/-- The numeral of a finite number.  In exponent form one digit stands before
the point, and the fraction is never padded. -/
def numeral (layout : Layout) (x : Float) : Numeral :=
  let negative := x.toBits >>> 63 == 1
  if x == 0.0 then
    { negative, whole := 0, fraction := layout.pad [] }
  else
    let decimal := shortest layout.tie x
    let digits := digits decimal.significand
    let leading := decimal.exponent + digits.length - 1
    if layout.positional leading then
      let (whole, fraction) := split digits (leading + 1)
      { negative, whole, fraction := layout.pad fraction }
    else
      let (whole, fraction) := split digits 1
      { negative, whole, fraction, exponent := some leading }

/-- Messages write every number without an exponent and without padding. -/
def plain : Layout where
  tie := .up
  positional _ := true
  padded := false

/-- Documents write numbers from `1e-5` up to `1e16` without an exponent and
always show that they are not integers. -/
def document : Layout where
  tie := .even
  positional leading := decide (-5 ≤ leading) && decide (leading < 16)
  padded := true

end Layout

end Decimal

def plainText (x : Float) : String :=
  if x.isNaN then "NaN"
  else if x.isFinite then String.ofList (Decimal.Layout.plain.numeral x).chars
  else if x < 0.0 then "-inf"
  else "inf"

end StreetDogs
