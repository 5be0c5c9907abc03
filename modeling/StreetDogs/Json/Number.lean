import StreetDogs.Decimal.Layout

/-!
# Numbers of a document

A numeral without fraction and exponent is an integer when it fits 64 bits, and
every other numeral is a binary64 number.  That number is the leading digits
that fit 64 bits, rounded, times or divided by a power of ten.
-/

namespace StreetDogs.Json

inductive Number where
  | integer (n : Int)
  | real (x : Float)
deriving DecidableEq, Repr

namespace Numeral64

/-- The leading digits of a number that fit 64 bits, and how many digits are
left off. -/
def fit (n : Nat) : Nat × Nat :=
  if _h : n < UInt64.size then (n, 0)
  else
    let (leading, dropped) := fit (n / 10)
    (leading, dropped + 1)
termination_by n
decreasing_by
  have hsize : 0 < UInt64.size := by decide
  exact Nat.div_lt_self (by omega) (by decide)

/-- Appends digits as long as the number fits 64 bits, and counts them. -/
def append (n : Nat) : List Digit → Nat × Nat
  | [] => (n, 0)
  | digit :: digits =>
    if 10 * n + digit.val < UInt64.size then
      let (significand, count) := append (10 * n + digit.val) digits
      (significand, count + 1)
    else
      (n, 0)

/-- The significand of a numeral and the power of ten that goes with it. -/
def parts (numeral : Numeral) : Nat × Int :=
  let (leading, dropped) := fit numeral.whole
  let (significand, count) := append leading numeral.fraction
  (significand, dropped - count + numeral.exponent.getD 0)

def powerOfTen (power : Nat) : Float := Float.ofScientific 1 false power

/-- The greatest power of ten that is finite. -/
def greatestPower : Nat := 308

/-- `x * 10 ^ power`, if it is finite. -/
def scaleUp? (x : Float) (power : Nat) : Option Float :=
  if x == 0.0 then some x
  else if power ≤ greatestPower then
    let scaled := x * powerOfTen power
    if scaled.isInf then none else some scaled
  else none

/-- `x / 10 ^ power`, in steps of the greatest power. -/
def scaleDown (x : Float) (power : Nat) : Float :=
  if _h : power ≤ greatestPower then x / powerOfTen power
  else if x == 0.0 then x
  else scaleDown (x / powerOfTen greatestPower) (power - greatestPower)
termination_by power
decreasing_by
  simp only [greatestPower] at *
  omega

def magnitude? (numeral : Numeral) : Option Float :=
  let (significand, power) := parts numeral
  let x := Float.ofNat significand
  if 0 ≤ power then scaleUp? x power.toNat else some (scaleDown x (-power).toNat)

end Numeral64

def realOf? (numeral : Numeral) : Option Float :=
  (Numeral64.magnitude? numeral).map fun x => if numeral.negative then -x else x

/-- The numeral as an integer, if it is written as one and fits 64 bits.
Negative zero is not an integer. -/
def integerOf? (numeral : Numeral) : Option Int :=
  if numeral.fraction.isEmpty && numeral.exponent.isNone then
    if numeral.negative then
      if 0 < numeral.whole ∧ numeral.whole ≤ UInt64.size / 2 then some (-numeral.whole) else none
    else if numeral.whole < UInt64.size then some numeral.whole
    else none
  else none

def Number.ofNumeral? (numeral : Numeral) : Option Number :=
  match integerOf? numeral with
  | some n => some (.integer n)
  | none => (realOf? numeral).map .real

def Number.toReal : Number → Float
  | integer n => Float.ofInt n
  | real x => x

/-- The numeral of a number, none for a number that is not finite. -/
def Number.numeral? : Number → Option Numeral
  | integer n => some (.ofInt n)
  | real x => if x.isFinite then some (Decimal.Layout.document.numeral x) else none

end StreetDogs.Json
