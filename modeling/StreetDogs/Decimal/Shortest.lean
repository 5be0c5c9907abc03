import StreetDogs.Decimal.Digits

/-!
# Shortest decimals

The decimal with the fewest digits that lies in the interval of numbers which
round to a given binary64 value, and of those the one nearest to the value.
Everything is exact arithmetic on natural numbers: a binary64 value and the two
ends of its rounding interval are integral multiples of a power of ten.
-/

namespace StreetDogs.Decimal

/-- Which of two equally near decimals is taken. -/
inductive Tie where
  /-- The one whose last digit is even. -/
  | even
  /-- The greater one. -/
  | up
deriving DecidableEq, Repr

/-- A positive binary64 value with the interval of numbers rounding to it, all
as multiples of `10 ^ (-places)`. -/
structure Rounding where
  low : Nat
  value : Nat
  high : Nat
  /-- The ends of the interval round to the value too. -/
  closed : Bool
  places : Nat
deriving DecidableEq, Repr

namespace Rounding

/-- The rounding interval of the number `mantissa * 2 ^ exponent`.  `narrow`
says that the next smaller number is only half as far away as the next greater
one. -/
def ofBinary (mantissa : Nat) (exponent : Int) (narrow : Bool) : Rounding :=
  let places := (2 - exponent).toNat
  let unit := if exponent ≤ 2 then Nat.pow 5 places else 1 <<< (exponent - 2).toNat
  { low := (4 * mantissa - if narrow then 1 else 2) * unit
    value := 4 * mantissa * unit
    high := (4 * mantissa + 2) * unit
    closed := decide (mantissa % 2 = 0)
    places }

def ofFloat (x : Float) : Rounding :=
  let bits := x.toBits.toNat
  let fraction : Nat := bits % (1 <<< 52)
  let biased : Nat := (bits >>> 52) % (1 <<< 11)
  if biased = 0 then
    ofBinary fraction (-1074) false
  else
    ofBinary ((1 <<< 52) + fraction) ((biased : Int) - 1075) (fraction == 0 && biased != 1)

def contains (rounding : Rounding) (n : Nat) : Bool :=
  if rounding.closed then
    decide (rounding.low ≤ n) && decide (n ≤ rounding.high)
  else
    decide (rounding.low < n) && decide (n < rounding.high)

/-- The multiple of `10 ^ power` in the interval that is nearest to the value,
divided by that power. -/
def onGrid? (rounding : Rounding) (tie : Tie) (power : Nat) : Option Nat :=
  let step := Nat.pow 10 power
  let below := rounding.value / step
  let above := below + 1
  let excess := rounding.value % step
  match rounding.contains (below * step), rounding.contains (above * step) with
  | false, false => none
  | true, false => some below
  | false, true => some above
  | true, true =>
    if 2 * excess < step then some below
    else if step < 2 * excess then some above
    else match tie with
      | .up => some above
      | .even => some (if below % 2 = 0 then below else above)

/-- The coarsest grid of powers of ten, starting from `power`, that meets the
interval: the multiple and the power.  The value itself lies on the finest
grid. -/
def coarsest (rounding : Rounding) (tie : Tie) : Nat → Nat × Nat
  | 0 => (rounding.value, 0)
  | power + 1 =>
    match rounding.onGrid? tie (power + 1) with
    | some multiple => (multiple, power + 1)
    | none => coarsest rounding tie power

end Rounding

structure Scientific where
  significand : Nat
  exponent : Int
deriving DecidableEq, Repr

/-- The same decimal with the trailing zeros of its significand moved into the
exponent. -/
def Scientific.reduce (significand : Nat) (exponent : Int) : Scientific :=
  if h : significand ≠ 0 ∧ significand % 10 = 0 then
    reduce (significand / 10) (exponent + 1)
  else
    ⟨significand, exponent⟩
termination_by significand
decreasing_by exact Nat.div_lt_self (by omega) (by decide)

/-- The shortest decimal that rounds to the magnitude of `x`, for a finite `x`
other than zero. -/
def shortest (tie : Tie) (x : Float) : Scientific :=
  let rounding := Rounding.ofFloat x
  let (multiple, power) := rounding.coarsest tie (digits rounding.value).length
  .reduce multiple (power - rounding.places)

end StreetDogs.Decimal
