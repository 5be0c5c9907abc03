/-!
# Hexadecimal digits

Numbers below sixteen and the lower-case characters that stand for them.
-/

namespace StreetDogs.Text

def hexChar (n : Nat) : Char :=
  if n < 10 then Char.ofNat ('0'.toNat + n) else Char.ofNat ('a'.toNat + (n - 10))

def hexValue? (c : Char) : Option Nat :=
  if '0' ≤ c ∧ c ≤ '9' then some (c.toNat - '0'.toNat)
  else if 'a' ≤ c ∧ c ≤ 'f' then some (c.toNat - 'a'.toNat + 10)
  else if 'A' ≤ c ∧ c ≤ 'F' then some (c.toNat - 'A'.toNat + 10)
  else none

/-- The hexadecimal digits of a number without leading zeros, in front of `tail`. -/
def hexCharsOnto (n : Nat) (tail : List Char) : List Char :=
  if h : n < 16 then hexChar n :: tail
  else hexCharsOnto (n / 16) (hexChar (n % 16) :: tail)
termination_by n
decreasing_by exact Nat.div_lt_self (by omega) (by decide)

/-- Exactly `width` hexadecimal digits of a number, the least significant last. -/
def hexPadded : Nat → Nat → List Char
  | 0, _ => []
  | width + 1, n => hexPadded width (n / 16) ++ [hexChar (n % 16)]

end StreetDogs.Text
