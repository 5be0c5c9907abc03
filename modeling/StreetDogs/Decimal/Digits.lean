/-!
# Decimal digits

Natural numbers and their decimal digits, most significant digit first.
-/

namespace StreetDogs

abbrev Digit := Fin 10

namespace Digit

def char (digit : Digit) : Char := Char.ofNat ('0'.toNat + digit.val)

def ofChar? (c : Char) : Option Digit :=
  if h : '0'.toNat ≤ c.toNat ∧ c.toNat ≤ '9'.toNat then
    some ⟨c.toNat - '0'.toNat, by
      have hzero : '0'.toNat = 48 := rfl
      have hnine : '9'.toNat = 57 := rfl
      omega⟩
  else
    none

end Digit

namespace Decimal

/-- The digits of a number in front of `tail`; zero has the one digit 0. -/
def digitsOnto (n : Nat) (tail : List Digit) : List Digit :=
  let last : Digit := ⟨n % 10, Nat.mod_lt n (by decide)⟩
  if h : n < 10 then last :: tail else digitsOnto (n / 10) (last :: tail)
termination_by n
decreasing_by exact Nat.div_lt_self (by omega) (by decide)

def digits (n : Nat) : List Digit := digitsOnto n []

/-- The number whose digits are those of `n` followed by `more`. -/
def extend (n : Nat) (more : List Digit) : Nat :=
  more.foldl (fun value digit => 10 * value + digit.val) n

/-- The number written by a list of digits. -/
def ofDigits (more : List Digit) : Nat := extend 0 more

def chars (n : Nat) : List Char := (digits n).map Digit.char

/-- The leading digits of a text, and the text after them. -/
def takeDigits : List Char → List Digit × List Char
  | [] => ([], [])
  | c :: text =>
    match Digit.ofChar? c with
    | some digit =>
      let (digits, rest) := takeDigits text
      (digit :: digits, rest)
    | none => ([], c :: text)

theorem takeDigits_length_le (text : List Char) :
    (takeDigits text).2.length ≤ text.length := by
  induction text with
  | nil => simp [takeDigits]
  | cons c text ih =>
      simp only [takeDigits]
      split <;> simp only [List.length_cons] <;> omega

/-- The number a text writes in decimal digits and nothing else. -/
def readNat? (text : List Char) : Option Nat :=
  match takeDigits text with
  | (digit :: digits, []) => some (ofDigits (digit :: digits))
  | _ => none

end Decimal

end StreetDogs
