import StreetDogs.Supply
import StreetDogs.Text.Hex

/-!
# Player tokens

A token is the credential of a player: sixteen bytes in 32 lower-case
hexadecimal digits.  Clients may send the digits in either case, bare or behind
`Bearer `.
-/

namespace StreetDogs

structure Token where
  text : String
deriving DecidableEq, Repr

namespace Token

def length : Nat := 32

def byteChars (byte : UInt8) : List Char := Text.hexPadded 2 byte.toNat

def ofBytes (bytes : Vector UInt8 16) : Token :=
  ⟨String.ofList (bytes.toList.flatMap byteChars)⟩

/-- The token of a 128-bit number, most significant byte first. -/
def ofNumber (n : BitVec 128) : Token :=
  ofBytes (Vector.ofFn fun index => (n >>> (8 * (15 - index.val))).toNat.toUInt8)

/-- A hexadecimal digit in either case as a lower-case digit. -/
def lowerDigit? (c : Char) : Option Char := (Text.hexValue? c).map Text.hexChar

/-- Reads exactly 32 hexadecimal digits in either case. -/
def parse? (raw : String) : Option Token :=
  let chars := raw.toList
  if chars.length = length then
    (chars.mapM lowerDigit?).map fun digits => ⟨String.ofList digits⟩
  else
    none

def bearer : List Char := ['B', 'e', 'a', 'r', 'e', 'r', ' ']

def ofBearer? (header : String) : Option Token :=
  let chars := header.toList
  if bearer.isPrefixOf chars then parse? (String.ofList (chars.drop bearer.length)) else none

/-- Reads a token as clients send it, as a header or bare. -/
def ofClient? (raw : String) : Option Token := (ofBearer? raw).or (parse? raw)

/-- The tokens of a 128-bit counter, which starts again at zero after its
greatest value. -/
def counting (start : BitVec 128) : Supply Token where
  item index := ofNumber (start + BitVec.ofNat 128 index)

/-- The tokens of the given numbers, then those of a counter from zero. -/
def listed (numbers : List (BitVec 128)) : Supply Token :=
  .ofList (numbers.map ofNumber) fun index => ofNumber (BitVec.ofNat 128 index)

/-- Tokens made of random words, two to a token. -/
def random (words : Supply UInt64) : Supply Token where
  item index :=
    let word (offset : Nat) := words.item (words.taken + 2 * index + offset)
    ofNumber (BitVec.ofNat 128 ((word 0).toNat * UInt64.size + (word 1).toNat))

/-- The number of tokens there are, and so the number of draws after which
a counter has offered all of them. -/
def count : Nat := 1 <<< 128

end Token

end StreetDogs
