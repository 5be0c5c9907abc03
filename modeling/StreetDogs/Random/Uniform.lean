import StreetDogs.Supply

/-!
# Uniform choice

Indices and coordinates chosen uniformly by means of random 64-bit words.  An
index comes from the high half of a product, with words refused where the low
half would favour some indices; a coordinate comes from the upper 52 bits of
one word.
-/

namespace StreetDogs.Uniform

/-- The greatest low half of `word * count` that is accepted, for a `count`
between one and the number of words. -/
def zone (count : Nat) : Nat := count <<< (63 - count.log2) - 1

def accepts (count : Nat) (word : UInt64) : Bool :=
  decide (word.toNat * count % UInt64.size ≤ zone count)

def indexOf (count : Nat) (word : UInt64) : Nat := word.toNat * count / UInt64.size

/-- A word sequence numbered by 64-bit blocks of eight words starts again after
this many words, so no later word is accepted if none of these is. -/
def period : Nat := 1 <<< 67

/-- An index below `count`.  Should a whole period of words be refused, the
next word counts as it is. -/
def index (count : Nat) (words : Supply UInt64) : Nat × Supply UInt64 :=
  match words.search (accepts count) period with
  | some (word, rest) => (indexOf count word, rest)
  | none =>
    let (word, rest) := words.next
    (indexOf count word, rest)

def fractions : Float := 4503599627370496.0

def fraction (word : UInt64) : Float := (word >>> 12).toFloat / fractions

def topFraction : Float := 1.0 - 1.0 / fractions

/-- The number with the greatest bit pattern up to `bits` that takes no
fraction from `low` beyond `high`. -/
def scaleWithin (low high : Float) : Nat → Float
  | 0 => 0.0
  | bits + 1 =>
    let scale := Float.ofBits (bits + 1).toUInt64
    if high < scale * topFraction + low then scaleWithin low high bits else scale

/-- A coordinate between `low` and `high`, both of which can be reached. -/
def coordinate (low high : Float) (words : Supply UInt64) : Float × Supply UInt64 :=
  let scale := scaleWithin low high ((high - low) / topFraction).toBits.toNat
  let (word, rest) := words.next
  (fraction word * scale + low, rest)

end StreetDogs.Uniform
