import StreetDogs.Supply

/-!
# ChaCha words

The block function of ChaCha with twelve rounds, keyed from a 64-bit seed.  The
words of the blocks, two 32-bit words to a 64-bit word, form an endless supply
in which every word can be computed from its index alone.
-/

namespace StreetDogs.ChaCha

abbrev Block := Vector UInt32 16

def rotateLeft (word : UInt32) (count : UInt32) : UInt32 :=
  (word <<< count) ||| (word >>> (32 - count))

def quarterRound (block : Block) (a b c d : Fin 16) : Block :=
  let block := block.set a (block[a] + block[b])
  let block := block.set d (rotateLeft (block[d] ^^^ block[a]) 16)
  let block := block.set c (block[c] + block[d])
  let block := block.set b (rotateLeft (block[b] ^^^ block[c]) 12)
  let block := block.set a (block[a] + block[b])
  let block := block.set d (rotateLeft (block[d] ^^^ block[a]) 8)
  let block := block.set c (block[c] + block[d])
  block.set b (rotateLeft (block[b] ^^^ block[c]) 7)

/-- One round on the columns and one on the diagonals. -/
def doubleRound (block : Block) : Block :=
  let block := quarterRound block 0 4 8 12
  let block := quarterRound block 1 5 9 13
  let block := quarterRound block 2 6 10 14
  let block := quarterRound block 3 7 11 15
  let block := quarterRound block 0 5 10 15
  let block := quarterRound block 1 6 11 12
  let block := quarterRound block 2 7 8 13
  quarterRound block 3 4 9 14

/-- The key words of a seed: a linear congruential sequence whose states are
permuted to 32 bits each. -/
def key (seed : UInt64) : Vector UInt32 8 :=
  Vector.ofFn fun index => word (state (index.val + 1))
where
  state : Nat → UInt64
    | 0 => seed
    | n + 1 => state n * 6364136223846793005 + 11634580027462260723
  word (state : UInt64) : UInt32 :=
    let mixed := (((state >>> 18) ^^^ state) >>> 27).toUInt32
    let count := (state >>> 59).toUInt32
    (mixed >>> count) ||| (mixed <<< ((32 - count) % 32))

/-- The block with the given number, before the rounds: the constant, the key,
the 64-bit block number and the stream number zero. -/
def input (seed : UInt64) (number : UInt64) : Block :=
  let key := key seed
  #v[0x61707865, 0x3320646e, 0x79622d32, 0x6b206574,
    key[0], key[1], key[2], key[3], key[4], key[5], key[6], key[7],
    number.toUInt32, (number >>> 32).toUInt32, 0, 0]

/-- The block with the given number: twelve rounds, then the input added. -/
def block (seed : UInt64) (number : UInt64) : Block :=
  let start := input seed number
  let mixed := Nat.repeat doubleRound 6 start
  Vector.zipWith (· + ·) mixed start

def word (seed : UInt64) (index : Nat) : UInt64 :=
  let block := block seed (index / 8).toUInt64
  let pair := index % 8
  let low := block.get ⟨2 * pair, by omega⟩
  let high := block.get ⟨2 * pair + 1, by omega⟩
  low.toUInt64 ||| (high.toUInt64 <<< 32)

def words (seed : UInt64) : Supply UInt64 where
  item := word seed

end StreetDogs.ChaCha
