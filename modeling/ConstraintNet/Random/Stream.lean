/-!
A reproducible stream of 32-bit words: the ChaCha block function with eight rounds, in counter mode
under a key that is expanded from a 64-bit seed.
-/

namespace ConstraintNet.Random

abbrev Block := Vector UInt32 16

def rotateLeft (x : UInt32) (k : UInt32) : UInt32 := (x <<< k) ||| (x >>> (32 - k))

/-- Mixes four words of a block into each other. -/
def quarterRound (s : Block) (a b c d : Fin 16) : Block :=
  let s := s.set a (s[a] + s[b])
  let s := s.set d (rotateLeft (s[d] ^^^ s[a]) 16)
  let s := s.set c (s[c] + s[d])
  let s := s.set b (rotateLeft (s[b] ^^^ s[c]) 12)
  let s := s.set a (s[a] + s[b])
  let s := s.set d (rotateLeft (s[d] ^^^ s[a]) 8)
  let s := s.set c (s[c] + s[d])
  s.set b (rotateLeft (s[b] ^^^ s[c]) 7)

/-- A round over the columns of the block and one over its diagonals. -/
def doubleRound (s : Block) : Block :=
  let s := quarterRound s 0 4 8 12
  let s := quarterRound s 1 5 9 13
  let s := quarterRound s 2 6 10 14
  let s := quarterRound s 3 7 11 15
  let s := quarterRound s 0 5 10 15
  let s := quarterRound s 1 6 11 12
  let s := quarterRound s 2 7 8 13
  quarterRound s 3 4 9 14

/-- The block with the given number in the stream of a key. -/
def keyBlock (key : Vector UInt32 8) (number : UInt64) : Block :=
  let constants : Vector UInt32 4 := #v[0x61707865, 0x3320646e, 0x79622d32, 0x6b206574]
  let counter : Vector UInt32 4 := #v[number.toUInt32, (number >>> 32).toUInt32, 0, 0]
  let start : Block := constants ++ key ++ counter
  Vector.zipWith (· + ·) (Nat.repeat doubleRound 4 start) start

/-- One step of the generator that expands a seed, and the word it gives out. -/
def expandStep (state : UInt64) : UInt32 × UInt64 :=
  let state := state * 6364136223846793005 + 11634580027462260723
  let word := (((state >>> 18) ^^^ state) >>> 27).toUInt32
  let turn := (state >>> 59).toUInt32
  ((word >>> turn) ||| (word <<< ((32 - turn) % 32)), state)

/-- The first `count` words that a seed expands to. -/
def expandSeed : (count : Nat) → UInt64 → Vector UInt32 count
  | 0, _ => #v[]
  | count + 1, state =>
    let (word, state) := expandStep state
    (#v[word] ++ expandSeed count state).cast (Nat.add_comm 1 count)

/-- A place in the stream of a key: the words left of the current block, and the next block. -/
structure Stream where
  key : Vector UInt32 8
  nextBlock : UInt64
  words : List UInt32
  deriving DecidableEq, Repr

namespace Stream

def ofSeed (seed : UInt64) : Stream := ⟨expandSeed 8 seed, 0, []⟩

/-- The next word, and the stream after it. -/
def next (s : Stream) : UInt32 × Stream :=
  match s.words with
  | word :: rest => (word, { s with words := rest })
  | [] =>
    let block := keyBlock s.key s.nextBlock
    (block[0], { s with nextBlock := s.nextBlock + 1, words := block.toList.tail })

end Stream

end ConstraintNet.Random
