/-!
# A seeded stream of words

A seed of 64 bits determines an endless stream of words of 32 bits: the seed is stretched to a key
of eight words by a linear congruential generator with a permuted output, and block `c` of the
stream is the ChaCha block with twelve rounds for that key, the counter `c` and a zero nonce.
-/

set_option autoImplicit false

namespace RouteDoc.Random

/-- A block of sixteen words. -/
abbrev Block := Vector UInt32 16

/-- Rotation to the left. -/
def rotl (x : UInt32) (n : UInt32) : UInt32 :=
  (x <<< n) ||| (x >>> (32 - n))

/-- The quarter round on four places of a block. -/
def quarterRound (b : Block) (i j k l : Fin 16) : Block :=
  let x := b[i] + b[j]
  let w := rotl (b[l] ^^^ x) 16
  let z := b[k] + w
  let y := rotl (b[j] ^^^ z) 12
  let x := x + y
  let w := rotl (w ^^^ x) 8
  let z := z + w
  let y := rotl (y ^^^ z) 7
  (((b.set i x).set j y).set k z).set l w

/-- Four quarter rounds down the columns and four down the diagonals. -/
def doubleRound (b : Block) : Block :=
  let b := quarterRound b 0 4 8 12
  let b := quarterRound b 1 5 9 13
  let b := quarterRound b 2 6 10 14
  let b := quarterRound b 3 7 11 15
  let b := quarterRound b 0 5 10 15
  let b := quarterRound b 1 6 11 12
  let b := quarterRound b 2 7 8 13
  quarterRound b 3 4 9 14

/-- A key of eight words. -/
abbrev Key := Vector UInt32 8

/-- The next state of the generator that stretches a seed. -/
def stretchStep (s : UInt64) : UInt64 :=
  s * 6364136223846793005 + 11634580027462260723

/-- The word that a state of that generator gives. -/
def stretchWord (s : UInt64) : UInt32 :=
  let x := (((s >>> 18) ^^^ s) >>> 27).toUInt32
  let r := (s >>> 59).toUInt32
  (x >>> r) ||| (x <<< ((32 - r) % 32))

/-- The key of a seed. -/
def Key.ofSeed (seed : UInt64) : Key :=
  Vector.ofFn fun i => stretchWord (Nat.repeat stretchStep (i.val + 1) seed)

/-- Block `c` of the stream of a key. -/
def Key.block (key : Key) (c : Nat) : Block :=
  let start : Block := #v[0x61707865, 0x3320646e, 0x79622d32, 0x6b206574,
    key[0], key[1], key[2], key[3], key[4], key[5], key[6], key[7],
    UInt32.ofNat c, UInt32.ofNat (c / UInt32.size), 0, 0]
  Vector.zipWith (· + ·) (Nat.repeat doubleRound 6 start) start

/-- Word `n` of the stream of a key. -/
def Key.word (key : Key) (n : Nat) : UInt32 :=
  (key.block (n / 16))[n % 16]

end RouteDoc.Random
