namespace KernelDiff.Draw

/-!
# The cipher behind the draws

Random draws come from the key stream of ChaCha with twelve rounds, a 64-bit block counter and
a zero nonce. A block is a function of the key and its number, and so is every word of the
stream.
-/

/-- A 256-bit key. -/
structure Key where
  k0 : UInt32
  k1 : UInt32
  k2 : UInt32
  k3 : UInt32
  k4 : UInt32
  k5 : UInt32
  k6 : UInt32
  k7 : UInt32
  deriving DecidableEq, Repr

/-- The sixteen words of a block. -/
structure Block where
  x0 : UInt32
  x1 : UInt32
  x2 : UInt32
  x3 : UInt32
  x4 : UInt32
  x5 : UInt32
  x6 : UInt32
  x7 : UInt32
  x8 : UInt32
  x9 : UInt32
  x10 : UInt32
  x11 : UInt32
  x12 : UInt32
  x13 : UInt32
  x14 : UInt32
  x15 : UInt32
  deriving DecidableEq, Repr

/-- Rotation to the left by `n`, for `0 < n < 32`. -/
def rotateLeft (x : UInt32) (n : UInt32) : UInt32 :=
  x <<< n ||| x >>> (32 - n)

/-- The quarter round on four words. -/
def quarter (a b c d : UInt32) : UInt32 × UInt32 × UInt32 × UInt32 :=
  let a := a + b
  let d := rotateLeft (d ^^^ a) 16
  let c := c + d
  let b := rotateLeft (b ^^^ c) 12
  let a := a + b
  let d := rotateLeft (d ^^^ a) 8
  let c := c + d
  let b := rotateLeft (b ^^^ c) 7
  (a, b, c, d)

namespace Block

/-- A round on the columns and a round on the diagonals. -/
def doubleRound (s : Block) : Block :=
  let (a0, a4, a8, a12) := quarter s.x0 s.x4 s.x8 s.x12
  let (a1, a5, a9, a13) := quarter s.x1 s.x5 s.x9 s.x13
  let (a2, a6, a10, a14) := quarter s.x2 s.x6 s.x10 s.x14
  let (a3, a7, a11, a15) := quarter s.x3 s.x7 s.x11 s.x15
  let (b0, b5, b10, b15) := quarter a0 a5 a10 a15
  let (b1, b6, b11, b12) := quarter a1 a6 a11 a12
  let (b2, b7, b8, b13) := quarter a2 a7 a8 a13
  let (b3, b4, b9, b14) := quarter a3 a4 a9 a14
  ⟨b0, b1, b2, b3, b4, b5, b6, b7, b8, b9, b10, b11, b12, b13, b14, b15⟩

/-- The word-wise sum of two blocks. -/
def add (s t : Block) : Block :=
  ⟨s.x0 + t.x0, s.x1 + t.x1, s.x2 + t.x2, s.x3 + t.x3, s.x4 + t.x4, s.x5 + t.x5, s.x6 + t.x6,
    s.x7 + t.x7, s.x8 + t.x8, s.x9 + t.x9, s.x10 + t.x10, s.x11 + t.x11, s.x12 + t.x12,
    s.x13 + t.x13, s.x14 + t.x14, s.x15 + t.x15⟩

/-- The block before the rounds: four constants, the key, the counter, and a zero nonce. -/
def initial (key : Key) (counter : Nat) : Block :=
  ⟨0x61707865, 0x3320646e, 0x79622d32, 0x6b206574, key.k0, key.k1, key.k2, key.k3, key.k4,
    key.k5, key.k6, key.k7, UInt32.ofNat counter, UInt32.ofNat (counter / UInt32.size), 0, 0⟩

/-- The key stream block with a given number: twelve rounds, and the initial block added. -/
def stream (key : Key) (counter : Nat) : Block :=
  let start := initial key counter
  (start.doubleRound.doubleRound.doubleRound.doubleRound.doubleRound.doubleRound).add start

/-- Two neighbouring words of a block as one, the first in the low half; `i < 8`. -/
def pair (s : Block) (i : Nat) : UInt64 :=
  let join (low high : UInt32) : UInt64 := low.toUInt64 ||| high.toUInt64 <<< 32
  match i with
  | 0 => join s.x0 s.x1
  | 1 => join s.x2 s.x3
  | 2 => join s.x4 s.x5
  | 3 => join s.x6 s.x7
  | 4 => join s.x8 s.x9
  | 5 => join s.x10 s.x11
  | 6 => join s.x12 s.x13
  | _ => join s.x14 s.x15

end Block

/-- The `i`-th 64-bit word of the key stream. -/
def streamWord (key : Key) (i : Nat) : UInt64 :=
  (Block.stream key (i / 8)).pair (i % 8)

end KernelDiff.Draw
