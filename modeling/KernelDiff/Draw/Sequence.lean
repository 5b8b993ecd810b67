import KernelDiff.Draw.Cipher

namespace KernelDiff.Draw

/-!
# Draws

The draws of a seed are integers from 0 to 127. The seed is stretched to a key, and each word
of the key stream gives its top seven bits, unless the bit below them is set: such a word is
passed over.
-/

/-- One step of the generator that stretches a seed. -/
def stretchStep (state : UInt64) : UInt64 :=
  state * 6364136223846793005 + 11634580027462260723

/-- The key word made from a state: the middle bits, rotated by the top five. -/
def stretchWord (state : UInt64) : UInt32 :=
  let x := (((state >>> 18) ^^^ state) >>> 27).toUInt32
  let n := (state >>> 59).toUInt32
  x >>> n ||| x <<< ((32 - n) % 32)

/-- The key of a seed: eight steps, one word each. -/
def keyOfSeed (seed : UInt64) : Key :=
  let s0 := stretchStep seed
  let s1 := stretchStep s0
  let s2 := stretchStep s1
  let s3 := stretchStep s2
  let s4 := stretchStep s3
  let s5 := stretchStep s4
  let s6 := stretchStep s5
  let s7 := stretchStep s6
  ⟨stretchWord s0, stretchWord s1, stretchWord s2, stretchWord s3, stretchWord s4,
    stretchWord s5, stretchWord s6, stretchWord s7⟩

/-- Whether a word of the stream gives a draw. -/
def accepts (w : UInt64) : Bool :=
  (w >>> 56) &&& 1 == 0

/-- The draw that a word gives. -/
def value (w : UInt64) : Nat :=
  (w >>> 57).toNat

/-- The number of words after which the key stream repeats: eight for each block number. -/
def period : Nat := 8 * UInt64.size

/-- The first accepted word at or after a position, among `fuel` words: its draw, and the
    position behind it. -/
def search (key : Key) : (fuel position : Nat) → Nat × Nat
  | 0, position => (0, position)
  | fuel + 1, position =>
    let w := streamWord key position
    if accepts w then (value w, position + 1) else search key fuel (position + 1)

/-- The next draw from a position in the key stream, and the position behind it. One period of
    the stream holds every word there is, so the search need not go beyond it. -/
def next (seed : UInt64) (position : Nat) : Nat × Nat :=
  search (keyOfSeed seed) period position

/-- A draw is below 128. -/
theorem value_lt (w : UInt64) : value w < 128 := by
  have h : w.toNat < 2 ^ 64 := w.toNat_lt
  have h2 : value w = w.toNat / 2 ^ 57 := by
    simp [value, UInt64.toNat_shiftRight, Nat.shiftRight_eq_div_pow]
  rw [h2]
  omega

theorem search_lt (key : Key) (fuel position : Nat) : (search key fuel position).1 < 128 := by
  induction fuel generalizing position with
  | zero => simp [search]
  | succ fuel ih =>
    rw [search]
    split
    · exact value_lt _
    · exact ih _

end KernelDiff.Draw
