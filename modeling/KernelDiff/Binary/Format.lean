namespace KernelDiff

/-!
# Binary floating-point formats

A format of the IEEE 754 interchange family is given by the widths of its two fields. A
value without its sign is a *magnitude*: the word made of the exponent field and the
fraction field. Magnitudes are ordered as the values they stand for, so the whole module
speaks of natural numbers only:

* `units` is the value of a finite magnitude, counted in the format's smallest positive
  value `2 ^ -unitExponent`;
* `round` takes any non-negative fraction of units to the nearest magnitude, and a tie to
  the magnitude with the even last bit; what is too large becomes the infinity.
-/

-- Powers are the core library's, so that the definitions below mean the same in every module
-- that uses them, also in one that imports an algebraic hierarchy with powers of its own.
attribute [instance (high)] instPowNat

/-- A binary interchange format. -/
structure BinaryFormat where
  /-- Width of the fraction field. -/
  fractionBits : Nat
  /-- Width of the exponent field. -/
  exponentBits : Nat
  deriving DecidableEq, Repr

/-- The quotient `n / d` rounded to an integer, a half to the even neighbour. -/
def divHalfEven (n d : Nat) : Nat :=
  let q := n / d
  let r := n % d
  if 2 * r < d then q else if d < 2 * r then q + 1 else q + q % 2

namespace BinaryFormat

/-- Sixteen bits, eleven of precision. -/
def half : BinaryFormat := ⟨10, 5⟩

/-- Thirty-two bits, twenty-four of precision. -/
def single : BinaryFormat := ⟨23, 8⟩

/-- Sixty-four bits, fifty-three of precision. -/
def double : BinaryFormat := ⟨52, 11⟩

variable (f : BinaryFormat)

/-- The least magnitude with a non-zero exponent field; as a number of units, the least
    significand of full precision. -/
def hidden : Nat := 2 ^ f.fractionBits

/-- The magnitude of the infinities. Larger magnitudes are not numbers. -/
def infinity : Nat := (2 ^ f.exponentBits - 1) * f.hidden

/-- The magnitude of the quiet not-a-number without a payload. -/
def quietNaN : Nat := f.infinity + f.hidden / 2

/-- The word with only the sign bit set. -/
def signBit : Nat := 2 ^ (f.fractionBits + f.exponentBits)

/-- One unit, the smallest positive value, is `2 ^ -unitExponent`. -/
def unitExponent : Nat := 2 ^ (f.exponentBits - 1) - 2 + f.fractionBits

/-- The value of a finite magnitude in units. -/
def units (w : Nat) : Nat :=
  if w < f.hidden then w
  else (f.hidden + w % f.hidden) * 2 ^ (w / f.hidden - 1)

/-- The magnitude nearest to `n / d` units. -/
def round (n d : Nat) : Nat :=
  let scale := Nat.log2 (n / d) - f.fractionBits
  min (scale * f.hidden + divHalfEven n (d * 2 ^ scale)) f.infinity

/-- The magnitude nearest to the number `n / d`. -/
def ofRatio (n d : Nat) : Nat :=
  f.round (n * 2 ^ f.unitExponent) d

/-- A magnitude with a sign. -/
def signed (negative : Bool) (w : Nat) : Nat :=
  if negative then f.signBit + w else w

/-- Whether a word has its sign bit set. -/
def isNegative (bits : Nat) : Bool :=
  f.signBit ≤ bits

/-- A word without its sign bit. -/
def magnitude (bits : Nat) : Nat :=
  bits % f.signBit

/-- The word nearest to an integer. -/
def ofInt (i : Int) : Nat :=
  f.signed (i < 0) (f.ofRatio i.natAbs 1)

/-- The magnitude of format `g` nearest to a magnitude of format `f`; what is not a number
    becomes the quiet not-a-number of `g`. -/
def convert (g : BinaryFormat) (w : Nat) : Nat :=
  if w < f.infinity then g.ofRatio (f.units w) (2 ^ f.unitExponent)
  else if w = f.infinity then g.infinity
  else g.quietNaN

end BinaryFormat

end KernelDiff
