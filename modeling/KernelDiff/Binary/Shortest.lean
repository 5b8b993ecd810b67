import KernelDiff.Binary.Format

namespace KernelDiff

/-!
# Shortest decimals

The shortest decimal that reads back as a given magnitude is the first one met on the way
from coarse decimal grids to fine ones:

* the numbers that round to a magnitude form an interval between the midpoints to its two
  neighbours, ends included when the magnitude is even;
* on the grid of the multiples of `10 ^ e` only the two neighbours of the value have to be
  tried; of two hits the nearer is taken, and the larger on a tie;
* the value itself lies on a fine enough grid, so the search ends.
-/

/-- The number `digits * 10 ^ exponent`. -/
structure Decimal where
  digits : Nat
  exponent : Int
  deriving DecidableEq, Repr

/-- A fraction `low / scale … high / scale` around a value `mid / scale`. -/
structure Interval where
  low : Nat
  mid : Nat
  high : Nat
  scale : Nat
  /-- Whether the ends belong to it. -/
  closed : Bool

namespace Interval

/-- Whether `n` multiples of a grid step lie in the interval, where the step is `step` and the
    interval's ends are `low` and `high` in the same measure. -/
def hits (i : Interval) (low high point : Nat) : Bool :=
  if i.closed then low ≤ point && point ≤ high else low < point && point < high

/-- The multiple of `10 ^ e` to print, if the interval holds one next to its value. -/
def onGrid? (i : Interval) (e : Int) : Option Decimal :=
  let up := 10 ^ (-e).toNat
  let step := i.scale * 10 ^ e.toNat
  let low := i.low * up
  let mid := i.mid * up
  let high := i.high * up
  let below := mid / step
  match i.hits low high (below * step), i.hits low high ((below + 1) * step) with
  | true, true => some ⟨if 2 * (mid % step) < step then below else below + 1, e⟩
  | true, false => some ⟨below, e⟩
  | false, true => some ⟨below + 1, e⟩
  | false, false => none

end Interval

namespace BinaryFormat

variable (f : BinaryFormat)

/-- The numbers that round to magnitude `w`, for a positive finite `w`. -/
def interval (w : Nat) : Interval where
  low := f.units (w - 1) + f.units w
  mid := 2 * f.units w
  high := f.units w + f.units (w + 1)
  scale := 2 ^ (f.unitExponent + 1)
  closed := w % 2 = 0

/-- The exponents of the grids to search, coarsest first: from the number of digits in front
    of the point down to the grid that holds every value of the format. -/
def gridExponents (w : Nat) : List Int :=
  let top := (Nat.toDigits 10 (f.units w / 2 ^ f.unitExponent)).length
  (List.range (top + f.unitExponent + 1)).map fun i : Nat => (top : Int) - (i : Int)

/-- The shortest decimal that reads back as magnitude `w`, for a positive finite `w`. -/
def shortest (w : Nat) : Decimal :=
  ((f.gridExponents w).findSome? (f.interval w).onGrid?).getD
    ⟨f.units w * 5 ^ f.unitExponent, -f.unitExponent⟩

end BinaryFormat

end KernelDiff
