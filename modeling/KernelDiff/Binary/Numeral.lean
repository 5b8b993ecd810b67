import KernelDiff.Binary.Shortest
import KernelDiff.Text.Integer

namespace KernelDiff

/-!
# Numerals

The text of a floating-point number. Written: the shortest digits, in positional notation
however long, without a point where there is no fraction. Read: digits with an optional
point and an optional exponent, or the words for infinity and not-a-number in any case.
-/

/-- What a numeral without its sign stands for. -/
inductive Numeral
  | notANumber
  | infinite
  | finite (value : Decimal)
  deriving DecidableEq, Repr

namespace Numeral

/-- A decimal exponent beyond which every format overflows, and before which every one
    underflows. -/
def reach : Nat := 400

/-- An exponent as read, cut to what can still matter for `count` digits. -/
def clampExponent (count : Nat) (e : Int) : Int :=
  max (-(count + reach : Int)) (min e reach)

/-- The exponent part behind the digits: nothing, or the letter and an integer. -/
def exponent? : List Char → Option Int
  | [] => some 0
  | c :: s => if c = 'e' ∨ c = 'E' then Text.integer? true s else none

/-- Digits with an optional point and an optional exponent; at least one digit. -/
def decimal? (s : List Char) : Option Decimal :=
  let whole := s.takeWhile Char.isDigit
  let rest := s.dropWhile Char.isDigit
  let (fraction, tail) :=
    match rest with
    | '.' :: r => (r.takeWhile Char.isDigit, r.dropWhile Char.isDigit)
    | r => ([], r)
  let digits := whole ++ fraction
  if digits.isEmpty then none
  else (exponent? tail).map fun e =>
    ⟨Nat.ofDigitChars 10 digits 0, clampExponent digits.length (e - fraction.length)⟩

/-- A numeral without its sign. -/
def unsigned? (s : List Char) : Option Numeral :=
  let word := s.map Char.toLower
  if word = "nan".toList then some .notANumber
  else if word = "inf".toList ∨ word = "infinity".toList then some .infinite
  else (decimal? s).map .finite

/-- A numeral with its sign: whether it is negative, and what it stands for. -/
def read? : List Char → Option (Bool × Numeral)
  | '-' :: s => (unsigned? s).map (true, ·)
  | '+' :: s => (unsigned? s).map (false, ·)
  | s => (unsigned? s).map (false, ·)

end Numeral

namespace Decimal

/-- A decimal as a quotient of natural numbers. -/
def ratio (d : Decimal) : Nat × Nat :=
  (d.digits * 10 ^ d.exponent.toNat, 10 ^ (-d.exponent).toNat)

/-- Positional notation: the digits in front of the point, and the point with the digits
    behind it if the exponent is negative. -/
def positional (d : Decimal) : List Char :=
  let places := (-d.exponent).toNat
  let whole := Text.ofNat (d.digits * 10 ^ d.exponent.toNat / 10 ^ places)
  if places = 0 then whole
  else
    let fraction := Text.ofNat (d.digits % 10 ^ places)
    whole ++ '.' :: (List.replicate (places - fraction.length) '0' ++ fraction)

end Decimal

namespace BinaryFormat

variable (f : BinaryFormat)

/-- The magnitude nearest to a numeral. -/
def ofNumeral : Numeral → Nat
  | .notANumber => f.quietNaN
  | .infinite => f.infinity
  | .finite d => f.ofRatio d.ratio.1 d.ratio.2

/-- The word that a text denotes. -/
def parse? (s : List Char) : Option Nat :=
  (Numeral.read? s).map fun (negative, n) => f.signed negative (f.ofNumeral n)

/-- The text of a word: `NaN` without a sign, and else the sign and the shortest text that
    reads back as the word. -/
def text (bits : Nat) : List Char :=
  let w := f.magnitude bits
  let sign := if f.isNegative bits then ['-'] else []
  if f.infinity < w then "NaN".toList
  else if w = f.infinity then sign ++ "inf".toList
  else if w = 0 then sign ++ ['0']
  else sign ++ (f.shortest w).positional

end BinaryFormat

end KernelDiff
