namespace KernelDiff.Text

/-!
# Integers in base ten

Written without leading zeros and with a minus sign only; read with any number of leading
zeros and with an optional plus sign. Only the ASCII digits count as digits.
-/

/-- The digits of `n`, without leading zeros; zero is written `0`. -/
def ofNat (n : Nat) : List Char :=
  Nat.toDigits 10 n

/-- A minus sign if `i` is negative, then the digits of its absolute value. -/
def ofInt (i : Int) : List Char :=
  if i < 0 then '-' :: ofNat i.natAbs else ofNat i.natAbs

/-- The value of a text of one or more digits. -/
def digits? (s : List Char) : Option Nat :=
  if !s.isEmpty && s.all Char.isDigit then some (Nat.ofDigitChars 10 s 0) else none

/-- The value of a text of digits behind an optional sign; a minus sign only where `signed`. -/
def integer? (signed : Bool) : List Char → Option Int
  | '+' :: s => (digits? s).map Int.ofNat
  | '-' :: s => if signed then (digits? s).map (fun n => -(n : Int)) else none
  | s => (digits? s).map Int.ofNat

/-- An integer literal with its value in `lo … hi`. -/
def integerIn? (signed : Bool) (lo hi : Int) (s : List Char) : Option Int :=
  (integer? signed s).filter (fun i => lo ≤ i && i ≤ hi)

/-- A literal of an unsigned 64-bit word. -/
def word64? (s : List Char) : Option UInt64 :=
  (integerIn? false 0 (UInt64.size - 1) s).map (fun i => UInt64.ofNat i.toNat)

/-- A literal of a signed 64-bit word. -/
def int64? (s : List Char) : Option Int64 :=
  (integerIn? true Int64.minValue.toInt Int64.maxValue.toInt s).map Int64.ofInt

end KernelDiff.Text
