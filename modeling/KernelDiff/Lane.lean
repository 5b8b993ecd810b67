import KernelDiff.Bytes
import KernelDiff.ElementType
import KernelDiff.Binary.Numeral

namespace KernelDiff.Lane

/-!
# Lanes

One lane of a value is a word of its kind's size. This module makes a lane from a seed, writes
its text and reads it back.
-/

/-- Bits of one lane. -/
def bits (k : ScalarKind) : Nat := 8 * k.size

/-- The word for a seed: integers wrap, floating-point numbers are rounded to nearest, and a
    truth value says whether the seed is not zero. -/
def ofSeed (k : ScalarKind) (seed : Int64) : Nat :=
  match k.encoding with
  | .truth => if seed = 0 then 0 else 1
  | .integer _ => (seed.toInt % 2 ^ bits k).toNat
  | .floating stored _ => stored.ofInt seed.toInt

/-- The integer that a word stands for. -/
def toInt (k : ScalarKind) (signed : Bool) (word : Nat) : Int :=
  if signed && 2 ^ (bits k - 1) ≤ word then (word : Int) - 2 ^ bits k else word

/-- The least integer of a kind. -/
def least (k : ScalarKind) (signed : Bool) : Int :=
  if signed then -2 ^ (bits k - 1) else 0

/-- The greatest integer of a kind. -/
def greatest (k : ScalarKind) (signed : Bool) : Int :=
  if signed then 2 ^ (bits k - 1) - 1 else 2 ^ bits k - 1

/-- The text of a word. A number of a narrow format is written as the equal number of the
    format it is shown in. -/
def text (k : ScalarKind) (word : Nat) : List Char :=
  match k.encoding with
  | .truth => Text.ofNat word
  | .integer signed => Text.ofInt (toInt k signed word)
  | .floating stored shown =>
    shown.text (shown.signed (stored.isNegative word)
      (stored.convert shown (stored.magnitude word)))

/-- The word that a text without surrounding blanks denotes. -/
def parse? (k : ScalarKind) (s : List Char) : Option Nat :=
  match k.encoding with
  | .truth =>
    if s = "true".toList then some 1
    else if s = "false".toList then some 0
    else (Text.integerIn? false 0 (greatest k false) s).map Int.toNat
  | .integer signed =>
    (Text.integerIn? signed (least k signed) (greatest k signed) s).map fun i =>
      (i % 2 ^ bits k).toNat
  | .floating stored shown =>
    (shown.parse? s).map fun word =>
      stored.signed (shown.isNegative word) (shown.convert stored (shown.magnitude word))

/-- The bytes of words of one kind, in order. -/
def encode (k : ScalarKind) (words : List Nat) : List UInt8 :=
  words.flatMap (Bytes.ofNat k.size)

/-- The words of the whole lanes in a list of bytes. -/
def decode (k : ScalarKind) (bytes : List UInt8) : List Nat :=
  (Bytes.wholePieces k.size bytes).map Bytes.toNat

@[simp] theorem length_encode (k : ScalarKind) (words : List Nat) :
    (encode k words).length = words.length * k.size := by
  induction words with
  | nil => simp [encode]
  | cons w ws ih =>
    have h : encode k (w :: ws) = Bytes.ofNat k.size w ++ encode k ws := rfl
    rw [h, List.length_append, ih, Bytes.length_ofNat, List.length_cons, Nat.add_mul]
    omega

end KernelDiff.Lane
