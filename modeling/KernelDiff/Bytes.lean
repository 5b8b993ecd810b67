namespace KernelDiff.Bytes

/-!
# Bytes

Encoded values are lists of bytes, least significant byte first. This module holds the
passage between words and bytes, the cutting of a list into pieces of one size, and the
hexadecimal text of bytes.
-/

/-- The `size` low bytes of a word, least significant first. -/
def ofNat : (size : Nat) → Nat → List UInt8
  | 0, _ => []
  | size + 1, n => UInt8.ofNat n :: ofNat size (n / 256)

/-- The word that a list of bytes encodes, least significant first. -/
def toNat : List UInt8 → Nat
  | [] => 0
  | b :: bs => b.toNat + 256 * toNat bs

@[simp] theorem length_ofNat (size n : Nat) : (ofNat size n).length = size := by
  induction size generalizing n with
  | zero => rfl
  | succ size ih => simp [ofNat, ih]

/-- The first `count` pieces of `size` entries each. -/
def pieces (size : Nat) : (count : Nat) → List α → List (List α)
  | 0, _ => []
  | count + 1, xs => xs.take size :: pieces size count (xs.drop size)

/-- All whole pieces of `size` entries; a shorter rest is left out. -/
def wholePieces (size : Nat) (xs : List α) : List (List α) :=
  pieces size (xs.length / size) xs

@[simp] theorem length_pieces (size count : Nat) (xs : List α) :
    (pieces size count xs).length = count := by
  induction count generalizing xs with
  | zero => rfl
  | succ count ih => simp [pieces, ih]

/-- A list cut or filled up with zeros to a given length. -/
def fit (size : Nat) (bytes : List UInt8) : List UInt8 :=
  (bytes ++ List.replicate size 0).take size

@[simp] theorem length_fit (size : Nat) (bytes : List UInt8) : (fit size bytes).length = size := by
  simp [fit]

/-- Two lower-case hexadecimal digits. -/
def hexByte (b : UInt8) : List Char :=
  [Nat.digitChar (b.toNat / 16), Nat.digitChar (b.toNat % 16)]

/-- Two lower-case hexadecimal digits per byte, in memory order. -/
def hex (bytes : List UInt8) : String :=
  String.ofList (bytes.flatMap hexByte)

end KernelDiff.Bytes
