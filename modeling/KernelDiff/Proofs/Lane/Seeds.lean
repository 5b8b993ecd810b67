import KernelDiff.Proofs.Binary.Integer
import KernelDiff.Proofs.Lane.Floating
import KernelDiff.Proofs.Lane.Words

namespace KernelDiff

/-!
# Seeds that give the same lane

A lane does not hold all of its seed. Of a truth value only whether the seed is zero is left, and
of an integer its residue; a floating-point number is rounded, but no other seed is rounded to a
draw. This file says which seeds a lane does not tell apart from a draw.

* `Lane.Coincide` — the seeds that give the same lane, in numbers;
* `Lane.ofSeed_eq_iff` — they do;
* `Lane.isNaN_ofSeed` — every seed is a number;
* `Element.ofSeed_eq_iff` — and an element tells seeds apart exactly as its lanes do;
* `Element.ofSeed_zero` — the seed zero gives bytes that are all zero.
-/

namespace Lane

variable {k : ScalarKind} {a b : Int64}

theorem ofSeed_lt (k : ScalarKind) (seed : Int64) : ofSeed k seed < 2 ^ bits k := by
  unfold ofSeed
  cases hencoding : k.encoding with
  | truth =>
    have htwo : 2 ≤ 2 ^ bits k := by
      cases k <;> decide
    simp only
    split <;> omega
  | integer signed =>
    have hpos : (0 : Int) < 2 ^ bits k := Int.pow_pos (by decide)
    have hnonneg := Int.emod_nonneg seed.toInt (Int.ne_of_gt hpos)
    have hlt := Int.emod_lt_of_pos seed.toInt hpos
    have hcast : (2 : Int) ^ bits k = (2 ^ bits k : Nat) := by simp
    simp only
    omega
  | floating stored shown =>
    have hk := hasFormats_of_encoding hencoding
    have hmagnitude := stored.ofRatio_lt_signBit seed.toInt.natAbs 1
    have hbits := hk.two_mul_signBit
    simp only [BinaryFormat.ofInt, BinaryFormat.signed]
    split <;> omega

/-- Every seed is a number, though one beyond the range of a kind becomes an infinity of it. -/
theorem isNaN_ofSeed (k : ScalarKind) (seed : Int64) : isNaN k (ofSeed k seed) = false := by
  unfold isNaN ofSeed
  cases k.encoding with
  | truth => rfl
  | integer signed => rfl
  | floating stored shown =>
    have hle : stored.ofRatio seed.toInt.natAbs 1 ≤ stored.infinity := Nat.min_le_right _ _
    simpa [stored.magnitude_ofInt] using hle

/-- Zero has the word zero in every encoding. -/
theorem ofSeed_zero (k : ScalarKind) : ofSeed k 0 = 0 := by
  unfold ofSeed
  cases hencoding : k.encoding with
  | truth => rfl
  | integer signed => simp
  | floating stored shown =>
    have hk := hasFormats_of_encoding hencoding
    have hzero := BinaryFormat.ofRatio_zero hk.stored_fractionBits (Nat.zero_lt_of_lt hk.integers)
    simpa [BinaryFormat.ofInt, BinaryFormat.signed] using hzero

theorem encode_replicate_zero (k : ScalarKind) (count : Nat) :
    encode k (List.replicate count 0) = List.replicate (count * k.size) 0 := by
  induction count with
  | zero =>
    rw [Nat.zero_mul]
    rfl
  | succ count ih =>
    rw [List.replicate_succ, encode_cons, ih, Bytes.ofNat_zero, List.replicate_append_replicate,
      Nat.succ_mul, Nat.add_comm]

/-- Whether a lane of a kind cannot tell two seeds apart. -/
def Coincide (k : ScalarKind) (a b : Int64) : Prop :=
  match k.encoding with
  | .truth => a = 0 ↔ b = 0
  | .integer _ => a.toInt % 2 ^ bits k = b.toInt % 2 ^ bits k
  | .floating .. => a = b

/-- **A lane tells a seed and a draw apart** unless they coincide. -/
theorem ofSeed_eq_iff (hb : 0 ≤ b.toInt) (hlt : b.toInt < 128) :
    ofSeed k a = ofSeed k b ↔ Coincide k a b := by
  unfold ofSeed Coincide
  cases hencoding : k.encoding with
  | truth => by_cases ha : a = 0 <;> by_cases hb : b = 0 <;> simp [ha, hb]
  | integer signed =>
    have hpos : (0 : Int) < 2 ^ bits k := Int.pow_pos (by decide)
    have hfirst := Int.emod_nonneg a.toInt (Int.ne_of_gt hpos)
    have hsecond := Int.emod_nonneg b.toInt (Int.ne_of_gt hpos)
    simp only
    omega
  | floating stored shown =>
    have hk := hasFormats_of_encoding hencoding
    have hprecision := hk.le_hidden
    simp only
    rw [BinaryFormat.ofInt_eq_iff hk.stored_fractionBits hk.integers hb (by omega), Int64.toInt_inj]

end Lane

namespace Element

theorem fill_replicate (t : ElementType) (seed : Int64) (count : Nat) :
    fill t seed (List.replicate (count * t.kind.size) 0) =
      Lane.encode t.kind (List.replicate count (Lane.ofSeed t.kind seed)) := by
  unfold fill
  simp only [List.length_replicate, Nat.mul_div_cancel _ t.kind.size_pos, List.drop_replicate,
    Nat.sub_self, List.replicate_zero, List.append_nil]

theorem ofSeed_eq_encode (t : ElementType) (seed : Int64) :
    ofSeed t seed = Lane.encode t.kind (List.replicate t.lanes (Lane.ofSeed t.kind seed)) :=
  fill_replicate t seed t.lanes

/-- Every lane of an element holds its seed. -/
theorem decode_ofSeed (t : ElementType) (seed : Int64) :
    Lane.decode t.kind (ofSeed t seed) = List.replicate t.lanes (Lane.ofSeed t.kind seed) := by
  rw [ofSeed_eq_encode]
  refine Lane.decode_encode fun word hword => ?_
  rw [List.eq_of_mem_replicate hword]
  exact Lane.ofSeed_lt t.kind seed

theorem eq_of_mem_decode_ofSeed {t : ElementType} {seed : Int64} {word : Nat}
    (h : word ∈ Lane.decode t.kind (ofSeed t seed)) : word = Lane.ofSeed t.kind seed := by
  rw [decode_ofSeed] at h
  exact List.eq_of_mem_replicate h

/-- An element tells seeds apart exactly as its lanes do. -/
theorem ofSeed_eq_iff {t : ElementType} {a b : Int64} :
    ofSeed t a = ofSeed t b ↔ Lane.ofSeed t.kind a = Lane.ofSeed t.kind b := by
  have hlanes := t.lanes_pos
  rw [ofSeed_eq_encode, ofSeed_eq_encode, Lane.encode_replicate_inj (by omega)
    (Lane.ofSeed_lt _ _) (Lane.ofSeed_lt _ _)]

/-- All bytes of the element for zero are zero. -/
theorem ofSeed_zero (t : ElementType) : ofSeed t 0 = List.replicate t.size 0 := by
  rw [ofSeed_eq_encode, Lane.ofSeed_zero, Lane.encode_replicate_zero]
  rfl

end Element

end KernelDiff
