import KernelDiff.Proofs.Binary.Nearness
import KernelDiff.Proofs.Lane.Integer
import KernelDiff.Proofs.Lane.Seeds
import KernelDiff.Value
import Mathlib.Data.Int.ModEq

namespace KernelDiff

/-!
# What a seed becomes

A value that is made from a seed has the same word in every lane, also in the one that fills up a
vector of three. An integer lane wraps, a truth value says whether the seed is zero, and a
floating-point number is the nearest one. Only half precision has seeds that are too large for it.

* `Lane.Encodes` — what the word of a seed has to be;
* `Lane.encodes_ofSeed` — it is so for every kind;
* `Value.ofSeed_encodes` — and in all lanes of a value.
-/

namespace Lane

/-- What the word of a seed has to be, by the kind of the lane. -/
structure Encodes (k : ScalarKind) (seed : Int64) (word : Nat) : Prop where
  isWord : word < 2 ^ bits k
  truth : k.encoding = .truth → word = if seed = 0 then 0 else 1
  /-- The integer of this kind that is congruent to the seed. -/
  integer : ∀ signed, k.encoding = .integer signed →
    least k signed ≤ toInt k signed word ∧ toInt k signed word ≤ greatest k signed ∧
      toInt k signed word ≡ seed.toInt [ZMOD 2 ^ bits k]
  /-- The nearest number, with an even significand if there are two. -/
  floating : ∀ stored shown, k.encoding = .floating stored shown →
    (k = .half → |seed.toInt| < 65520) → stored.RoundsTo seed.toInt word
  overflow : k = .half → 65520 ≤ |seed.toInt| →
    word = BinaryFormat.half.signed (seed.toInt < 0) BinaryFormat.half.infinity

variable {k : ScalarKind} {seed : Int64}

theorem natAbs_toInt_le (seed : Int64) : seed.toInt.natAbs ≤ 2 ^ 63 := by
  have hlow := seed.le_toInt
  have hhigh := seed.toInt_lt
  omega

/-- A word for a seed stands for an integer that is congruent to it. -/
theorem toInt_ofSeed {signed : Bool} (h : k.encoding = .integer signed) :
    toInt k signed (ofSeed k seed) ≡ seed.toInt [ZMOD 2 ^ bits k] := by
  have hpos : (0 : ℤ) < 2 ^ bits k := Int.pow_pos (by decide)
  have hword : (toInt k signed (ofSeed k seed) % 2 ^ bits k).toNat = ofSeed k seed :=
    toInt_emod (ofSeed_lt k seed)
  have hseed : ofSeed k seed = (seed.toInt % 2 ^ bits k).toNat := by
    rw [ofSeed, h]
  rw [hseed] at hword ⊢
  have hleft := Int.emod_nonneg (toInt k signed (seed.toInt % 2 ^ bits k).toNat) hpos.ne'
  have hright := Int.emod_nonneg seed.toInt hpos.ne'
  unfold Int.ModEq
  omega

/-- Where all seeds are below the last midpoint of a format, none of them is too large. -/
theorem ofRatio_natAbs_lt_infinity {f : BinaryFormat} (hf : f.fractionBits ≠ 0)
    (hinf : 0 < f.infinity) (seed : Int64)
    (h : 2 * (2 ^ 63 * 2 ^ f.unitExponent) < f.units (f.infinity - 1) + f.units f.infinity) :
    f.ofRatio seed.toInt.natAbs 1 < f.infinity :=
  (BinaryFormat.ofRatio_mono hf (natAbs_toInt_le seed)).trans_lt
    ((BinaryFormat.ofRatio_lt_infinity_iff hf hinf).2 h)

/-- Only half precision has seeds that are too large for it. -/
theorem ofRatio_lt_infinity {stored shown : BinaryFormat} (h : k.encoding = .floating stored shown)
    (hhalf : k = .half → |seed.toInt| < 65520) :
    stored.ofRatio seed.toInt.natAbs 1 < stored.infinity := by
  cases k with
  | half =>
    cases h
    have hseed := hhalf rfl
    rw [Int.abs_eq_natAbs] at hseed
    exact BinaryFormat.ofRatio_half_lt_infinity_iff.2 (by omega)
  | float =>
    cases h
    exact ofRatio_natAbs_lt_infinity (by decide) (by decide) seed (by decide +kernel)
  | double =>
    cases h
    exact ofRatio_natAbs_lt_infinity (by decide) (by decide) seed (by decide +kernel)
  | _ => cases h

/-- **The word of a seed is what it has to be.** -/
theorem encodes_ofSeed (k : ScalarKind) (seed : Int64) : Encodes k seed (ofSeed k seed) := by
  refine ⟨ofSeed_lt k seed, fun h => ?_, fun signed h => ?_, fun stored shown h hhalf => ?_,
    fun h hseed => ?_⟩
  · rw [ofSeed, h]
  · obtain ⟨hlow, hhigh⟩ := toInt_bounds signed (ofSeed_lt k seed)
    exact ⟨hlow, hhigh, toInt_ofSeed h⟩
  · rw [ofSeed, h]
    exact BinaryFormat.roundsTo_ofInt (hasFormats_of_encoding h).stored_fractionBits
      (ofRatio_lt_infinity h hhalf)
  · subst h
    rw [Int.abs_eq_natAbs] at hseed
    show BinaryFormat.half.ofInt seed.toInt = _
    rw [BinaryFormat.ofInt, BinaryFormat.ofRatio_half_eq_infinity (by omega)]

/-- Half precision has the word that is had by way of double precision. -/
theorem ofSeed_half (seed : Int64) :
    ofSeed .half seed = BinaryFormat.half.signed
      (BinaryFormat.double.isNegative (BinaryFormat.double.ofInt seed.toInt))
      (BinaryFormat.double.convert .half
        (BinaryFormat.double.magnitude (BinaryFormat.double.ofInt seed.toInt))) := by
  rw [BinaryFormat.isNegative_ofInt, BinaryFormat.magnitude_ofInt,
    BinaryFormat.convert_ofRatio_double]
  rfl

end Lane

namespace Value

/-- **Seeds become values.** A value that is made from a seed has the size of its type, and the same
    word in every lane in memory. The word wraps, says whether the seed is zero, or is the nearest
    number; half precision has its infinities for seeds from 65520 on, and the words that are had by
    way of double precision. A greater seed never becomes a smaller floating-point number. -/
theorem ofSeed_encodes (t : ElementType) (seed : Int64) :
    (ofSeed t seed).bytes.length = t.size ∧
    Lane.decode t.kind (ofSeed t seed).bytes =
      List.replicate t.width.stored (Lane.ofSeed t.kind seed) ∧
    Lane.Encodes t.kind seed (Lane.ofSeed t.kind seed) ∧
    (t.kind = .half → Lane.ofSeed t.kind seed = BinaryFormat.half.signed
      (BinaryFormat.double.isNegative (BinaryFormat.double.ofInt seed.toInt))
      (BinaryFormat.double.convert .half
        (BinaryFormat.double.magnitude (BinaryFormat.double.ofInt seed.toInt)))) ∧
    ∀ stored shown, t.kind.encoding = .floating stored shown → ∀ other : Int64, seed ≤ other →
      stored.number (Lane.ofSeed t.kind seed) ≤ stored.number (Lane.ofSeed t.kind other) := by
  refine ⟨(ofSeed t seed).length_bytes, Element.decode_ofSeed t seed,
    Lane.encodes_ofSeed t.kind seed, fun h => ?_, fun stored shown h other hle => ?_⟩
  · rw [h]
    exact Lane.ofSeed_half seed
  · rw [Lane.ofSeed, Lane.ofSeed, h]
    exact BinaryFormat.number_ofInt_mono (Lane.hasFormats_of_encoding h).stored_fractionBits
      (Int64.le_iff_toInt_le.1 hle)

/-- The greatest seed that half precision has room for becomes its greatest number, in the three
    lanes of a vector and in the fourth one that is stored, and the next seed becomes an infinity. -/
theorem ofSeed_encodes_half3 :
    Lane.decode .half (ofSeed ⟨.half, .three, by decide⟩ 65519).bytes =
        [0x7bff, 0x7bff, 0x7bff, 0x7bff] ∧
      Lane.Encodes .half 65519 0x7bff ∧ Lane.Encodes .half 65520 0x7c00 ∧
      BinaryFormat.half.number 0x7bff ≤ BinaryFormat.half.number 0x7c00 := by
  have hlast := ofSeed_encodes ⟨.half, .three, by decide⟩ 65519
  have hnext := ofSeed_encodes ⟨.half, .three, by decide⟩ 65520
  exact ⟨hlast.2.1, hlast.2.2.1, hnext.2.2.1, hlast.2.2.2.2 .half .single rfl 65520 (by decide)⟩

end Value

end KernelDiff
