import KernelDiff.Proofs.Binary.Conversion

namespace KernelDiff.BinaryFormat

/-!
# Small integers are words of their own

An integer of the precision of a format is a value of the format, and so is the next one. So no
other integer is rounded to it, however large.

* `units_ofRatio`, `ofRatio_mono` — integers of the precision of a format are exact there, and
  magnitudes of integers are ordered as the integers;
* `ofRatio_natCast_eq_iff` — so no other integer has the magnitude of a small one;
* `ofInt_eq_iff` — and none has its word.
-/

variable {f : BinaryFormat} {n m : Nat}

/-- An integer of the precision of the format is a finite value, if the precision does not use up
    the exponents. -/
theorem exists_units_natCast (hrange : (f.unitExponent + 2) * f.hidden < f.infinity)
    (hm : m ≤ 2 * f.hidden) : ∃ w < f.infinity, f.units w = m * 2 ^ f.unitExponent := by
  obtain ⟨w, hunits, hle⟩ := exists_units_eq hm f.unitExponent
  exact ⟨w, by omega, hunits⟩

/-- An integer of the precision of a format is its own value there. -/
theorem units_ofRatio (hf : f.fractionBits ≠ 0)
    (hrange : (f.unitExponent + 2) * f.hidden < f.infinity) (hn : n ≤ 2 * f.hidden) :
    f.ofRatio n 1 < f.infinity ∧ f.units (f.ofRatio n 1) = n * 2 ^ f.unitExponent := by
  obtain ⟨w, hw, hunits⟩ := exists_units_natCast hrange hn
  have hround : f.ofRatio n 1 = w := by
    rw [ofRatio, ← hunits, ← Nat.mul_one (f.units w)]
    exact round_units hf Nat.one_pos hw
  rw [hround]
  exact ⟨hw, hunits⟩

theorem ofRatio_mono (hf : f.fractionBits ≠ 0) (h : n ≤ m) : f.ofRatio n 1 ≤ f.ofRatio m 1 :=
  round_mono hf Nat.one_pos (Nat.mul_le_mul_right _ h)

/-- Of two integers the smaller one has a smaller magnitude, if it is small enough. -/
theorem ofRatio_lt_ofRatio (hf : f.fractionBits ≠ 0)
    (hrange : (f.unitExponent + 2) * f.hidden < f.infinity) (hn : n < 2 * f.hidden) (h : n < m) :
    f.ofRatio n 1 < f.ofRatio m 1 := by
  have hthis := (units_ofRatio hf hrange hn.le).2
  have hnext := (units_ofRatio hf hrange (n := n + 1) hn).2
  have hstep : f.ofRatio n 1 < f.ofRatio (n + 1) 1 := by
    rw [← f.units_strictMono.lt_iff_lt, hthis, hnext]
    exact Nat.mul_lt_mul_of_pos_right (Nat.lt_succ_self n) (Nat.two_pow_pos _)
  exact hstep.trans_le (ofRatio_mono hf h)

/-- No other integer is rounded to the magnitude of a small one. -/
theorem ofRatio_natCast_eq_iff (hf : f.fractionBits ≠ 0)
    (hrange : (f.unitExponent + 2) * f.hidden < f.infinity) (hm : m < 2 * f.hidden) :
    f.ofRatio n 1 = f.ofRatio m 1 ↔ n = m := by
  constructor
  · intro heq
    rcases Nat.lt_trichotomy n m with hlt | rfl | hgt
    · have hless := ofRatio_lt_ofRatio hf hrange (hlt.trans hm) hlt
      omega
    · rfl
    · have hless := ofRatio_lt_ofRatio hf hrange hm hgt
      omega
  · rintro rfl
    rfl

theorem ofRatio_lt_signBit (f : BinaryFormat) (n d : Nat) : f.ofRatio n d < f.signBit := by
  have hle : f.ofRatio n d ≤ f.infinity := Nat.min_le_right _ _
  have := f.infinity_lt_signBit
  omega

theorem magnitude_ofInt (f : BinaryFormat) (i : Int) :
    f.magnitude (f.ofInt i) = f.ofRatio i.natAbs 1 :=
  magnitude_signed (f.ofRatio_lt_signBit _ _)

theorem isNegative_ofInt (f : BinaryFormat) (i : Int) :
    f.isNegative (f.ofInt i) = decide (i < 0) :=
  isNegative_signed (f.ofRatio_lt_signBit _ _)

/-- **No other integer becomes the word of a small one.** -/
theorem ofInt_eq_iff (hf : f.fractionBits ≠ 0)
    (hrange : (f.unitExponent + 2) * f.hidden < f.infinity) {i j : Int} (hj : 0 ≤ j)
    (hlt : j < 2 * f.hidden) : f.ofInt i = f.ofInt j ↔ i = j := by
  have hsmall : j.natAbs < 2 * f.hidden := by omega
  constructor
  · intro heq
    have hsign := congrArg f.isNegative heq
    have hmagnitude := congrArg f.magnitude heq
    rw [isNegative_ofInt, isNegative_ofInt] at hsign
    rw [magnitude_ofInt, magnitude_ofInt] at hmagnitude
    have habs := (ofRatio_natCast_eq_iff hf hrange hsmall).1 hmagnitude
    have hnegative : i < 0 ↔ j < 0 := by simpa using hsign
    omega
  · rintro rfl
    rfl

end KernelDiff.BinaryFormat
