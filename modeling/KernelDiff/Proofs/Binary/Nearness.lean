import KernelDiff.Proofs.Binary.Integer
import Mathlib.Algebra.Order.Field.Rat
import Mathlib.Order.WithBot
import Mathlib.Tactic.Positivity

namespace KernelDiff.BinaryFormat

/-!
# The nearest value

Midpoints say which magnitude is nearest. Here this is said in distances between exact values: no
finite word is nearer to an integer than the one that it becomes, and of two that are as near the one
with the even significand is taken. What is too large becomes an infinity.

* `value`, `significand` — the exact value of a word, and its digits;
* `RoundsTo` — what the word of an integer has to be;
* `ofRatio_lt_infinity_iff` — the integers that are not too large;
* `roundsTo_ofInt` — these are rounded as they should be;
* `number`, `number_ofInt_mono` — a greater integer does not become a smaller number;
* `convert_ofRatio_double` — half precision has the same words by way of double precision.
-/

variable {f : BinaryFormat} {n d v w : Nat}

/-! ### Values -/

/-- The value of a word in units. -/
def signedUnits (f : BinaryFormat) (bits : Nat) : ℤ :=
  if f.isNegative bits then -f.units (f.magnitude bits) else f.units (f.magnitude bits)

/-- The exact value of a word with a finite magnitude. -/
def value (f : BinaryFormat) (bits : Nat) : ℚ :=
  f.signedUnits bits / 2 ^ f.unitExponent

/-- The significand of a magnitude: the fraction, with the hidden bit in front of it where the
    exponent field is not zero. -/
def significand (f : BinaryFormat) (w : Nat) : Nat :=
  if w < f.hidden then w else f.hidden + w % f.hidden

/-- The word that an integer has to become: a finite word with its sign, such that no other one is
    nearer, and the significand is even if another value is as near. -/
structure RoundsTo (f : BinaryFormat) (i : ℤ) (bits : Nat) : Prop where
  isWord : f.IsWord bits
  isFinite : f.magnitude bits < f.infinity
  isNegative_iff : f.isNegative bits ↔ i < 0
  nearest : ∀ other, f.magnitude other < f.infinity → |f.value bits - i| ≤ |f.value other - i|
  even : ∀ other, f.magnitude other < f.infinity → f.value other ≠ f.value bits →
    |f.value other - i| = |f.value bits - i| → Even (f.significand (f.magnitude bits))

/-- The last digit of a magnitude is that of its significand. -/
theorem significand_mod_two (hf : f.fractionBits ≠ 0) (w : Nat) :
    f.significand w % 2 = w % 2 := by
  have hone := mod_two_of_scale hf 1 (w % f.hidden)
  have hscale := mod_two_of_scale hf (w / f.hidden) (w % f.hidden)
  rw [Nat.div_add_mod'] at hscale
  unfold significand
  split
  · rfl
  · rw [Nat.one_mul] at hone
    omega

/-! ### Distances of magnitudes -/

/-- No magnitude is nearer than the nearest one, and none is as near unless this is even. -/
theorem Nearest.dist_le (h : f.Nearest n 1 w) (v : Nat) :
    |(f.units w : ℤ) - n| ≤ |(f.units v : ℤ) - n| ∧
      (|(f.units v : ℤ) - n| = |(f.units w : ℤ) - n| → v ≠ w → w % 2 = 0) := by
  obtain ⟨hlow, hhigh, heven⟩ := h
  simp only [Nat.mul_one] at hlow hhigh heven
  simp only [Int.abs_eq_natAbs]
  rcases Nat.lt_trichotomy v w with hlt | rfl | hlt
  · have hlast : f.units v ≤ f.units (w - 1) := f.units_strictMono.monotone (by omega)
    have hless : f.units v < f.units w := f.units_strictMono hlt
    omega
  · simp
  · have hnext : f.units (w + 1) ≤ f.units v := f.units_strictMono.monotone (by omega)
    have hless : f.units w < f.units v := f.units_strictMono hlt
    omega

/-! ### Distances of words -/

/-- Distances of values are measured in units. -/
theorem dist_value (f : BinaryFormat) (bits : Nat) (i : ℤ) :
    |f.value bits - i| =
      ((|f.signedUnits bits - i * 2 ^ f.unitExponent| : ℤ) : ℚ) / 2 ^ f.unitExponent := by
  have hunit : (0 : ℚ) < 2 ^ f.unitExponent := by positivity
  have hsum : f.value bits - i =
      ((f.signedUnits bits - i * 2 ^ f.unitExponent : ℤ) : ℚ) / 2 ^ f.unitExponent := by
    rw [value, eq_div_iff hunit.ne', sub_mul, div_mul_cancel₀ _ hunit.ne']
    push_cast
    rfl
  rw [hsum, abs_div, abs_of_pos hunit, Int.cast_abs]

/-- A word is as far away as its magnitude if it has the right sign, and beyond zero if not. -/
theorem dist_signedUnits (f : BinaryFormat) (bits : Nat) (i : ℤ) :
    |f.signedUnits bits - i * 2 ^ f.unitExponent| =
      if f.isNegative bits = decide (i < 0)
      then |(f.units (f.magnitude bits) : ℤ) - (i.natAbs * 2 ^ f.unitExponent : Nat)|
      else f.units (f.magnitude bits) + (i.natAbs * 2 ^ f.unitExponent : Nat) := by
  have hsign : 0 ≤ i ∧ i * 2 ^ f.unitExponent = (i.natAbs * 2 ^ f.unitExponent : Nat) ∨
      i < 0 ∧ i * 2 ^ f.unitExponent = -(i.natAbs * 2 ^ f.unitExponent : Nat) := by
    rcases Int.lt_or_le i 0 with hneg | hnonneg
    · right
      rw [Nat.cast_mul, Int.ofNat_natAbs_of_nonpos hneg.le, Int.neg_mul, Int.neg_neg]
      exact ⟨hneg, by norm_cast⟩
    · left
      rw [Nat.cast_mul, Int.natAbs_of_nonneg hnonneg]
      exact ⟨hnonneg, by norm_cast⟩
  generalize i.natAbs * 2 ^ f.unitExponent = n at hsign ⊢
  generalize i * 2 ^ f.unitExponent = m at hsign ⊢
  unfold signedUnits
  rcases hsign with ⟨hi, rfl⟩ | ⟨hi, rfl⟩
  · rw [decide_eq_false (by omega)]
    cases hneg : f.isNegative bits with
    | true =>
      simp only [reduceCtorEq, if_true, if_false, Int.abs_eq_natAbs]
      omega
    | false => simp only [Bool.false_eq_true, if_true, if_false]
  · rw [decide_eq_true hi]
    cases hneg : f.isNegative bits with
    | true =>
      simp only [if_true, Int.abs_eq_natAbs]
      omega
    | false =>
      simp only [Bool.false_eq_true, if_false, Int.abs_eq_natAbs]
      omega

/-- No word is nearer than its magnitude. -/
theorem le_dist_signedUnits (f : BinaryFormat) (bits : Nat) (i : ℤ) :
    |(f.units (f.magnitude bits) : ℤ) - (i.natAbs * 2 ^ f.unitExponent : Nat)| ≤
      |f.signedUnits bits - i * 2 ^ f.unitExponent| := by
  rw [dist_signedUnits]
  split
  · exact le_rfl
  · rw [Int.abs_eq_natAbs]
    omega

/-- **Integers are rounded to the nearest word**, if they are not too large. -/
theorem roundsTo_ofInt (hf : f.fractionBits ≠ 0) {i : ℤ}
    (hi : f.ofRatio i.natAbs 1 < f.infinity) : f.RoundsTo i (f.ofInt i) := by
  have hlt := f.ofRatio_lt_signBit i.natAbs 1
  have hmagnitude := f.magnitude_ofInt i
  have hnegative := f.isNegative_ofInt i
  have hnearest : f.Nearest (i.natAbs * 2 ^ f.unitExponent) 1 (f.ofRatio i.natAbs 1) :=
    (round_eq_iff hf Nat.one_pos hi).1 rfl
  have hunit : (0 : ℚ) < 2 ^ f.unitExponent := by positivity
  have hself := f.dist_signedUnits (f.ofInt i) i
  rw [if_pos hnegative, hmagnitude] at hself
  constructor
  · unfold IsWord ofInt signed
    split <;> omega
  · rwa [hmagnitude]
  · simp [hnegative]
  · intro other _
    rw [dist_value, dist_value, hself]
    refine div_le_div_of_nonneg_right (Int.cast_le.2 ?_) hunit.le
    exact (hnearest.dist_le _).1.trans (f.le_dist_signedUnits other i)
  · intro other _ hne heq
    rw [dist_value, dist_value, div_left_inj' hunit.ne', Int.cast_inj, hself] at heq
    rw [Nat.even_iff, significand_mod_two hf, hmagnitude]
    have hle := f.le_dist_signedUnits other i
    have hnear := hnearest.dist_le (f.magnitude other)
    refine hnear.2 (by omega) fun hsame => hne ?_
    -- The same magnitude with the other sign is as near only if it is zero.
    have hunits : f.signedUnits other = f.signedUnits (f.ofInt i) := by
      unfold signedUnits
      rw [hmagnitude, hsame, hnegative]
      by_cases hsign : f.isNegative other = decide (i < 0)
      · rw [hsign]
      · have hzero := (hnearest.dist_le 0).1
        rw [dist_signedUnits, if_neg hsign, hsame] at heq
        rw [f.units_zero] at hzero
        simp only [Int.abs_eq_natAbs] at heq hzero
        have hnone : f.units (f.ofRatio i.natAbs 1) = 0 := by omega
        simp [hnone]
    rw [value, value, hunits]

/-! ### Overflow -/

/-- What is at or beyond the last midpoint is too large. -/
theorem infinity_le_unbounded_iff (hf : f.fractionBits ≠ 0) (hinf : 0 < f.infinity) (hd : 0 < d) :
    f.infinity ≤ f.unbounded n d ↔ (f.units (f.infinity - 1) + f.units f.infinity) * d ≤ 2 * n := by
  have hnearest := nearest_unbounded hf n hd
  generalize f.unbounded n d = w at hnearest ⊢
  constructor
  · intro hle
    have hlast : f.units (f.infinity - 1) ≤ f.units (w - 1) :=
      f.units_strictMono.monotone (by omega)
    have hhere : f.units f.infinity ≤ f.units w := f.units_strictMono.monotone hle
    exact (Nat.mul_le_mul_right d (by omega)).trans hnearest.low
  · intro hle
    by_contra hlt
    -- Then the fraction is at the last midpoint itself, and the last finite magnitude is odd.
    have hhere : f.units w ≤ f.units (f.infinity - 1) := f.units_strictMono.monotone (by omega)
    have hnext : f.units (w + 1) ≤ f.units f.infinity := f.units_strictMono.monotone (by omega)
    have hmid : (f.units w + f.units (w + 1)) * d ≤
        (f.units (f.infinity - 1) + f.units f.infinity) * d := Nat.mul_le_mul_right d (by omega)
    have hhigh := hnearest.high
    have hsame : f.units w + f.units (w + 1) = f.units (f.infinity - 1) + f.units f.infinity :=
      Nat.eq_of_mul_eq_mul_right hd (by omega)
    have hlast : w = f.infinity - 1 := f.units_strictMono.injective (by omega)
    have hodd := hnearest.even (.inr (by omega))
    have heven := mod_two_of_scale hf (2 ^ f.exponentBits - 1) 0
    rw [Nat.add_zero] at heven
    have hparity : f.infinity % 2 = 0 := heven
    omega

/-- The integers that are not too large. -/
theorem ofRatio_lt_infinity_iff (hf : f.fractionBits ≠ 0) (hinf : 0 < f.infinity) :
    f.ofRatio n 1 < f.infinity ↔
      2 * (n * 2 ^ f.unitExponent) < f.units (f.infinity - 1) + f.units f.infinity := by
  have hiff := infinity_le_unbounded_iff (n := n * 2 ^ f.unitExponent) hf hinf Nat.one_pos
  rw [Nat.mul_one] at hiff
  rw [ofRatio, round_eq_min]
  omega

/-! ### Order -/

/-- The number or infinity that a word stands for. -/
def number (f : BinaryFormat) (bits : Nat) : WithBot (WithTop ℚ) :=
  if f.magnitude bits < f.infinity then ((f.value bits : WithTop ℚ) : WithBot (WithTop ℚ))
  else if f.isNegative bits then ⊥ else ⊤

theorem signedUnits_ofInt_mono (hf : f.fractionBits ≠ 0) {i j : ℤ} (h : i ≤ j) :
    f.signedUnits (f.ofInt i) ≤ f.signedUnits (f.ofInt j) := by
  unfold signedUnits
  rw [magnitude_ofInt, magnitude_ofInt, isNegative_ofInt, isNegative_ofInt]
  rcases Int.lt_or_le j 0 with hj | hj
  · -- Both are negative, so the magnitudes go the other way.
    have hle : f.units (f.ofRatio j.natAbs 1) ≤ f.units (f.ofRatio i.natAbs 1) :=
      f.units_strictMono.monotone (ofRatio_mono hf (by omega))
    rw [decide_eq_true (h.trans_lt hj), decide_eq_true hj, if_pos rfl, if_pos rfl]
    omega
  · rw [decide_eq_false (by omega : ¬j < 0), if_neg Bool.false_ne_true]
    rcases Int.lt_or_le i 0 with hi | hi
    · rw [decide_eq_true hi, if_pos rfl]
      omega
    · have hle : f.units (f.ofRatio i.natAbs 1) ≤ f.units (f.ofRatio j.natAbs 1) :=
        f.units_strictMono.monotone (ofRatio_mono hf (by omega))
      rw [decide_eq_false (by omega : ¬i < 0), if_neg Bool.false_ne_true]
      omega

/-- **A greater integer does not become a smaller number.** -/
theorem number_ofInt_mono (hf : f.fractionBits ≠ 0) {i j : ℤ} (h : i ≤ j) :
    f.number (f.ofInt i) ≤ f.number (f.ofInt j) := by
  unfold number
  rw [magnitude_ofInt, magnitude_ofInt, isNegative_ofInt, isNegative_ofInt]
  by_cases hi : f.ofRatio i.natAbs 1 < f.infinity
  · rw [if_pos hi]
    by_cases hj : f.ofRatio j.natAbs 1 < f.infinity
    · rw [if_pos hj, WithBot.coe_le_coe, WithTop.coe_le_coe, value, value]
      refine div_le_div_of_nonneg_right (Int.cast_le.2 (signedUnits_ofInt_mono hf h)) ?_
      positivity
    · -- A negative integer that is too large is below no other one.
      have hle : j < 0 → f.ofRatio j.natAbs 1 ≤ f.ofRatio i.natAbs 1 :=
        fun hneg => ofRatio_mono hf (by omega)
      rw [if_neg hj, if_neg (by simpa using fun hneg => hj ((hle hneg).trans_lt hi))]
      exact le_top
  · rw [if_neg hi]
    by_cases hneg : i < 0
    · rw [decide_eq_true hneg, if_pos rfl]
      exact bot_le
    · have hle : f.ofRatio i.natAbs 1 ≤ f.ofRatio j.natAbs 1 := ofRatio_mono hf (by omega)
      rw [if_neg (by omega : ¬f.ofRatio j.natAbs 1 < f.infinity), if_neg (by simpa using hneg),
        if_neg (by simp; omega)]

/-! ### Half precision -/

theorem ofRatio_half_lt_infinity_iff : half.ofRatio n 1 < half.infinity ↔ n < 65520 := by
  have hmid : half.units (half.infinity - 1) + half.units half.infinity =
      2 * (65520 * 2 ^ half.unitExponent) := by
    decide
  have hunit : 0 < 2 ^ half.unitExponent := Nat.two_pow_pos _
  rw [ofRatio_lt_infinity_iff (by decide) (by decide), hmid, Nat.mul_lt_mul_left (by decide),
    Nat.mul_lt_mul_right hunit]

theorem ofRatio_half_eq_infinity (h : 65520 ≤ n) : half.ofRatio n 1 = half.infinity := by
  have hle : half.ofRatio n 1 ≤ half.infinity := Nat.min_le_right _ _
  have hge : ¬half.ofRatio n 1 < half.infinity := by
    rw [ofRatio_half_lt_infinity_iff]
    omega
  omega

/-- Rounding is a matter of the quotient only. -/
theorem ofRatio_mul {c : Nat} (hf : f.fractionBits ≠ 0) (hd : 0 < d) (hc : 0 < c) :
    f.ofRatio (n * c) (d * c) = f.ofRatio n d := by
  have hscaled := nearest_unbounded hf (n * 2 ^ f.unitExponent * c) (Nat.mul_pos hd hc)
  have hsame := ((nearest_mul_iff hc).1 hscaled).unique hd (nearest_unbounded hf _ hd)
  rw [ofRatio, ofRatio, Nat.mul_right_comm, round_eq_min, round_eq_min, hsame]

/-- **By way of double precision** every integer has the same word of half precision: where double
    precision is not exact, the integer is too large anyway. -/
theorem convert_ofRatio_double (n : Nat) :
    double.convert half (double.ofRatio n 1) = half.ofRatio n 1 := by
  have hf : half.fractionBits ≠ 0 := by decide
  have hdouble : double.fractionBits ≠ 0 := by decide
  have hrange : (double.unitExponent + 2) * double.hidden < double.infinity := by decide
  have hunit : 0 < 2 ^ double.unitExponent := Nat.two_pow_pos _
  have hexact (m : Nat) : half.ofRatio (m * 2 ^ double.unitExponent) (2 ^ double.unitExponent) =
      half.ofRatio m 1 := by
    have hmul := ofRatio_mul (n := m) hf Nat.one_pos hunit
    rwa [Nat.one_mul] at hmul
  by_cases hsmall : n ≤ 2 * double.hidden
  · obtain ⟨hfinite, hunits⟩ := units_ofRatio hdouble hrange hsmall
    rw [convert, if_pos hfinite, hunits, hexact]
  · have hhidden : 65520 ≤ 2 * double.hidden := by decide
    rw [ofRatio_half_eq_infinity (n := n) (by omega)]
    by_cases hfinite : double.ofRatio n 1 < double.infinity
    · -- The value in double precision is not below the last integer that is exact there.
      have hle : 2 * double.hidden * 2 ^ double.unitExponent ≤
          double.units (double.ofRatio n 1) := by
        rw [← (units_ofRatio hdouble hrange le_rfl).2]
        exact double.units_strictMono.monotone (ofRatio_mono hdouble (by omega))
      have hround : half.ofRatio (2 * double.hidden * 2 ^ double.unitExponent)
          (2 ^ double.unitExponent) ≤
            half.ofRatio (double.units (double.ofRatio n 1)) (2 ^ double.unitExponent) :=
        round_mono hf hunit (Nat.mul_le_mul_right _ hle)
      rw [hexact, ofRatio_half_eq_infinity hhidden] at hround
      rw [convert, if_pos hfinite]
      exact Nat.le_antisymm (Nat.min_le_right _ _) hround
    · have hinfinite : double.ofRatio n 1 = double.infinity :=
        Nat.le_antisymm (Nat.min_le_right _ _) (Nat.le_of_not_lt hfinite)
      rw [convert, if_neg hfinite, if_pos hinfinite]

end KernelDiff.BinaryFormat
