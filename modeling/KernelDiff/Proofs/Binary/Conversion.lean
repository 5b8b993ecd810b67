import KernelDiff.Proofs.Binary.Numeral

namespace KernelDiff.BinaryFormat

/-!
# Conversion to a wider format loses nothing

Where every finite value of a format is a value of another one, the conversion there is exact, and
the conversion back gives the magnitude again. So a number of a narrow format can be written and
read as one of a wide format.

* `exists_units_eq` — a significand of full precision is a value at every scale;
* `Embeds`, `half_embeds_single` — all values of one format are values of the other;
* `convert_convert` — there and back again;
* `parse?_text_convert` — a word written in the wide format is read back.
-/

variable {f g : BinaryFormat} {w : Nat}

/-- Every integer of the precision of a format is the significand of a magnitude at every scale. -/
theorem exists_units_eq {m : Nat} (hm : m ≤ 2 * f.hidden) (scale : Nat) :
    ∃ w, f.units w = m * 2 ^ scale ∧ w ≤ (scale + 2) * f.hidden := by
  induction scale generalizing m with
  | zero =>
    refine ⟨m, ?_, by omega⟩
    have h := f.units_eq hm (.inl rfl)
    rwa [Nat.zero_mul, Nat.zero_add] at h
  | succ scale ih =>
    by_cases hfull : f.hidden ≤ m
    · refine ⟨(scale + 1) * f.hidden + m, f.units_eq hm (.inr hfull), ?_⟩
      rw [Nat.add_mul (scale + 1) 2]
      omega
    · -- One bit of precision is left, so the scale can be lowered by one.
      obtain ⟨w, hunits, hle⟩ := ih (m := 2 * m) (by omega)
      refine ⟨w, by rw [hunits]; ring, hle.trans ?_⟩
      exact Nat.mul_le_mul_right _ (by omega)

/-- Every finite value of `f` is a finite value of `g`. -/
def Embeds (f g : BinaryFormat) : Prop :=
  ∀ w < f.infinity, ∃ v < g.infinity,
    g.units v * 2 ^ f.unitExponent = f.units w * 2 ^ g.unitExponent

theorem embeds_refl (f : BinaryFormat) : f.Embeds f :=
  fun w hw => ⟨w, hw, rfl⟩

theorem half_embeds_single : half.Embeds single := by
  intro w hw
  have hhidden : half.hidden = 1024 := by decide
  have hinfinity : half.infinity = 31 * 1024 := by decide
  have hwide : single.hidden = 8388608 := by decide
  have hwideInfinity : single.infinity = 255 * 8388608 := by decide
  obtain ⟨scale, q, rfl, hq, hscale⟩ := half.exists_scale w
  rw [hhidden] at hw hq hscale
  rw [hinfinity] at hw
  -- One unit of the narrow format is 125 scales above one of the wide format.
  obtain ⟨v, hv, hle⟩ := exists_units_eq (f := single) (m := q) (by omega) (scale + 125)
  rw [hwide] at hle
  refine ⟨v, by omega, ?_⟩
  rw [hv, half.units_eq (by omega) (by omega)]
  show q * 2 ^ (scale + 125) * 2 ^ 24 = q * 2 ^ scale * 2 ^ 149
  ring

/-- **There and back again**: in the wider format the value is the same, so it is rounded to the
    magnitude that it came from. -/
theorem convert_convert (hf : f.fractionBits ≠ 0) (hg : g.fractionBits ≠ 0) (h : f.Embeds g)
    (hw : w ≤ f.infinity) :
    f.convert g w ≤ g.infinity ∧ g.convert f (f.convert g w) = w := by
  rcases Nat.lt_or_eq_of_le hw with hfinite | rfl
  · obtain ⟨v, hv, hvalue⟩ := h w hfinite
    have hthere : f.convert g w = v := by
      rw [convert, if_pos hfinite, ofRatio, ← hvalue]
      exact round_units hg (Nat.two_pow_pos _) hv
    refine ⟨by omega, ?_⟩
    rw [hthere, convert, if_pos hv, ofRatio, hvalue]
    exact round_units hf (Nat.two_pow_pos _) hfinite
  · simp [convert]

theorem convert_of_infinity_lt (hw : f.infinity < w) : f.convert g w = g.quietNaN := by
  rw [convert, if_neg (by omega), if_neg (by omega)]

theorem infinity_lt_quietNaN (hf : f.fractionBits ≠ 0) : f.infinity < f.quietNaN := by
  have hhalf : 2 ∣ f.hidden := Nat.dvd_of_mod_eq_zero (by simpa using mod_two_of_scale hf 1 0)
  have hpos := f.hidden_pos
  unfold quietNaN
  omega

theorem quietNaN_lt_signBit (f : BinaryFormat) : f.quietNaN < f.signBit := by
  have hexponents : 0 < 2 ^ f.exponentBits := Nat.two_pow_pos _
  have hsum : f.infinity + f.hidden = f.signBit := by
    rw [infinity, signBit, hidden, Nat.add_comm f.fractionBits, Nat.pow_add, ← Nat.succ_mul]
    congr 1
    omega
  have hpos := f.hidden_pos
  unfold quietNaN
  omega

/-- **Written wide, read back narrow.** A word is written as the equal word of a wider format; what
    is read from this text is the word again, if it is a number. -/
theorem parse?_text_convert (hf : f.fractionBits ≠ 0) (hg : g.fractionBits ≠ 0)
    (hinf : 0 < g.infinity) (h : f.Embeds g) {bits : Nat} (hbits : f.IsWord bits) :
    ((g.parse? (g.text (g.signed (f.isNegative bits) (f.convert g (f.magnitude bits))))).map
      fun word => f.signed (g.isNegative word) (g.convert f (g.magnitude word))) =
      some (if f.infinity < f.magnitude bits then f.quietNaN else bits) := by
  have hwide := g.infinity_lt_signBit
  have hnan := g.quietNaN_lt_signBit
  by_cases hnumber : f.magnitude bits ≤ f.infinity
  · obtain ⟨hle, hback⟩ := convert_convert hf hg h hnumber
    have hlt : f.convert g (f.magnitude bits) < g.signBit := by omega
    have hword : g.IsWord (g.signed (f.isNegative bits) (f.convert g (f.magnitude bits))) := by
      unfold IsWord signed
      split <;> omega
    rw [parse?_text hg hinf hword, magnitude_signed hlt, if_neg (by omega), if_neg (by omega),
      Option.map_some, magnitude_signed hlt, isNegative_signed hlt, hback, signed_magnitude hbits]
  · have hlt : f.infinity < f.magnitude bits := by omega
    have hword : g.IsWord (g.signed (f.isNegative bits) g.quietNaN) := by
      unfold IsWord signed
      split <;> omega
    have hwideNaN := infinity_lt_quietNaN hg
    -- The text of what is not a number has no sign, so none is read.
    have hpositive : g.signed false g.quietNaN = g.quietNaN := rfl
    have hsign : g.isNegative (g.signed false g.quietNaN) = false := isNegative_signed hnan
    have hmagnitude : g.magnitude (g.signed false g.quietNaN) = g.quietNaN := magnitude_signed hnan
    rw [hpositive] at hsign hmagnitude
    rw [convert_of_infinity_lt hlt, parse?_text hg hinf hword, magnitude_signed hnan,
      if_pos hwideNaN, if_pos hlt, Option.map_some, hsign, hmagnitude,
      convert_of_infinity_lt hwideNaN]
    rfl

end KernelDiff.BinaryFormat
