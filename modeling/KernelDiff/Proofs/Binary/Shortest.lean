import KernelDiff.Binary.Numeral
import KernelDiff.Proofs.Binary.Rounding

namespace KernelDiff

/-!
# The shortest decimal reads back, and no coarser one does

The search goes from coarse grids to fine ones and takes a point of the first grid that has one
which rounds to the magnitude. On every grid only the two points next to the value have to be
tried: if any point lies between the two midpoints, one of these does.

* `BinaryFormat.ReadsAs` — a decimal that rounds to a magnitude;
* `BinaryFormat.readsAs_shortest` — the shortest decimal does;
* `BinaryFormat.exists_onGrid` — no grid with such a decimal is passed over;
* `BinaryFormat.exponent_le_shortest` — so no decimal on a coarser grid reads back;
* `BinaryFormat.length_shortest_le` — and none that has fewer digits.
-/

namespace Interval

variable {i : Interval} {low high p r : Nat}

/-- What lies between a hit and the value is a hit, from below. -/
theorem hits_of_le (h : i.hits low high p) (hle : p ≤ r) (hhigh : r < high) :
    i.hits low high r := by
  unfold hits at h ⊢
  cases hclosed : i.closed <;> simp [hclosed] at h ⊢ <;> omega

/-- What lies between a hit and the value is a hit, from above. -/
theorem hits_of_ge (h : i.hits low high p) (hge : r ≤ p) (hlow : low < r) :
    i.hits low high r := by
  unfold hits at h ⊢
  cases hclosed : i.closed <;> simp [hclosed] at h ⊢ <;> omega

end Interval

namespace BinaryFormat

variable {f : BinaryFormat} {w : Nat}

/-- The decimal is rounded to the magnitude, where this is finite. -/
def ReadsAs (f : BinaryFormat) (d : Decimal) (w : Nat) : Prop :=
  f.Nearest (d.ratio.1 * 2 ^ f.unitExponent) d.ratio.2 w

theorem ratio_pos (d : Decimal) : 0 < d.ratio.2 :=
  Nat.pow_pos (by decide)

theorem ofNumeral_eq_iff (hf : f.fractionBits ≠ 0) (hw : w < f.infinity) (d : Decimal) :
    f.ofNumeral (.finite d) = w ↔ f.ReadsAs d w :=
  round_eq_iff hf (ratio_pos d) hw

/-- A point of a grid is a hit exactly when it reads back. -/
theorem hits_iff {digits : Nat} {e : Int} :
    (f.interval w).hits ((f.interval w).low * 10 ^ (-e).toNat)
      ((f.interval w).high * 10 ^ (-e).toNat)
      (digits * ((f.interval w).scale * 10 ^ e.toNat)) ↔ f.ReadsAs ⟨digits, e⟩ w := by
  have hpoint : digits * (2 ^ (f.unitExponent + 1) * 10 ^ e.toNat) =
      2 * (digits * 10 ^ e.toNat * 2 ^ f.unitExponent) := by ring
  -- Both sides compare the point with two midpoints; only one of them speaks of evenness apart.
  have hcases (low high point : Nat) : (f.interval w).hits low high point ↔
      low ≤ point ∧ point ≤ high ∧ (low = point ∨ point = high → w % 2 = 0) := by
    by_cases heven : w % 2 = 0
    · simp [Interval.hits, interval, heven]
    · simp only [Interval.hits, interval, heven, decide_false, Bool.false_eq_true, if_false,
        Bool.and_eq_true, decide_eq_true_eq, imp_false]
      omega
  rw [hcases]
  simp only [interval, hpoint]
  constructor
  · rintro ⟨hlow, hhigh, heven⟩
    exact ⟨hlow, hhigh, heven⟩
  · rintro ⟨hlow, hhigh, heven⟩
    exact ⟨hlow, hhigh, heven⟩

/-- What is found on a grid is a point of it that reads back. -/
theorem readsAs_of_onGrid {e : Int} {d : Decimal} (h : (f.interval w).onGrid? e = some d) :
    d.exponent = e ∧ f.ReadsAs d w := by
  unfold Interval.onGrid? at h
  simp only at h
  generalize hbelow : (f.interval w).mid * 10 ^ (-e).toNat /
    ((f.interval w).scale * 10 ^ e.toNat) = below at h
  split at h
  case h_1 hfirst hsecond =>
    cases h
    refine ⟨rfl, ?_⟩
    split
    · exact hits_iff.1 hfirst
    · exact hits_iff.1 hsecond
  case h_2 hfirst hsecond =>
    cases h
    exact ⟨rfl, hits_iff.1 hfirst⟩
  case h_3 hfirst hsecond =>
    cases h
    exact ⟨rfl, hits_iff.1 hsecond⟩
  case h_4 => cases h

/-- **The shortest decimal reads back.** -/
theorem readsAs_shortest (f : BinaryFormat) (w : Nat) : f.ReadsAs (f.shortest w) w := by
  unfold shortest
  cases hfound : (f.gridExponents w).findSome? (f.interval w).onGrid? with
  | some d =>
    obtain ⟨e, -, hgrid⟩ := List.exists_of_findSome?_eq_some hfound
    exact (readsAs_of_onGrid hgrid).2
  | none =>
    -- The value itself, on the grid of all values of the format.
    have hexact := nearest_units (f := f) (w := w) (d := 10 ^ f.unitExponent)
      (Nat.pow_pos (by decide))
    have hten : (10 : Nat) ^ f.unitExponent = 5 ^ f.unitExponent * 2 ^ f.unitExponent := by
      rw [← Nat.mul_pow]
    rw [hten, ← Nat.mul_assoc, ← hten] at hexact
    show f.Nearest (f.units w * 5 ^ f.unitExponent * 10 ^ (-(f.unitExponent : Int)).toNat *
      2 ^ f.unitExponent) (10 ^ (-(-(f.unitExponent : Int))).toNat) w
    simpa using hexact

/-! ### No coarser grid -/

/-- Of the two points next to the value one reads back where any point of the grid does. -/
theorem exists_onGrid (hw : 0 < w) {d : Decimal} (h : f.ReadsAs d w) :
    ∃ d', (f.interval w).onGrid? d.exponent = some d' := by
  obtain ⟨digits, e⟩ := d
  have hpoint := hits_iff.2 h
  have hlast : f.units (w - 1) < f.units w := f.units_strictMono (by omega)
  have hnext : f.units w < f.units (w + 1) := f.units_lt_succ w
  have hup : 0 < 10 ^ (-e).toNat := Nat.pow_pos (by decide)
  have hstep : 0 < (f.interval w).scale * 10 ^ e.toNat :=
    Nat.mul_pos (Nat.two_pow_pos _) (Nat.pow_pos (by decide))
  have hlow : (f.interval w).low * 10 ^ (-e).toNat < (f.interval w).mid * 10 ^ (-e).toNat :=
    Nat.mul_lt_mul_of_pos_right (by simp only [interval]; omega) hup
  have hhigh : (f.interval w).mid * 10 ^ (-e).toNat < (f.interval w).high * 10 ^ (-e).toNat :=
    Nat.mul_lt_mul_of_pos_right (by simp only [interval]; omega) hup
  unfold Interval.onGrid?
  simp only
  generalize (f.interval w).low * 10 ^ (-e).toNat = low at *
  generalize (f.interval w).high * 10 ^ (-e).toNat = high at *
  generalize (f.interval w).mid * 10 ^ (-e).toNat = mid at *
  generalize (f.interval w).scale * 10 ^ e.toNat = step at *
  -- The value lies between the two points that are tried.
  have hfirst : mid / step * step ≤ mid := Nat.div_mul_le_self mid step
  have hsecond : mid < (mid / step + 1) * step :=
    (Nat.div_lt_iff_lt_mul hstep).1 (Nat.lt_succ_self _)
  generalize mid / step = below at *
  rcases Nat.lt_or_ge below digits with habove | hbelow
  · have hle : (below + 1) * step ≤ digits * step := Nat.mul_le_mul_right step habove
    have hhit := Interval.hits_of_ge hpoint hle (by omega)
    rw [hhit]
    split <;> simp_all
  · have hge : digits * step ≤ below * step := Nat.mul_le_mul_right step hbelow
    have hhit := Interval.hits_of_le hpoint hge (by omega)
    rw [hhit]
    split <;> simp_all

theorem units_succ_le (hw : 0 < w) : f.units (w + 1) ≤ 2 * f.units w := by
  obtain ⟨scale, q, rfl, hq, hscale⟩ := f.exists_scale w
  have hpos := f.hidden_pos
  have hqpos : 0 < q := by
    rcases hscale with rfl | hle <;> omega
  rw [Nat.add_assoc, f.units_eq (by omega) hscale, f.units_eq (by omega) (by omega),
    ← Nat.mul_assoc]
  exact Nat.mul_le_mul_right _ (by omega)

/-- A decimal with more zeros at its end than the value has digits does not read back. -/
theorem exponent_le_length (hw : 0 < w) {d : Decimal} (h : f.ReadsAs d w) :
    d.exponent ≤ (Nat.toDigits 10 (f.units w / 2 ^ f.unitExponent)).length := by
  by_contra hlt
  generalize htop : (Nat.toDigits 10 (f.units w / 2 ^ f.unitExponent)).length = top at hlt
  obtain ⟨digits, e⟩ := d
  simp only at hlt
  have htoppos : 0 < top := htop ▸ Nat.length_toDigits_pos
  have hunits : f.units w < 10 ^ top * 2 ^ f.unitExponent := by
    rw [← Nat.div_lt_iff_lt_mul (Nat.two_pow_pos _)]
    exact (Nat.length_toDigits_le_iff (by decide) htoppos).1 htop.le
  have hpositive : 0 < f.units w := by
    have := f.units_strictMono hw
    omega
  have hdouble := units_succ_le (f := f) hw
  obtain ⟨hlow, hhigh, -⟩ := h
  have hnegative : (-e).toNat = 0 := by omega
  simp only [Decimal.ratio, hnegative, Nat.pow_zero, Nat.mul_one] at hlow hhigh
  -- The decimal is not zero, so it is at least ten times what the digits of the value allow.
  have hpower : 10 ^ (top + 1) * 2 ^ f.unitExponent ≤ 10 ^ e.toNat * 2 ^ f.unitExponent :=
    Nat.mul_le_mul_right _ (Nat.pow_le_pow_right (by decide) (by omega))
  have hten : 10 ^ (top + 1) * 2 ^ f.unitExponent = 10 * (10 ^ top * 2 ^ f.unitExponent) := by ring
  rcases Nat.eq_zero_or_pos digits with rfl | hdigits
  · simp only [Nat.zero_mul, Nat.mul_zero] at hlow
    omega
  · have hone : 10 ^ e.toNat * 2 ^ f.unitExponent ≤ digits * 10 ^ e.toNat * 2 ^ f.unitExponent := by
      rw [Nat.mul_assoc]
      exact Nat.le_mul_of_pos_left _ hdigits
    omega

theorem mem_gridExponents {e : Int} :
    e ∈ f.gridExponents w ↔ -(f.unitExponent : Int) ≤ e ∧
      e ≤ (Nat.toDigits 10 (f.units w / 2 ^ f.unitExponent)).length := by
  unfold gridExponents
  simp only [List.mem_map, List.mem_range]
  generalize (Nat.toDigits 10 (f.units w / 2 ^ f.unitExponent)).length = top
  constructor
  · rintro ⟨i, hi, rfl⟩
    omega
  · rintro ⟨hlow, hhigh⟩
    exact ⟨(top - e).toNat, by omega, by omega⟩

/-- The search goes from coarse to fine. -/
theorem pairwise_gridExponents (f : BinaryFormat) (w : Nat) :
    (f.gridExponents w).Pairwise (fun e e' => e' < e) := by
  unfold gridExponents
  simp only
  refine List.Pairwise.map _ (fun i j hij => ?_) List.pairwise_lt_range
  omega

/-- **No decimal on a coarser grid reads back.** -/
theorem exponent_le_shortest (hw : 0 < w) {d : Decimal} (h : f.ReadsAs d w) :
    d.exponent ≤ (f.shortest w).exponent := by
  obtain ⟨d', hgrid⟩ := exists_onGrid hw h
  unfold shortest
  cases hfound : (f.gridExponents w).findSome? (f.interval w).onGrid? with
  | none =>
    -- Only a grid finer than all that were tried is left.
    have hnot : d.exponent ∉ f.gridExponents w := by
      intro hmem
      have := List.findSome?_eq_none_iff.1 hfound _ hmem
      simp [hgrid] at this
    have hbound := exponent_le_length hw h
    show d.exponent ≤ -(f.unitExponent : Int)
    rw [mem_gridExponents] at hnot
    omega
  | some best =>
    obtain ⟨coarser, e, finer, hsplit, hbest, hcoarser⟩ := List.findSome?_eq_some_iff.1 hfound
    have hexponent : best.exponent = e := (readsAs_of_onGrid hbest).1
    show d.exponent ≤ best.exponent
    rw [hexponent]
    by_contra hlt
    have hmem : d.exponent ∈ f.gridExponents w := by
      have he : e ∈ f.gridExponents w := by simp [hsplit]
      have := (mem_gridExponents.1 he).1
      exact mem_gridExponents.2 ⟨by omega, exponent_le_length hw h⟩
    -- What is coarser than the grid of the find was tried before it, in vain.
    have hpairwise := f.pairwise_gridExponents w
    rw [hsplit] at hmem hpairwise
    rcases List.mem_append.1 hmem with hbefore | hafter
    · have := hcoarser _ hbefore
      simp [hgrid] at this
    · rcases List.mem_cons.1 hafter with heq | hafter
      · omega
      · have := (List.pairwise_cons.1 (List.pairwise_append.1 hpairwise).2.1).1 _ hafter
        omega

/-! ### No fewer digits -/

/-- What reads back is an interval of every grid. -/
theorem readsAs_of_between {e : Int} {low digits high : Nat} (hlow : f.ReadsAs ⟨low, e⟩ w)
    (hhigh : f.ReadsAs ⟨high, e⟩ w) (hle : low ≤ digits) (hge : digits ≤ high) :
    f.ReadsAs ⟨digits, e⟩ w := by
  have hfirst : low * 10 ^ e.toNat * 2 ^ f.unitExponent ≤
      digits * 10 ^ e.toNat * 2 ^ f.unitExponent :=
    Nat.mul_le_mul_right _ (Nat.mul_le_mul_right _ hle)
  have hsecond : digits * 10 ^ e.toNat * 2 ^ f.unitExponent ≤
      high * 10 ^ e.toNat * 2 ^ f.unitExponent :=
    Nat.mul_le_mul_right _ (Nat.mul_le_mul_right _ hge)
  have hbelow := hlow.low
  have habove := hhigh.high
  simp only [Decimal.ratio] at hbelow habove
  refine ⟨?_, ?_, fun h => ?_⟩
  · simp only [Decimal.ratio]
    omega
  · simp only [Decimal.ratio]
    omega
  · -- A point on a midpoint shares it with the end of the interval there.
    simp only [Decimal.ratio] at h
    rcases h with hend | hend
    · refine hlow.even (.inl ?_)
      simp only [Decimal.ratio]
      omega
    · refine hhigh.even (.inr ?_)
      simp only [Decimal.ratio]
      omega

/-- Zeros at the end of the digits are places of the exponent. -/
theorem readsAs_mul_pow_iff {digits zeros : Nat} {e : Int} :
    f.ReadsAs ⟨digits * 10 ^ zeros, e⟩ w ↔ f.ReadsAs ⟨digits, e + zeros⟩ w := by
  have hsame : zeros + e.toNat + (-(e + zeros)).toNat = (e + zeros).toNat + (-e).toNat := by omega
  have hpower : 10 ^ zeros * 10 ^ e.toNat * 10 ^ (-(e + zeros)).toNat =
      10 ^ (e + zeros).toNat * 10 ^ (-e).toNat := by
    rw [← Nat.pow_add, ← Nat.pow_add, ← Nat.pow_add, hsame]
  have hcross : digits * 10 ^ zeros * 10 ^ e.toNat * 2 ^ f.unitExponent *
      10 ^ (-(e + zeros)).toNat =
      digits * 10 ^ (e + zeros).toNat * 2 ^ f.unitExponent * 10 ^ (-e).toNat := by
    calc _ = digits * 2 ^ f.unitExponent *
          (10 ^ zeros * 10 ^ e.toNat * 10 ^ (-(e + zeros)).toNat) := by ring
      _ = digits * 2 ^ f.unitExponent * (10 ^ (e + zeros).toNat * 10 ^ (-e).toNat) := by
        rw [hpower]
      _ = _ := by ring
  have hfirst : 0 < 10 ^ (-e).toNat := Nat.pow_pos (by decide)
  have hsecond : 0 < 10 ^ (-(e + zeros)).toNat := Nat.pow_pos (by decide)
  unfold ReadsAs Decimal.ratio
  rw [← nearest_mul_iff hsecond, hcross, Nat.mul_comm (10 ^ (-e).toNat), nearest_mul_iff hfirst]

/-- **No decimal with fewer digits reads back.** Between such a decimal and the one that is written
    there would be a power of ten on a coarser grid. -/
theorem length_shortest_le (hw : 0 < w) {d : Decimal} (h : f.ReadsAs d w) :
    (Nat.toDigits 10 (f.shortest w).digits).length ≤ (Nat.toDigits 10 d.digits).length := by
  have hexponent := exponent_le_shortest hw h
  have hreads := f.readsAs_shortest w
  have hcoarsest := fun d' => exponent_le_shortest (f := f) (w := w) (d := d') hw
  generalize f.shortest w = best at *
  obtain ⟨digits, e⟩ := best
  obtain ⟨fewer, e'⟩ := d
  simp only at hexponent hcoarsest ⊢
  by_contra hlt
  generalize hcount : (Nat.toDigits 10 fewer).length = count at hlt
  have hcountpos : 0 < count := hcount ▸ Nat.length_toDigits_pos
  have hfewer : fewer < 10 ^ count :=
    (Nat.length_toDigits_le_iff (by decide) hcountpos).1 hcount.le
  have hdigits : 10 ^ count ≤ digits := by
    by_contra hsmall
    exact hlt ((Nat.length_toDigits_le_iff (by decide) hcountpos).2 (by omega))
  -- All three on the finer of the two grids.
  obtain ⟨zeros, hzeros⟩ : ∃ zeros : Nat, e' + zeros = e := ⟨(e - e').toNat, by omega⟩
  have hlast : f.ReadsAs ⟨digits * 10 ^ zeros, e'⟩ w := by
    rw [readsAs_mul_pow_iff, hzeros]
    exact hreads
  have hpower : f.ReadsAs ⟨1 * 10 ^ (count + zeros), e'⟩ w := by
    have hone : 1 ≤ 10 ^ zeros := Nat.pow_pos (by decide)
    refine readsAs_of_between h hlast ?_ ?_
    · rw [Nat.one_mul, Nat.pow_add]
      exact hfewer.le.trans (Nat.le_mul_of_pos_right _ hone)
    · rw [Nat.one_mul, Nat.pow_add]
      exact Nat.mul_le_mul_right _ hdigits
  have hcoarse := hcoarsest _ (readsAs_mul_pow_iff.1 hpower)
  simp only at hcoarse
  omega

end BinaryFormat

end KernelDiff
