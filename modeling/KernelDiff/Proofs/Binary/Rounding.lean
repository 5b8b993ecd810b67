import KernelDiff.Binary.Format
import Mathlib.Order.Monotone.Basic
import Mathlib.Tactic.Ring

namespace KernelDiff

/-!
# Rounding gives the nearest magnitude

Magnitudes are ordered as their values, and every fraction lies between the two midpoints around
exactly one magnitude, where a midpoint belongs to the even one of its two. Rounding finds this
magnitude.

* `BinaryFormat.units_eq` — a magnitude as a significand and a scale;
* `BinaryFormat.units_strictMono` — a greater magnitude stands for a greater value;
* `BinaryFormat.Nearest` — what it means for a magnitude to be nearest, ties to even;
* `BinaryFormat.Nearest.mono`, `BinaryFormat.Nearest.unique` — such magnitudes are ordered as their
  fractions, and there is at most one for a fraction;
* `BinaryFormat.nearest_unbounded` — and the rounded one is such;
* `BinaryFormat.round_eq_iff` — so a fraction is rounded to a finite magnitude exactly when this
  is the nearest;
* `BinaryFormat.round_units` — the value of a magnitude is rounded to it.
-/

/-- The rounded quotient is at most one half away, and at one half it is even. -/
theorem divHalfEven_spec (n : Nat) {d : Nat} (hd : 0 < d) :
    2 * (divHalfEven n d * d) ≤ 2 * n + d ∧ 2 * n ≤ 2 * (divHalfEven n d * d) + d ∧
      (2 * (divHalfEven n d * d) = 2 * n + d ∨ 2 * n = 2 * (divHalfEven n d * d) + d →
        divHalfEven n d % 2 = 0) := by
  have hdiv : n / d * d + n % d = n := Nat.div_add_mod' n d
  have hmod : n % d < d := Nat.mod_lt n hd
  have hnext : (n / d + 1) * d = n / d * d + d := Nat.succ_mul _ _
  unfold divHalfEven
  simp only
  by_cases hbelow : 2 * (n % d) < d
  · rw [if_pos hbelow]
    omega
  · rw [if_neg hbelow]
    by_cases habove : d < 2 * (n % d)
    · rw [if_pos habove, hnext]
      omega
    · rw [if_neg habove]
      -- At one half the quotient goes to its even neighbour.
      rcases Nat.mod_two_eq_zero_or_one (n / d) with heven | hodd
      · rw [heven, Nat.add_zero]
        omega
      · rw [hodd, hnext]
        omega

namespace BinaryFormat

variable (f : BinaryFormat)

theorem hidden_pos : 0 < f.hidden :=
  Nat.two_pow_pos _

/-! ### Significands and scales -/

/-- The value of a magnitude of a scale. At the upper end, where the next scale begins, both give
    the same value. -/
theorem units_eq {scale q : Nat} (hq : q ≤ 2 * f.hidden) (hscale : scale = 0 ∨ f.hidden ≤ q) :
    f.units (scale * f.hidden + q) = q * 2 ^ scale := by
  have hpos := f.hidden_pos
  by_cases hsmall : q < f.hidden
  · -- Below the hidden bit a magnitude is its own value.
    obtain rfl : scale = 0 := by omega
    simp [units, hsmall]
  · by_cases htop : q = 2 * f.hidden
    · have hsum : scale * f.hidden + q = (scale + 2) * f.hidden := by rw [htop]; ring
      rw [hsum, units, if_neg (by rw [Nat.add_mul]; omega), Nat.mul_mod_left,
        Nat.mul_div_cancel _ hpos, htop]
      show (f.hidden + 0) * 2 ^ (scale + 1) = 2 * f.hidden * 2 ^ scale
      ring
    · have hsum : scale * f.hidden + q = (q - f.hidden) + (scale + 1) * f.hidden := by
        rw [Nat.succ_mul]
        omega
      have hrest : q - f.hidden < f.hidden := by omega
      rw [hsum, units, if_neg (by rw [Nat.succ_mul]; omega), Nat.add_mul_mod_self_right,
        Nat.mod_eq_of_lt hrest, Nat.add_mul_div_right _ _ hpos, Nat.div_eq_of_lt hrest]
      show (f.hidden + (q - f.hidden)) * 2 ^ (0 + (scale + 1) - 1) = q * 2 ^ scale
      congr 1
      · omega
      · congr 1
        omega

/-- Every magnitude has a scale and a significand. -/
theorem exists_scale (w : Nat) :
    ∃ scale q, w = scale * f.hidden + q ∧ q < 2 * f.hidden ∧ (scale = 0 ∨ f.hidden ≤ q) := by
  have hpos := f.hidden_pos
  have hdiv : w / f.hidden * f.hidden + w % f.hidden = w := Nat.div_add_mod' w f.hidden
  have hmod : w % f.hidden < f.hidden := Nat.mod_lt w hpos
  rcases Nat.eq_zero_or_pos (w / f.hidden) with hzero | hquotient
  · refine ⟨0, w, by omega, ?_, .inl rfl⟩
    rw [hzero] at hdiv
    omega
  · refine ⟨w / f.hidden - 1, f.hidden + w % f.hidden, ?_, by omega, .inr (by omega)⟩
    have hstep : w / f.hidden * f.hidden = (w / f.hidden - 1) * f.hidden + f.hidden := by
      rw [← Nat.succ_mul, Nat.succ_eq_add_one, Nat.sub_add_cancel hquotient]
    omega

/-- Inside a scale the next value is one step of the scale away. -/
theorem units_add_one {scale q : Nat} (hq : q < 2 * f.hidden) (hscale : scale = 0 ∨ f.hidden ≤ q) :
    f.units (scale * f.hidden + q + 1) = f.units (scale * f.hidden + q) + 2 ^ scale := by
  rw [Nat.add_assoc, f.units_eq (by omega) hscale, f.units_eq (by omega) (by omega), Nat.succ_mul]

theorem units_lt_succ (w : Nat) : f.units w < f.units (w + 1) := by
  obtain ⟨scale, q, rfl, hq, hscale⟩ := f.exists_scale w
  have hpos : 0 < 2 ^ scale := Nat.two_pow_pos scale
  rw [f.units_add_one hq hscale]
  omega

/-- **Magnitudes are ordered as their values.** -/
theorem units_strictMono : StrictMono f.units :=
  strictMono_nat_of_lt_succ f.units_lt_succ

theorem units_zero : f.units 0 = 0 := by
  simp [units, f.hidden_pos]

/-! ### The nearest magnitude -/

/-- The fraction `n / d` of units lies between the midpoints around a magnitude, and on one of
    them only if the magnitude is even. -/
structure Nearest (n d w : Nat) : Prop where
  low : (f.units (w - 1) + f.units w) * d ≤ 2 * n
  high : 2 * n ≤ (f.units w + f.units (w + 1)) * d
  even : (f.units (w - 1) + f.units w) * d = 2 * n ∨ 2 * n = (f.units w + f.units (w + 1)) * d →
    w % 2 = 0

variable {f} {n d v w : Nat}

/-- A greater fraction does not have a smaller magnitude nearest to it. -/
theorem Nearest.mono {m : Nat} (hd : 0 < d) (hv : f.Nearest n d v) (hw : f.Nearest m d w)
    (h : n ≤ m) : v ≤ w := by
  by_contra hlt
  have hnext : f.units (w + 1) ≤ f.units v := f.units_strictMono.monotone (by omega)
  have hlast : f.units w ≤ f.units (v - 1) := f.units_strictMono.monotone (by omega)
  have hmid : (f.units w + f.units (w + 1)) * d ≤ (f.units (v - 1) + f.units v) * d :=
    Nat.mul_le_mul_right d (by omega)
  -- The two midpoints between them are one, so the magnitudes are neighbours, and both are even.
  have hvlow := hv.low
  have hwhigh := hw.high
  have hveven := hv.even (.inl (by omega))
  have hweven := hw.even (.inr (by omega))
  have hsame : f.units w + f.units (w + 1) = f.units (v - 1) + f.units v :=
    Nat.eq_of_mul_eq_mul_right hd (by omega)
  have hneighbour : w + 1 = v := f.units_strictMono.injective (by omega)
  omega

/-- **At most one magnitude is nearest.** -/
theorem Nearest.unique (hd : 0 < d) (hv : f.Nearest n d v) (hw : f.Nearest n d w) : v = w :=
  Nat.le_antisymm (hv.mono hd hw (Nat.le_refl n)) (hw.mono hd hv (Nat.le_refl n))

/-- The value of a magnitude is nearest to the magnitude. -/
theorem nearest_units (hd : 0 < d) : f.Nearest (f.units w * d) d w := by
  have hnext : f.units w * d < f.units (w + 1) * d :=
    Nat.mul_lt_mul_of_pos_right (f.units_lt_succ w) hd
  rcases Nat.eq_zero_or_pos w with rfl | hw
  · refine ⟨?_, ?_, fun _ => rfl⟩
    · simp [f.units_zero]
    · rw [Nat.add_mul]
      omega
  · have hlast : f.units (w - 1) * d < f.units w * d :=
      Nat.mul_lt_mul_of_pos_right (f.units_strictMono (by omega)) hd
    constructor <;> rw [Nat.add_mul] <;> try rw [Nat.add_mul]
    all_goals omega

/-- Nearness is a matter of the quotient only. -/
theorem nearest_mul_iff {c : Nat} (hc : 0 < c) :
    f.Nearest (n * c) (d * c) w ↔ f.Nearest n d w := by
  have hscale (x : Nat) : x * (d * c) = x * d * c := (Nat.mul_assoc x d c).symm
  have htwo : 2 * (n * c) = 2 * n * c := (Nat.mul_assoc 2 n c).symm
  constructor
  · rintro ⟨hlow, hhigh, heven⟩
    rw [hscale, htwo] at hlow hhigh
    refine ⟨Nat.le_of_mul_le_mul_right hlow hc, Nat.le_of_mul_le_mul_right hhigh hc, fun h => ?_⟩
    refine heven (h.imp ?_ ?_) <;> intro hend <;> rw [hscale, htwo, hend]
  · rintro ⟨hlow, hhigh, heven⟩
    refine ⟨?_, ?_, fun h => heven (h.imp ?_ ?_)⟩
    · rw [hscale, htwo]
      exact Nat.mul_le_mul_right c hlow
    · rw [hscale, htwo]
      exact Nat.mul_le_mul_right c hhigh
    · intro hend
      rw [hscale, htwo] at hend
      exact Nat.eq_of_mul_eq_mul_right hc hend
    · intro hend
      rw [hscale, htwo] at hend
      exact Nat.eq_of_mul_eq_mul_right hc hend

/-! ### Rounding -/

/-- The scale at which a number of units is rounded. -/
def scaleOf (f : BinaryFormat) (x : Nat) : Nat :=
  Nat.log2 x - f.fractionBits

/-- Rounding as if there were no greatest magnitude. -/
def unbounded (f : BinaryFormat) (n d : Nat) : Nat :=
  f.scaleOf (n / d) * f.hidden + divHalfEven n (d * 2 ^ f.scaleOf (n / d))

theorem round_eq_min (n d : Nat) : f.round n d = min (f.unbounded n d) f.infinity :=
  rfl

theorem lt_scaleOf (x : Nat) : x < 2 * f.hidden * 2 ^ f.scaleOf x := by
  have hlog : x < 2 ^ (x.log2 + 1) := Nat.lt_log2_self
  have hexponent : x.log2 + 1 ≤ f.fractionBits + 1 + f.scaleOf x := by
    unfold scaleOf
    omega
  calc x < 2 ^ (x.log2 + 1) := hlog
    _ ≤ 2 ^ (f.fractionBits + 1 + f.scaleOf x) := Nat.pow_le_pow_right (by decide) hexponent
    _ = 2 * f.hidden * 2 ^ f.scaleOf x := by rw [hidden]; ring

theorem scaleOf_le (x : Nat) : f.scaleOf x = 0 ∨ f.hidden * 2 ^ f.scaleOf x ≤ x := by
  rcases Nat.eq_zero_or_pos (f.scaleOf x) with hzero | hpos
  · exact .inl hzero
  · right
    have hx : x ≠ 0 := by
      rintro rfl
      simp [scaleOf] at hpos
    have hexponent : f.fractionBits + f.scaleOf x = x.log2 := by
      unfold scaleOf at hpos ⊢
      omega
    rw [hidden, ← Nat.pow_add, hexponent]
    exact Nat.log2_self_le hx

/-- The scale does not change which magnitudes are even. -/
theorem mod_two_of_scale (hf : f.fractionBits ≠ 0) (scale q : Nat) :
    (scale * f.hidden + q) % 2 = q % 2 := by
  obtain ⟨m, hm⟩ := Nat.exists_eq_succ_of_ne_zero hf
  have heven : scale * f.hidden = 2 * (scale * 2 ^ m) := by
    rw [hidden, hm, Nat.pow_succ]
    ring
  omega

/-- A number of steps of a scale is nearest to a fraction that it is at most one half away from, if
    it is even at one half and the fraction is inside the scale. -/
theorem nearest_of_half {scale q step : Nat} (hf : f.fractionBits ≠ 0) (hd : 0 < d)
    (hstep : 2 ^ scale * d = step) (hq : q ≤ 2 * f.hidden) (hscale : scale = 0 ∨ f.hidden ≤ q)
    (hbottom : scale = 0 ∨ f.hidden * step ≤ n) (htop : n ≤ 2 * f.hidden * step)
    (hlow : 2 * (q * step) ≤ 2 * n + step) (hhigh : 2 * n ≤ 2 * (q * step) + step)
    (htie : 2 * (q * step) = 2 * n + step ∨ 2 * n = 2 * (q * step) + step → q % 2 = 0) :
    f.Nearest n d (scale * f.hidden + q) := by
  have hparity := mod_two_of_scale hf scale q
  have hunits : f.units (scale * f.hidden + q) * d = q * step := by
    rw [f.units_eq hq hscale, Nat.mul_assoc, hstep]
  -- Above, the next magnitude is one step away, unless the scale ends here.
  have habove : 2 * n ≤ q * step + f.units (scale * f.hidden + q + 1) * d ∧
      (2 * n = q * step + f.units (scale * f.hidden + q + 1) * d → q % 2 = 0) := by
    by_cases hend : q = 2 * f.hidden
    · have hnext := Nat.mul_lt_mul_of_pos_right (f.units_lt_succ (scale * f.hidden + q)) hd
      rw [hunits] at hnext
      rw [← hend] at htop
      omega
    · have hnext : f.units (scale * f.hidden + q + 1) * d = q * step + step := by
        rw [f.units_add_one (by omega) hscale, Nat.add_mul, hunits, hstep]
      omega
  -- Below, the last one is one step away, unless the scale begins here.
  have hbelow : f.units (scale * f.hidden + q - 1) * d + q * step ≤ 2 * n ∧
      (f.units (scale * f.hidden + q - 1) * d + q * step = 2 * n → q % 2 = 0) := by
    rcases Nat.eq_zero_or_eq_succ_pred q with rfl | hpred
    · obtain rfl : scale = 0 := by
        have := f.hidden_pos
        omega
      simp [f.units_zero]
    · have hlast : scale * f.hidden + q - 1 = scale * f.hidden + q.pred := by omega
      have hindex : scale * f.hidden + q = scale * f.hidden + q.pred + 1 := by omega
      rw [hlast]
      by_cases hbegin : scale = 0 ∨ f.hidden < q
      · have hvalue := f.units_add_one (show q.pred < 2 * f.hidden by omega)
          (show scale = 0 ∨ f.hidden ≤ q.pred by omega)
        rw [← hindex] at hvalue
        rw [hvalue, Nat.add_mul, hstep] at hunits
        omega
      · obtain rfl : q = f.hidden := by omega
        have hvalue := f.units_lt_succ (scale * f.hidden + f.hidden.pred)
        rw [← hindex] at hvalue
        have hless := Nat.mul_lt_mul_of_pos_right hvalue hd
        rw [hunits] at hless
        omega
  constructor
  · rw [Nat.add_mul, hunits]
    exact hbelow.1
  · rw [Nat.add_mul, hunits]
    exact habove.1
  · rw [Nat.add_mul, Nat.add_mul, hunits, hparity]
    exact fun h => h.elim hbelow.2 habove.2

/-- **The rounded magnitude is nearest.** -/
theorem nearest_unbounded (hf : f.fractionBits ≠ 0) (n : Nat) (hd : 0 < d) :
    f.Nearest n d (f.unbounded n d) := by
  have hlt := f.lt_scaleOf (n / d)
  have hle := f.scaleOf_le (n / d)
  unfold unbounded
  generalize f.scaleOf (n / d) = scale at hlt hle ⊢
  -- The fraction is measured in steps of the scale, and rounded to a number of these.
  have hpos : 0 < 2 ^ scale * d := Nat.mul_pos (Nat.two_pow_pos scale) hd
  have htop : n < 2 * f.hidden * (2 ^ scale * d) := by
    rw [← Nat.mul_assoc]
    exact (Nat.div_lt_iff_lt_mul hd).1 hlt
  have hbottom : scale = 0 ∨ f.hidden * (2 ^ scale * d) ≤ n := by
    rw [← Nat.mul_assoc]
    exact hle.imp_right fun h => (Nat.le_div_iff_mul_le hd).1 h
  obtain ⟨hlow, hhigh, htie⟩ := divHalfEven_spec n hpos
  rw [Nat.mul_comm d]
  generalize hstep : 2 ^ scale * d = step at *
  generalize divHalfEven n step = q at *
  refine nearest_of_half hf hd hstep ?_ ?_ hbottom htop.le hlow hhigh htie
  · have hmul : q * step < (2 * f.hidden + 1) * step := by
      rw [Nat.succ_mul]
      omega
    have := Nat.lt_of_mul_lt_mul_right hmul
    omega
  · refine hbottom.imp_right fun h => ?_
    have hmul : f.hidden * step < (q + 1) * step := by
      rw [Nat.succ_mul]
      omega
    have := Nat.lt_of_mul_lt_mul_right hmul
    omega

theorem round_eq_iff (hf : f.fractionBits ≠ 0) (hd : 0 < d) (hw : w < f.infinity) :
    f.round n d = w ↔ f.Nearest n d w := by
  have hnearest := nearest_unbounded hf n hd
  rw [round_eq_min]
  constructor
  · intro h
    have hu : f.unbounded n d = w := by omega
    exact hu ▸ hnearest
  · intro h
    rw [hnearest.unique hd h]
    omega

/-- The value of a finite magnitude is rounded to the magnitude. -/
theorem round_units (hf : f.fractionBits ≠ 0) (hd : 0 < d) (hw : w < f.infinity) :
    f.round (f.units w * d) d = w :=
  (round_eq_iff hf hd hw).2 (nearest_units hd)

/-- A greater fraction is not rounded to a smaller magnitude. -/
theorem round_mono {m : Nat} (hf : f.fractionBits ≠ 0) (hd : 0 < d) (h : n ≤ m) :
    f.round n d ≤ f.round m d := by
  have hle := (nearest_unbounded hf n hd).mono hd (nearest_unbounded hf m hd) h
  rw [round_eq_min, round_eq_min]
  omega

end BinaryFormat

end KernelDiff
