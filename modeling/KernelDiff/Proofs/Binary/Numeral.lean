import KernelDiff.Proofs.Binary.Shortest
import KernelDiff.Proofs.Text.Integer
import Mathlib.Data.List.TakeWhile

namespace KernelDiff

/-!
# Numerals are read back

A decimal in positional notation is read as the number that it is, and the text of a word of a
format as this word. Only what is not a number loses its sign and its payload.

* `Decimal.ratio_of_positional` — digits, point and digits are read as the decimal;
* `BinaryFormat.parse?_text` — the text of a word is read as the word;
* `BinaryFormat.Written`, `BinaryFormat.written_text` — what the text of a word is.
-/

namespace Numeral

variable {whole fraction : List Char}

/-- An exponent that counts places behind the point is never cut. -/
theorem clampExponent_neg {count places : Nat} (h : places ≤ count) :
    clampExponent count (-places) = -places := by
  unfold clampExponent reach
  omega

/-- Digits without a point are read as an integer. -/
theorem decimal?_of_isDigit (hne : whole ≠ []) (hdigits : ∀ c ∈ whole, c.isDigit) :
    decimal? whole = some ⟨Nat.ofDigitChars 10 whole 0, 0⟩ := by
  have htake : whole.takeWhile Char.isDigit = whole := List.takeWhile_eq_self_iff.2 hdigits
  have hdrop : whole.dropWhile Char.isDigit = [] := List.dropWhile_eq_nil_iff.2 hdigits
  have hclamp := clampExponent_neg (Nat.zero_le whole.length)
  unfold decimal?
  simp only [htake, hdrop]
  simpa [exponent?, hne] using hclamp

/-- Digits on both sides of a point are read as a decimal with as many places as digits behind
    the point. -/
theorem decimal?_of_point (hne : whole ≠ []) (hwhole : ∀ c ∈ whole, c.isDigit)
    (hfraction : ∀ c ∈ fraction, c.isDigit) :
    decimal? (whole ++ '.' :: fraction) =
      some ⟨Nat.ofDigitChars 10 (whole ++ fraction) 0, -fraction.length⟩ := by
  have htake : (whole ++ '.' :: fraction).takeWhile Char.isDigit = whole := by
    rw [List.takeWhile_append_of_pos hwhole, List.takeWhile_cons_of_neg (by decide),
      List.append_nil]
  have hdrop : (whole ++ '.' :: fraction).dropWhile Char.isDigit = '.' :: fraction := by
    rw [List.dropWhile_append_of_pos hwhole, List.dropWhile_cons_of_neg (by decide)]
  have htake' : fraction.takeWhile Char.isDigit = fraction :=
    List.takeWhile_eq_self_iff.2 hfraction
  have hdrop' : fraction.dropWhile Char.isDigit = [] := List.dropWhile_eq_nil_iff.2 hfraction
  have hclamp : clampExponent (whole ++ fraction).length (-fraction.length) = -fraction.length :=
    clampExponent_neg (by simp)
  unfold decimal?
  simp only [htake, hdrop, htake', hdrop']
  simpa [exponent?, hne] using hclamp

end Numeral

namespace Decimal

/-- The digits behind the point, with zeros in front of them to fill the places. -/
def fraction (d : Decimal) (places : Nat) : List Char :=
  List.replicate (places - (Text.ofNat (d.digits % 10 ^ places)).length) '0' ++
    Text.ofNat (d.digits % 10 ^ places)

theorem isDigit_of_mem_fraction {d : Decimal} {places : Nat} {c : Char}
    (h : c ∈ d.fraction places) : c.isDigit := by
  rcases List.mem_append.1 h with hzero | hdigit
  · rw [(List.mem_replicate.1 hzero).2]
    decide
  · exact Text.isDigit_of_mem_ofNat hdigit

theorem length_fraction {d : Decimal} {places : Nat} (h : 0 < places) :
    (d.fraction places).length = places := by
  have hlength : (Text.ofNat (d.digits % 10 ^ places)).length ≤ places :=
    (Nat.length_toDigits_le_iff (by decide) h).2 (Nat.mod_lt _ (Nat.pow_pos (by decide)))
  rw [fraction, List.length_append, List.length_replicate]
  omega

/-- The digits in front of the point and those behind it are the digits of the decimal. -/
theorem ofDigitChars_fraction {d : Decimal} {places : Nat} (h : 0 < places) :
    Nat.ofDigitChars 10 (Text.ofNat (d.digits / 10 ^ places) ++ d.fraction places) 0 =
      d.digits := by
  have hfraction : Nat.ofDigitChars 10 (d.fraction places) 0 = d.digits % 10 ^ places := by
    rw [fraction, Nat.ofDigitChars_append, Nat.ofDigitChars_replicate_zero, Nat.mul_zero,
      Text.ofDigitChars_ofNat]
  rw [Nat.ofDigitChars_append, Text.ofDigitChars_ofNat, Nat.ofDigitChars_eq_ofDigitChars_zero,
    hfraction, length_fraction h, Nat.div_add_mod]

theorem positional_of_nonneg {d : Decimal} (h : 0 ≤ d.exponent) :
    d.positional = Text.ofNat (d.digits * 10 ^ d.exponent.toNat) := by
  have hplaces : (-d.exponent).toNat = 0 := by omega
  simp [positional, hplaces]

theorem positional_of_neg {d : Decimal} (h : d.exponent < 0) :
    d.positional = Text.ofNat (d.digits / 10 ^ (-d.exponent).toNat) ++
      '.' :: d.fraction (-d.exponent).toNat := by
  have hplaces : (-d.exponent).toNat ≠ 0 := by omega
  have hnone : d.exponent.toNat = 0 := by omega
  simp [positional, hplaces, hnone, fraction]

/-- The first character is a digit. -/
theorem exists_positional_eq_cons (d : Decimal) :
    ∃ c s, d.positional = c :: s ∧ c.isDigit := by
  have hcons (n : Nat) (tail : List Char) :
      ∃ c s, Text.ofNat n ++ tail = c :: s ∧ c.isDigit := by
    obtain ⟨c, s, hs⟩ := List.exists_cons_of_ne_nil (Text.ofNat_ne_nil n)
    exact ⟨c, s ++ tail, by rw [hs, List.cons_append], Text.isDigit_of_mem_ofNat (by rw [hs]; simp)⟩
  rcases Int.lt_or_le d.exponent 0 with hneg | hnonneg
  · rw [positional_of_neg hneg]
    exact hcons _ _
  · rw [positional_of_nonneg hnonneg]
    simpa using hcons (d.digits * 10 ^ d.exponent.toNat) []

theorem of_mem_positional {d : Decimal} {c : Char} (h : c ∈ d.positional) :
    c.isDigit ∨ c = '.' := by
  rcases Int.lt_or_le d.exponent 0 with hneg | hnonneg
  · rw [positional_of_neg hneg] at h
    rcases List.mem_append.1 h with hwhole | htail
    · exact .inl (Text.isDigit_of_mem_ofNat hwhole)
    · rcases List.mem_cons.1 htail with rfl | hfraction
      · exact .inr rfl
      · exact .inl (isDigit_of_mem_fraction hfraction)
  · rw [positional_of_nonneg hnonneg] at h
    exact .inl (Text.isDigit_of_mem_ofNat h)

/-- **Positional notation is read back** as the number that it shows. -/
theorem ratio_of_positional (d : Decimal) :
    ∃ d', Numeral.decimal? d.positional = some d' ∧ d'.ratio = d.ratio := by
  rcases Int.lt_or_le d.exponent 0 with hneg | hnonneg
  · have hplaces : 0 < (-d.exponent).toNat := by omega
    have hexponent : -((-d.exponent).toNat : Int) = d.exponent := by omega
    refine ⟨d, ?_, rfl⟩
    rw [positional_of_neg hneg, Numeral.decimal?_of_point (Text.ofNat_ne_nil _)
      (fun c hc => Text.isDigit_of_mem_ofNat hc) (fun c hc => isDigit_of_mem_fraction hc),
      ofDigitChars_fraction hplaces, length_fraction hplaces, hexponent]
  · -- Zeros at the end are digits for the reader.
    refine ⟨⟨d.digits * 10 ^ d.exponent.toNat, 0⟩, ?_, ?_⟩
    · rw [positional_of_nonneg hnonneg, Numeral.decimal?_of_isDigit (Text.ofNat_ne_nil _)
        (fun c hc => Text.isDigit_of_mem_ofNat hc), Text.ofDigitChars_ofNat]
    · have hnone : (-d.exponent).toNat = 0 := by omega
      simp [ratio, hnone]

end Decimal

namespace Numeral

/-- A text that starts with a digit is no word and has no sign. -/
theorem unsigned?_of_isDigit {c : Char} {s : List Char} (hc : c.isDigit) :
    unsigned? (c :: s) = (decimal? (c :: s)).map .finite := by
  -- A digit has no other case.
  have hupper : ¬(c.val ≥ 'A'.val ∧ c.val ≤ 'Z'.val) := by
    intro h
    have hbound : c.val ≤ '9'.val := by grind [Char.isDigit]
    have habsurd : ¬ 'A'.val ≤ '9'.val := by decide
    exact habsurd (UInt32.le_trans h.1 hbound)
  have hsame : c.toLower = c := dif_neg hupper
  have hlower (d : Char) (hd : d.isDigit = false) : c.toLower ≠ d := by
    rw [hsame]
    rintro rfl
    simp [hc] at hd
  have hn := hlower 'n' (by decide)
  have hi := hlower 'i' (by decide)
  simp [unsigned?, hn, hi]

theorem read?_of_isDigit {c : Char} {s : List Char} (hc : c.isDigit) :
    read? (c :: s) = (unsigned? (c :: s)).map (false, ·) := by
  unfold read?
  split
  case h_1 heq =>
    cases heq
    exact absurd hc (by decide)
  case h_2 heq =>
    cases heq
    exact absurd hc (by decide)
  case h_3 => rfl

/-- A decimal behind a sign is read as the number that it is. -/
theorem read?_positional (negative : Bool) (d : Decimal) :
    ∃ d', read? ((if negative then ['-'] else []) ++ d.positional) = some (negative, .finite d') ∧
      d'.ratio = d.ratio := by
  obtain ⟨d', hread, hratio⟩ := d.ratio_of_positional
  obtain ⟨c, s, hs, hc⟩ := d.exists_positional_eq_cons
  refine ⟨d', ?_, hratio⟩
  cases negative with
  | true =>
    show (unsigned? d.positional).map (true, ·) = _
    rw [hs, unsigned?_of_isDigit hc, ← hs, hread]
    rfl
  | false =>
    show read? d.positional = _
    rw [hs, read?_of_isDigit hc, unsigned?_of_isDigit hc, ← hs, hread]
    rfl

end Numeral

namespace BinaryFormat

variable {f : BinaryFormat}

/-! ### Words and their signs -/

/-- A word of the format: a magnitude, with or without a sign. -/
def IsWord (f : BinaryFormat) (bits : Nat) : Prop := bits < 2 * f.signBit

theorem infinity_lt_signBit (f : BinaryFormat) : f.infinity < f.signBit := by
  have hexponents : 0 < 2 ^ f.exponentBits := Nat.two_pow_pos _
  rw [infinity, signBit, hidden, Nat.add_comm, Nat.pow_add]
  exact Nat.mul_lt_mul_of_pos_right (by omega) (Nat.two_pow_pos _)

theorem magnitude_signed {negative : Bool} {w : Nat} (hw : w < f.signBit) :
    f.magnitude (f.signed negative w) = w := by
  unfold magnitude signed
  cases negative with
  | true => simp [Nat.mod_eq_of_lt hw]
  | false => simp [Nat.mod_eq_of_lt hw]

theorem isNegative_signed {negative : Bool} {w : Nat} (hw : w < f.signBit) :
    f.isNegative (f.signed negative w) = negative := by
  unfold isNegative signed
  cases negative with
  | true => simp
  | false => simpa using hw

/-- A word is its magnitude with its sign. -/
theorem signed_magnitude {bits : Nat} (h : f.IsWord bits) :
    f.signed (f.isNegative bits) (f.magnitude bits) = bits := by
  unfold IsWord at h
  unfold signed isNegative magnitude
  by_cases hneg : f.signBit ≤ bits
  · rw [decide_eq_true hneg, if_pos rfl, Nat.mod_eq_sub_mod hneg, Nat.mod_eq_of_lt (by omega)]
    omega
  · rw [decide_eq_false hneg]
    simp [Nat.mod_eq_of_lt (show bits < f.signBit by omega)]

theorem ofRatio_zero (hf : f.fractionBits ≠ 0) (hinf : 0 < f.infinity) : f.ofRatio 0 1 = 0 := by
  have h := round_units hf Nat.one_pos hinf
  rw [f.units_zero, Nat.zero_mul] at h
  rw [ofRatio, Nat.zero_mul, h]

/-- **Words are read back.** A word that is a number comes back from its text, and a word that is
    none as the one that is written for all of them. -/
theorem parse?_text (hf : f.fractionBits ≠ 0) (hinf : 0 < f.infinity) {bits : Nat}
    (hbits : f.IsWord bits) :
    f.parse? (f.text bits) =
      some (if f.infinity < f.magnitude bits then f.quietNaN else bits) := by
  have hword := signed_magnitude hbits
  unfold text parse?
  simp only
  by_cases hnan : f.infinity < f.magnitude bits
  · rw [if_pos hnan, if_pos hnan]
    rfl
  · rw [if_neg hnan, if_neg hnan]
    by_cases hmax : f.magnitude bits = f.infinity
    · rw [if_pos hmax]
      have hread : Numeral.read? ((if f.isNegative bits then ['-'] else []) ++ "inf".toList) =
          some (f.isNegative bits, .infinite) := by
        cases f.isNegative bits <;> decide
      have hvalue : f.ofNumeral .infinite = f.infinity := rfl
      rw [hread, Option.map_some, hvalue, ← hmax, hword]
    · rw [if_neg hmax]
      by_cases hzero : f.magnitude bits = 0
      · rw [if_pos hzero]
        obtain ⟨d, hread, hratio⟩ := Numeral.read?_positional (f.isNegative bits) ⟨0, 0⟩
        have hvalue : f.ofNumeral (.finite d) = 0 := by
          rw [ofNumeral, hratio]
          exact ofRatio_zero hf hinf
        have htext : (Decimal.mk 0 0).positional = ['0'] := by decide
        rw [htext] at hread
        rw [hread, Option.map_some, hvalue, ← hzero, hword]
      · rw [if_neg hzero]
        obtain ⟨d, hread, hratio⟩ :=
          Numeral.read?_positional (f.isNegative bits) (f.shortest (f.magnitude bits))
        have hvalue : f.ofNumeral (.finite d) = f.magnitude bits := by
          refine (ofNumeral_eq_iff hf (by omega) d).2 ?_
          have hshortest := f.readsAs_shortest (f.magnitude bits)
          unfold ReadsAs at hshortest ⊢
          rwa [hratio]
        rw [hread, Option.map_some, hvalue, hword]

/-! ### The texts of words -/

/-- The sign in front of the text of a number. -/
def sign (f : BinaryFormat) (bits : Nat) : List Char :=
  if f.isNegative bits then ['-'] else []

/-- What the text of a word has to be: a word where it is no finite number, and else a decimal in
    positional notation that reads back, where none with fewer digits does. -/
inductive Written (f : BinaryFormat) (bits : Nat) : List Char → Prop
  | notANumber (h : f.infinity < f.magnitude bits) : Written f bits "NaN".toList
  | infinite (h : f.magnitude bits = f.infinity) : Written f bits (f.sign bits ++ "inf".toList)
  | zero (h : f.magnitude bits = 0) : Written f bits (f.sign bits ++ ['0'])
  | finite (d : Decimal) (hpos : 0 < f.magnitude bits) (hlt : f.magnitude bits < f.infinity)
      (hreads : f.ofNumeral (.finite d) = f.magnitude bits)
      (hshortest : ∀ d' : Decimal, f.ofNumeral (.finite d') = f.magnitude bits →
        (Text.ofNat d.digits).length ≤ (Text.ofNat d'.digits).length) :
      Written f bits (f.sign bits ++ d.positional)

theorem written_text (hf : f.fractionBits ≠ 0) (bits : Nat) : f.Written bits (f.text bits) := by
  unfold text
  simp only
  split
  case isTrue hnan => exact .notANumber hnan
  case isFalse hnan =>
    split
    case isTrue hmax => exact .infinite hmax
    case isFalse hmax =>
      split
      case isTrue hzero => exact .zero hzero
      case isFalse hzero =>
        have hlt : f.magnitude bits < f.infinity := by omega
        refine .finite (f.shortest (f.magnitude bits)) (by omega) hlt ?_ ?_
        · exact (ofNumeral_eq_iff hf hlt _).2 (f.readsAs_shortest _)
        · intro d' hd'
          exact length_shortest_le (by omega) ((ofNumeral_eq_iff hf hlt d').1 hd')

/-- The characters of the text of a word. -/
theorem of_mem_text {bits : Nat} {c : Char} (h : c ∈ f.text bits) :
    c.isDigit ∨ c ∈ ['.', '-', 'N', 'a', 'i', 'n', 'f'] := by
  have hsign {s : List Char} (hc : c ∈ (if f.isNegative bits then ['-'] else []) ++ s)
      (hs : c ∈ s → c.isDigit ∨ c ∈ ['.', '-', 'N', 'a', 'i', 'n', 'f']) :
      c.isDigit ∨ c ∈ ['.', '-', 'N', 'a', 'i', 'n', 'f'] := by
    rcases List.mem_append.1 hc with hminus | hrest
    · right
      cases hneg : f.isNegative bits <;> simp_all
    · exact hs hrest
  unfold text at h
  simp only at h
  split at h
  · have hletter : c = 'N' ∨ c = 'a' ∨ c = 'N' := by simpa using h
    rcases hletter with rfl | rfl | rfl <;> simp
  · split at h
    · exact hsign h fun hinf => by simp_all
    · split at h
      · exact hsign h fun hzero => by simp_all
      · refine hsign h fun hpositional => ?_
        rcases Decimal.of_mem_positional hpositional with hdigit | rfl
        · exact .inl hdigit
        · simp

end BinaryFormat

end KernelDiff
