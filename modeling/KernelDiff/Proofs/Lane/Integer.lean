import KernelDiff.Proofs.Element.Text
import KernelDiff.Proofs.Text.Integer

namespace KernelDiff.Lane

/-!
# Integer lanes are read back

A lane of an integer kind is written as the integer that its word stands for, in two's complement
where the kind is signed. Every word of the kind's size comes back from its text, whether or not
it stands for one of the values that programs make.

* `toInt_bounds`, `toInt_emod` — a word stands for an integer of its kind, and is its residue;
* `parse?_text_of_not_isFloat`, `isPlain_text_of_not_isFloat` — the text of a word.
-/

variable {k : ScalarKind} {signed : Bool} {word : Nat}

/-- Half of the words of a kind have their highest bit set. -/
theorem two_pow_bits (k : ScalarKind) : 2 ^ bits k = 2 * 2 ^ (bits k - 1) := by
  have hpos : 0 < bits k := Nat.mul_pos (by decide) k.size_pos
  rw [← Nat.pow_succ', Nat.succ_eq_add_one, Nat.sub_add_cancel hpos]

theorem toInt_bounds (signed : Bool) (hword : word < 2 ^ bits k) :
    least k signed ≤ toInt k signed word ∧ toInt k signed word ≤ greatest k signed := by
  have hhalf := two_pow_bits k
  have hcast (n : Nat) : (2 : Int) ^ n = (2 ^ n : Nat) := by simp
  simp only [least, greatest, toInt, hcast]
  cases signed with
  | true =>
    by_cases hhigh : 2 ^ (bits k - 1) ≤ word
    · simp only [Bool.true_and, decide_eq_true hhigh, if_true]
      omega
    · simp only [Bool.true_and, decide_eq_false hhigh, if_true, Bool.false_eq_true, if_false]
      omega
  | false =>
    simp only [Bool.false_and, Bool.false_eq_true, if_false]
    omega

theorem toInt_nonneg_of_unsigned (h : signed = false) : 0 ≤ toInt k signed word := by
  simp [toInt, h]

/-- A word is the residue of the integer that it stands for. -/
theorem toInt_emod (hword : word < 2 ^ bits k) :
    (toInt k signed word % 2 ^ bits k).toNat = word := by
  have hcast : (2 : Int) ^ bits k = (2 ^ bits k : Nat) := by simp
  have hresidue : (word : Int) % (2 ^ bits k : Nat) = word :=
    Int.emod_eq_of_lt (by omega) (by omega)
  rw [toInt, hcast]
  split
  · rw [Int.sub_emod_right, hresidue, Int.toNat_natCast]
  · rw [hresidue, Int.toNat_natCast]

theorem isPlain_of_isDigit_or_minus {s : List Char} (hne : s ≠ [])
    (h : ∀ c ∈ s, c.isDigit ∨ c = '-') : IsPlain s where
  ne_nil := hne
  isBlank_eq_false c hc := by
    rcases h c hc with hdigit | rfl
    · exact Text.isBlank_digit hdigit
    · decide
  ne_comma c hc := by
    rintro rfl
    exact absurd (h ',' hc) (by decide)

theorem isPlain_text_of_not_isFloat (hk : k.isFloat = false) : IsPlain (text k word) := by
  unfold ScalarKind.isFloat at hk
  unfold text
  cases hencoding : k.encoding with
  | truth =>
    exact isPlain_of_isDigit_or_minus (Text.ofNat_ne_nil _)
      fun c hc => .inl (Text.isDigit_of_mem_ofNat hc)
  | integer signed =>
    exact isPlain_of_isDigit_or_minus (Text.ofInt_ne_nil _) fun c hc => Text.of_mem_ofInt hc
  | floating stored shown => simp [hencoding] at hk

/-- **Integer lanes are read back.** Every word of the kind's size comes back from its text. -/
theorem parse?_text_of_not_isFloat (hk : k.isFloat = false) (hword : word < 2 ^ bits k) :
    parse? k (text k word) = some word := by
  unfold ScalarKind.isFloat at hk
  unfold parse? text
  cases hencoding : k.encoding with
  | truth =>
    -- Neither of the two words for a truth value is a row of digits.
    have hnot (s : List Char) (c : Char) (hc : c ∈ s) (hdigit : c.isDigit = false) :
        Text.ofNat word ≠ s := by
      rintro rfl
      simp [Text.isDigit_of_mem_ofNat hc] at hdigit
    obtain ⟨hlo, hhi⟩ := toInt_bounds false hword
    have hread : Text.integerIn? false 0 (greatest k false) (Text.ofInt word) = some (word : Int) :=
      Text.integerIn?_ofInt (fun _ => Int.natCast_nonneg word) hlo hhi
    rw [Text.ofInt_natCast] at hread
    simp only
    rw [if_neg (hnot "true".toList 't' (by decide) (by decide)),
      if_neg (hnot "false".toList 'f' (by decide) (by decide))]
    exact congrArg (Option.map Int.toNat) hread
  | integer signed =>
    obtain ⟨hlo, hhi⟩ := toInt_bounds signed hword
    simp only
    rw [Text.integerIn?_ofInt toInt_nonneg_of_unsigned hlo hhi, Option.map_some,
      toInt_emod hword]
  | floating stored shown => simp [hencoding] at hk

end KernelDiff.Lane
