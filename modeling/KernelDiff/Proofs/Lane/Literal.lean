import KernelDiff.Proofs.Lane.Integer

namespace KernelDiff

/-!
# The texts of integer lanes

A lane of an integer kind is read from a numeral whose value the kind has, whatever its sign and
its leading zeros, and a truth value is read from two words besides.

* `Lane.Literal` — these texts, each with the word that it denotes;
* `Lane.parse?_eq_some_iff` — the reader of lanes takes these texts and no others;
* `Lane.Literal.isPlain` — none of them can be taken for a separator or a blank.
-/

/-- Whether lanes are integers with a sign. -/
def ScalarKind.isSigned (k : ScalarKind) : Bool :=
  match k.encoding with
  | .integer signed => signed
  | _ => false

namespace Lane

variable {k : ScalarKind} {s : List Char} {word : Nat}

/-- The text of one lane of an integer kind or of a truth value, and the word that it denotes: an
    integer that the kind has, in two's complement, or the name of a truth value. -/
inductive Literal (k : ScalarKind) : List Char → Nat → Prop
  | integer {s : List Char} {i : Int} (numeral : Text.Numeral k.isSigned s i)
      (least_le : least k k.isSigned ≤ i) (le_greatest : i ≤ greatest k k.isSigned) :
      Literal k s (i % 2 ^ bits k).toNat
  | true (bool : k = .bool) : Literal k "true".toList 1
  | false (bool : k = .bool) : Literal k "false".toList 0

/-- A natural number that the kind has is its own residue. -/
theorem emod_of_le_greatest {i : Int} (hi : 0 ≤ i) (hgreatest : i ≤ greatest k false) :
    i % 2 ^ bits k = i := by
  simp only [greatest, Bool.false_eq_true, if_false] at hgreatest
  exact Int.emod_eq_of_lt hi (by omega)

/-- A letter is not in a numeral. -/
theorem not_numeral_of_mem {signed : Bool} {c : Char} {i : Int} (hc : c ∈ s)
    (hletter : (c.isDigit || c == '+' || c == '-') = false) : ¬Text.Numeral signed s i := by
  intro h
  rcases h.of_mem hc with hdigit | rfl | rfl
  · simp [hdigit] at hletter
  · cases hletter
  · cases hletter

/-- The texts of truth values: the two names, and the numerals of 32-bit words. -/
theorem parse?_bool_eq_some_iff : parse? .bool s = some word ↔ Literal .bool s word := by
  have hnumeral : (Text.integerIn? false 0 (greatest .bool false) s).map Int.toNat = some word ↔
      ∃ i : Int, (Text.Numeral false s i ∧ 0 ≤ i ∧ i ≤ greatest .bool false) ∧
        i.toNat = word := by
    simp only [Option.map_eq_some_iff, Text.integerIn?_eq_some_iff]
  unfold parse?
  simp only [ScalarKind.encoding]
  constructor
  · intro h
    split at h
    · next hs =>
      cases h
      exact hs ▸ .true rfl
    · split at h
      · next hs =>
        cases h
        exact hs ▸ .false rfl
      · obtain ⟨i, ⟨hi, hleast, hgreatest⟩, rfl⟩ := hnumeral.1 h
        rw [← emod_of_le_greatest hleast hgreatest]
        exact .integer hi hleast hgreatest
  · intro h
    cases h with
    | true => rfl
    | false => rfl
    | integer numeral least_le le_greatest =>
      -- A numeral is neither of the two names.
      rw [if_neg, if_neg]
      · refine hnumeral.2 ⟨_, ⟨numeral, least_le, le_greatest⟩, ?_⟩
        rw [emod_of_le_greatest least_le le_greatest]
      · rintro rfl
        exact not_numeral_of_mem (c := 'f') (by decide) rfl numeral
      · rintro rfl
        exact not_numeral_of_mem (c := 't') (by decide) rfl numeral

/-- **Literals are read as lanes, and nothing else is.** -/
theorem parse?_eq_some_iff (hk : k.isFloat = false) :
    parse? k s = some word ↔ Literal k s word := by
  cases hencoding : k.encoding with
  | truth =>
    have hbool : k = .bool := by cases k <;> first | rfl | cases hencoding
    rw [hbool]
    exact parse?_bool_eq_some_iff
  | integer signed =>
    have hsigned : k.isSigned = signed := by rw [ScalarKind.isSigned, hencoding]
    have hbool : k ≠ .bool := by
      rintro rfl
      cases hencoding
    unfold parse?
    simp only [hencoding, Option.map_eq_some_iff, Text.integerIn?_eq_some_iff, ← hsigned]
    constructor
    · rintro ⟨i, ⟨hi, hleast, hgreatest⟩, rfl⟩
      exact .integer hi hleast hgreatest
    · intro h
      cases h with
      | integer numeral least_le le_greatest =>
        exact ⟨_, ⟨numeral, least_le, le_greatest⟩, rfl⟩
      | true bool => exact absurd bool hbool
      | false bool => exact absurd bool hbool
  | floating stored shown => simp [ScalarKind.isFloat, hencoding] at hk

/-- No literal has a blank or a comma in it. -/
theorem Literal.isPlain (h : Literal k s word) : IsPlain s := by
  cases h with
  | integer numeral =>
    refine ⟨numeral.ne_nil, fun c hc => ?_, fun c hc => ?_⟩
    · rcases numeral.of_mem hc with hdigit | rfl | rfl
      · exact Text.isBlank_digit hdigit
      · decide
      · decide
    · rintro rfl
      exact not_numeral_of_mem hc rfl numeral
  | true => exact ⟨by simp, by simp [Text.isBlank], by simp⟩
  | false => exact ⟨by simp, by simp [Text.isBlank], by simp⟩

end Lane

end KernelDiff
