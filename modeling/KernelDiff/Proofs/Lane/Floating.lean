import KernelDiff.Proofs.Binary.Conversion
import KernelDiff.Proofs.Element.Text

namespace KernelDiff.Lane

/-!
# Floating-point lanes are read back

A lane of a floating-point kind is written as a number, in the format that its kind is shown in,
and this number is read back as the same word. All words that are not numbers have one text, which
is read as the positive quiet one without a payload.

* `isNaN`, `quietNaN`, `canonical` — the words that do not come back as they were;
* `HasFormats` — what is used of the formats of a kind;
* `parse?_text_of_isFloat`, `isPlain_text_of_isFloat` — the text of a word;
* `Shown`, `shown_of_isFloat` — what is written, and what is read, in the format it is shown in.
-/

variable {k : ScalarKind} {word : Nat}

/-- Whether a lane is a floating-point word that is not a number. -/
def isNaN (k : ScalarKind) (word : Nat) : Bool :=
  match k.encoding with
  | .floating stored _ => stored.infinity < stored.magnitude word
  | _ => false

/-- The positive quiet word without a payload that is not a number. -/
def quietNaN : ScalarKind → Nat
  | .half => 0x7e00
  | .float => 0x7fc00000
  | .double => 0x7ff8000000000000
  | _ => 0

/-- The word that a lane comes back as. -/
def canonical (k : ScalarKind) (word : Nat) : Nat :=
  if isNaN k word then quietNaN k else word

/-- What the formats of the floating-point kinds have in common. -/
structure HasFormats (k : ScalarKind) (stored shown : BinaryFormat) : Prop where
  encoding : k.encoding = .floating stored shown
  stored_fractionBits : stored.fractionBits ≠ 0
  shown_fractionBits : shown.fractionBits ≠ 0
  shown_infinity : 0 < shown.infinity
  embeds : stored.Embeds shown
  /-- A lane has room for the sign and a magnitude, and for nothing else. -/
  two_mul_signBit : 2 * stored.signBit = 2 ^ bits k
  quietNaN_eq : stored.quietNaN = quietNaN k
  /-- Every integer of the precision of the format is a finite value of it. -/
  integers : (stored.unitExponent + 2) * stored.hidden < stored.infinity
  le_hidden : 128 ≤ stored.hidden

theorem exists_formats (hk : k.isFloat) : ∃ stored shown, HasFormats k stored shown := by
  cases k with
  | half =>
    exact ⟨_, _, rfl, by decide, by decide, by decide, BinaryFormat.half_embeds_single, by decide,
      by decide, by decide, by decide⟩
  | float =>
    exact ⟨_, _, rfl, by decide, by decide, by decide, BinaryFormat.embeds_refl _, by decide,
      by decide, by decide, by decide⟩
  | double =>
    exact ⟨_, _, rfl, by decide, by decide, by decide, BinaryFormat.embeds_refl _, by decide,
      by decide, by decide, by decide⟩
  | _ => cases hk

theorem hasFormats_of_encoding {stored shown : BinaryFormat}
    (h : k.encoding = .floating stored shown) : HasFormats k stored shown := by
  have hfloat : k.isFloat := by simp [ScalarKind.isFloat, h]
  obtain ⟨stored', shown', hk⟩ := exists_formats hfloat
  have hsame := h.symm.trans hk.encoding
  cases hsame
  exact hk

/-- **Floating-point lanes are read back.** -/
theorem parse?_text_of_isFloat (hk : k.isFloat) (hword : word < 2 ^ bits k) :
    parse? k (text k word) = some (canonical k word) := by
  obtain ⟨stored, shown, hk⟩ := exists_formats hk
  have hisWord : stored.IsWord word := by
    rw [BinaryFormat.IsWord, hk.two_mul_signBit]
    exact hword
  have hread := BinaryFormat.parse?_text_convert hk.stored_fractionBits hk.shown_fractionBits
    hk.shown_infinity hk.embeds hisWord
  unfold parse? text canonical isNaN
  rw [hk.encoding, ← hk.quietNaN_eq]
  simpa using hread

theorem isPlain_text_of_isFloat (hk : k.isFloat) (hword : word < 2 ^ bits k) :
    IsPlain (text k word) := by
  have hread := parse?_text_of_isFloat hk hword
  obtain ⟨stored, shown, hk⟩ := exists_formats hk
  have hchars : ∀ c ∈ text k word, c.isDigit ∨ c ∈ ['.', '-', 'N', 'a', 'i', 'n', 'f'] := by
    intro c hc
    rw [text, hk.encoding] at hc
    exact BinaryFormat.of_mem_text hc
  have hletters : ['.', '-', 'N', 'a', 'i', 'n', 'f'].all (fun c => !Text.isBlank c) := by decide
  refine ⟨?_, fun c hc => ?_, fun c hc => ?_⟩
  · intro hnil
    rw [hnil, parse?, hk.encoding] at hread
    cases hread
  · rcases hchars c hc with hdigit | hmem
    · exact Text.isBlank_digit hdigit
    · simpa using List.all_eq_true.1 hletters c hmem
  · rintro rfl
    exact absurd (hchars _ hc) (by decide)

/-- How the lanes of a floating-point kind are written and read. -/
structure Shown (k : ScalarKind) (stored shown : BinaryFormat) : Prop where
  encoding : k.encoding = .floating stored shown
  /-- No finite value is lost on the way to the format that is shown. -/
  embeds : stored.Embeds shown
  /-- A word is written in the shortest digits that are read back there. -/
  written : ∀ word, shown.Written
    (shown.signed (stored.isNegative word) (stored.convert shown (stored.magnitude word)))
    (text k word)
  /-- A text is read there, and then taken to the format that is stored. -/
  read : ∀ s, parse? k s = (shown.parse? s).map fun word =>
    stored.signed (shown.isNegative word) (shown.convert stored (shown.magnitude word))
  /-- Both steps go to the nearest word, and from a midpoint to the even one. -/
  nearest : ∀ d w, w < shown.infinity → (shown.ofNumeral (.finite d) = w ↔ shown.ReadsAs d w)
  narrowed : ∀ v w, v < shown.infinity → w < stored.infinity →
    (shown.convert stored v = w ↔
      stored.Nearest (shown.units v * 2 ^ stored.unitExponent) (2 ^ shown.unitExponent) w)

theorem shown_of_isFloat (hk : k.isFloat) : ∃ stored shown, Shown k stored shown := by
  obtain ⟨stored, shown, hk⟩ := exists_formats hk
  refine ⟨stored, shown, hk.encoding, hk.embeds, fun word => ?_, fun s => ?_, fun d w hw => ?_,
    fun v w hv hw => ?_⟩
  · rw [text, hk.encoding]
    exact BinaryFormat.written_text hk.shown_fractionBits _
  · rw [parse?, hk.encoding]
  · exact BinaryFormat.ofNumeral_eq_iff hk.shown_fractionBits hw d
  · rw [BinaryFormat.convert, if_pos hv]
    exact BinaryFormat.round_eq_iff hk.stored_fractionBits (Nat.two_pow_pos _) hw

end KernelDiff.Lane
