import KernelDiff.Text.Blank
import Mathlib.Data.List.DropRight

namespace KernelDiff.Text

/-!
# Trimming takes away what stands around a text

A text that neither starts nor ends with a blank is what is left when blanks around it are trimmed
away, however many there are.

* `IsTight` — such a text; a text without any blank is one (`isTight_of_forall`);
* `trim_append` — blanks around a tight text are taken away, and nothing else;
* `trim_of_isTight` — a tight text is left alone;
* `Padded`, `trim_eq_iff` — so the texts that are trimmed to a tight one are those with blanks
  around it.
-/

/-- Neither the first nor the last character is a blank. -/
def IsTight (s : List Char) : Prop :=
  (∀ c ∈ s.head?, isBlank c = false) ∧ ∀ c ∈ s.getLast?, isBlank c = false

theorem isTight_of_forall {s : List Char} (h : ∀ c ∈ s, isBlank c = false) : IsTight s :=
  ⟨fun c hc => h c (List.mem_of_mem_head? hc), fun c hc => h c (List.mem_of_getLast? hc)⟩

theorem isBlank_digit {c : Char} (h : c.isDigit) : isBlank c = false := by
  -- The digits are in a range without blanks.
  have hrange : 48 ≤ c.toNat ∧ c.toNat ≤ 57 := by
    simp only [Char.isDigit, Bool.and_eq_true, decide_eq_true_eq, ge_iff_le,
      UInt32.le_iff_toNat_le] at h
    exact h
  simp only [isBlank, Bool.or_eq_false_iff, Bool.and_eq_false_iff, decide_eq_false_iff_not,
    beq_eq_false_iff_ne]
  omega

/-- What is dropped in front of a text whose first character stays. -/
theorem dropWhile_append {before s : List Char} (hbefore : ∀ c ∈ before, isBlank c)
    (hs : ∀ c ∈ s.head?, isBlank c = false) : (before ++ s).dropWhile isBlank = s := by
  rw [List.dropWhile_append_of_pos hbefore]
  cases s with
  | nil => rfl
  | cons c s => rw [List.dropWhile_cons_of_neg (by simp [hs c (by simp)])]

theorem trim_append {before s after : List Char} (hbefore : ∀ c ∈ before, isBlank c)
    (hs : IsTight s) (hne : s ≠ []) (hafter : ∀ c ∈ after, isBlank c) :
    trim (before ++ s ++ after) = s := by
  -- The blanks behind the text do not stop those in front of it from going.
  have hfront : trimLeft (before ++ s ++ after) = s ++ after := by
    rw [trimLeft, List.append_assoc]
    refine dropWhile_append hbefore fun c hc => hs.1 c ?_
    cases s with
    | nil => exact absurd rfl hne
    | cons d s => exact hc
  rw [trim, hfront, trimRight, List.reverse_append, dropWhile_append, List.reverse_reverse]
  · intro c hc
    exact hafter c (List.mem_reverse.1 hc)
  · intro c hc
    exact hs.2 c (by rwa [List.head?_reverse] at hc)

theorem trim_of_isTight {s : List Char} (hs : IsTight s) (hne : s ≠ []) : trim s = s := by
  have htrim : trim ([] ++ s ++ []) = s := trim_append (by simp) hs hne (by simp)
  simpa using htrim

/-- The text `s` with blanks around it. -/
inductive Padded (s : List Char) : List Char → Prop
  | intro {before after : List Char} (blank_before : ∀ c ∈ before, isBlank c)
      (blank_after : ∀ c ∈ after, isBlank c) : Padded s (before ++ s ++ after)

theorem padded_self (s : List Char) : Padded s s := by
  have h : Padded s ([] ++ s ++ []) := .intro (by simp) (by simp)
  rwa [List.nil_append, List.append_nil] at h

/-- Nothing but blanks is trimmed away. -/
theorem padded_trim (text : List Char) : Padded (trim text) text := by
  have htext : text.takeWhile isBlank ++ trim text ++ (trimLeft text).rtakeWhile isBlank =
      text := by
    have hback : trim text ++ (trimLeft text).rtakeWhile isBlank = trimLeft text :=
      List.rdropWhile_append_rtakeWhile
    rw [List.append_assoc, hback]
    exact List.takeWhile_append_dropWhile
  have h : Padded (trim text)
      (text.takeWhile isBlank ++ trim text ++ (trimLeft text).rtakeWhile isBlank) :=
    .intro (fun _ => List.mem_takeWhile_imp) fun _ => List.mem_rtakeWhile_imp
  rwa [htext] at h

theorem trim_eq_iff {s text : List Char} (hs : IsTight s) (hne : s ≠ []) :
    trim text = s ↔ Padded s text := by
  constructor
  · rintro rfl
    exact padded_trim text
  · rintro ⟨hbefore, hafter⟩
    exact trim_append hbefore hs hne hafter

end KernelDiff.Text
