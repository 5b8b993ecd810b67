import KernelDiff.Text.Blank

namespace KernelDiff.Text

/-!
# The words of a text

Words are runs of characters without a blank, and blanks stand between two of them. A text can be
cut into words at every place where no word goes on, so what is put in there adds its own words and
leaves the others alone.

* `IsWord`, `Spaced` — a word, and a text of words with blanks around and between them;
* `words_eq_iff` — the words of a text are those that it is made of;
* `Apart`, `words_append` — the places where no word goes on;
* `words_insert_blanks`, `words_insert_word` — what is put in at such a place.
-/

/-- A text without any blank, which is not empty. -/
structure IsWord (w : List Char) : Prop where
  ne_nil : w ≠ []
  isBlank_eq_false : ∀ c ∈ w, isBlank c = false

/-- A text that is made of words, with blanks in front of them, between them and behind them. -/
inductive Spaced : List (List Char) → List Char → Prop
  | nil : Spaced [] []
  | blank {c : Char} {s : List Char} {ws : List (List Char)} (isBlank : isBlank c)
      (rest : Spaced ws s) : Spaced ws (c :: s)
  | word {w s : List Char} {ws : List (List Char)} (isWord : IsWord w)
      (ends : ∀ c ∈ s.head?, isBlank c) (rest : Spaced ws s) : Spaced (w :: ws) (w ++ s)

/-! ### Cutting at a blank -/

@[simp] theorem words_nil : words [] = [] := by
  simp [words]

/-- **A blank cuts a text in two.** -/
theorem words_append_cons {c : Char} (hc : isBlank c) (s s' : List Char) :
    words (s ++ c :: s') = words s ++ words s' := by
  rw [words, words, words, List.splitOnP_append_cons s s' hc, List.filter_append]

/-- A blank in front belongs to no word. -/
theorem words_cons {c : Char} (hc : isBlank c) (s : List Char) : words (c :: s) = words s := by
  simpa using words_append_cons hc [] s

theorem words_of_isWord {w : List Char} (hw : IsWord w) : words w = [w] := by
  have hnone : ∀ c ∈ w, isBlank c = false := hw.isBlank_eq_false
  rw [words, List.splitOnP_eq_singleton hnone]
  simp [hw.ne_nil]

/-- A word ends at the blank behind it. -/
theorem words_append_of_isWord {w s : List Char} (hw : IsWord w)
    (hends : ∀ c ∈ s.head?, isBlank c) : words (w ++ s) = w :: words s := by
  cases s with
  | nil => rw [List.append_nil, words_of_isWord hw, words_nil]
  | cons c s =>
    have hc : isBlank c := hends c (by simp)
    rw [words_append_cons hc, words_of_isWord hw, words_cons hc, List.singleton_append]

/-! ### The words of a text are those that it is made of -/

theorem Spaced.words_eq {ws : List (List Char)} {s : List Char} (h : Spaced ws s) :
    words s = ws := by
  induction h with
  | nil => exact words_nil
  | blank isBlank _ ih => rw [words_cons isBlank, ih]
  | word isWord ends _ ih => rw [words_append_of_isWord isWord ends, ih]

/-- Every text is made of words. -/
theorem exists_spaced (s : List Char) : ∃ ws, Spaced ws s := by
  induction s with
  | nil => exact ⟨[], .nil⟩
  | cons c s ih =>
    obtain ⟨ws, h⟩ := ih
    by_cases hc : isBlank c
    · exact ⟨ws, .blank hc h⟩
    · have hword : IsWord [c] := ⟨by simp, by simpa using hc⟩
      -- The character is a word of its own, or it is put in front of the word that follows.
      cases h with
      | nil => exact ⟨[[c]], .word hword (by simp) .nil⟩
      | blank isBlank rest =>
        exact ⟨[c] :: ws, .word hword (by simpa using isBlank) (.blank isBlank rest)⟩
      | word isWord ends rest =>
        refine ⟨_, .word (w := c :: _) ⟨by simp, ?_⟩ ends rest⟩
        exact List.forall_mem_cons.2 ⟨by simpa using hc, isWord.isBlank_eq_false⟩

/-- **The words of a text are those that it is made of.** -/
theorem words_eq_iff {s : List Char} {ws : List (List Char)} : words s = ws ↔ Spaced ws s := by
  constructor
  · rintro rfl
    obtain ⟨ws, h⟩ := exists_spaced s
    rwa [h.words_eq]
  · exact Spaced.words_eq

/-! ### Putting something in between -/

/-- No word goes on from the first text to the second one. -/
def Apart (s s' : List Char) : Prop :=
  (∀ c ∈ s.getLast?, isBlank c) ∨ ∀ c ∈ s'.head?, isBlank c

/-- **Words are cut where none goes on.** -/
theorem words_append {s s' : List Char} (h : Apart s s') :
    words (s ++ s') = words s ++ words s' := by
  rcases h with hlast | hhead
  · rcases List.eq_nil_or_concat s with rfl | ⟨front, c, rfl⟩
    · rw [words_nil, List.nil_append, List.nil_append]
    · rw [List.concat_eq_append] at hlast ⊢
      have hc : isBlank c := hlast c (by simp)
      rw [List.append_assoc, List.singleton_append, words_append_cons hc, words_append_cons hc,
        words_nil, List.append_nil]
  · cases s' with
    | nil => rw [words_nil, List.append_nil, List.append_nil]
    | cons c s' =>
      have hc : isBlank c := hhead c (by simp)
      rw [words_append_cons hc, words_cons hc]

/-- Blanks in front belong to no word. -/
theorem words_blanks_append {blanks : List Char} (h : ∀ c ∈ blanks, isBlank c) (s : List Char) :
    words (blanks ++ s) = words s := by
  induction blanks with
  | nil => rw [List.nil_append]
  | cons c blanks ih =>
    obtain ⟨hc, hrest⟩ := List.forall_mem_cons.1 h
    rw [List.cons_append, words_cons hc, ih hrest]

/-- Blanks between words do not count. -/
theorem words_insert_blanks {s s' blanks : List Char} (h : Apart s s')
    (hblanks : ∀ c ∈ blanks, isBlank c) : words (s ++ blanks ++ s') = words (s ++ s') := by
  cases blanks with
  | nil => rw [List.append_nil]
  | cons c blanks =>
    have hbefore : Apart s (c :: blanks ++ s') := .inr fun d hd => hblanks d <| by
      rw [List.cons_append, List.head?_cons, Option.mem_some] at hd
      simp [hd]
    rw [List.append_assoc, words_append hbefore, words_blanks_append hblanks, words_append h]

/-- A word between words is one more word. -/
theorem words_insert_word {s s' w : List Char} (hbefore : ∀ c ∈ s.getLast?, isBlank c)
    (hw : IsWord w) (hbehind : ∀ c ∈ s'.head?, isBlank c) :
    words (s ++ w ++ s') = words s ++ w :: words s' := by
  rw [List.append_assoc, words_append (.inl hbefore), words_append_of_isWord hw hbehind]

end KernelDiff.Text
