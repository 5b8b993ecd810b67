import KernelDiff.Proofs.Lane.Words
import KernelDiff.Proofs.Text.Blank

namespace KernelDiff

/-!
# The text of an element and its lanes

An element is written as its lanes: a scalar as its only lane, a vector as a row of lanes in
parentheses. What holds of the reader of one lane therefore holds of the reader of elements, as
long as no text of a lane can be taken for a separator, a parenthesis or a blank.

* `Lane.IsPlain` — such a text;
* `Element.laneTexts?_join` — the reader cuts a text where the writer has joined it;
* `Element.ofText?_text` — so it reads an element lane by lane, whatever blanks stand around.
-/

namespace Lane

/-- A text of a lane that has no blank and no comma in it, and is not empty. -/
structure IsPlain (s : List Char) : Prop where
  ne_nil : s ≠ []
  isBlank_eq_false : ∀ c ∈ s, Text.isBlank c = false
  ne_comma : ∀ c ∈ s, c ≠ ','

theorem IsPlain.isTight {s : List Char} (h : IsPlain s) : Text.IsTight s :=
  Text.isTight_of_forall h.isBlank_eq_false

end Lane

namespace Element

/-- Commas with blanks behind them are commas, with the blanks in the texts. -/
theorem intercalate_comma_blank (first : List Char) (rest : List (List Char)) :
    [',', ' '].intercalate (first :: rest) =
      [','].intercalate (first :: rest.map fun s => ' ' :: s) := by
  induction rest generalizing first with
  | nil => simp
  | cons second rest ih =>
    rw [List.intercalate_cons_cons, ih, List.map_cons, List.intercalate_cons_cons,
      List.intercalate_cons_cons_left]
    simp

/-- The lanes of a vector are found again between the parentheses. -/
theorem splitOn_intercalate {lanes : List (List Char)} (hne : lanes ≠ [])
    (hplain : ∀ s ∈ lanes, Lane.IsPlain s) :
    (([',', ' '].intercalate lanes).splitOn ',').map Text.trim = lanes := by
  obtain ⟨first, rest, rfl⟩ := List.exists_cons_of_ne_nil hne
  have hcomma : ∀ s ∈ first :: rest.map (fun s => ' ' :: s), ',' ∉ s := by
    intro s hs hmem
    rcases List.mem_cons.1 hs with rfl | hs
    · exact (hplain s (by simp)).ne_comma ',' hmem rfl
    · obtain ⟨lane, hlane, rfl⟩ := List.mem_map.1 hs
      have hin : ',' ∈ lane := by simpa using hmem
      exact (hplain lane (by simp [hlane])).ne_comma ',' hin rfl
  rw [intercalate_comma_blank, List.splitOn_intercalate ',' hcomma (by simp), List.map_cons,
    List.map_map]
  have hfirst := hplain first (by simp)
  congr 1
  · exact Text.trim_of_isTight hfirst.isTight hfirst.ne_nil
  · refine (List.map_congr_left fun s hs => ?_).trans (List.map_id _)
    have hlane := hplain s (by simp [hs])
    have htrim : Text.trim ([' '] ++ s ++ []) = s :=
      Text.trim_append (List.all_eq_true.1 rfl) hlane.isTight hlane.ne_nil (by simp)
    simpa using htrim

variable {t : ElementType}

/-- A row of lanes as an element of a type shows it. -/
def join (t : ElementType) (lanes : List (List Char)) : List Char :=
  if t.isVector then '(' :: (", ".toList.intercalate lanes ++ [')']) else lanes.flatten

theorem text_eq_join (t : ElementType) (bytes : List UInt8) :
    text t bytes = join t ((Lane.decode t.kind bytes).map (Lane.text t.kind)) :=
  rfl

/-- A scalar has one lane. -/
theorem lanes_of_not_isVector (ht : t.isVector = false) : t.lanes = 1 := by
  have hwidth : t.width = .one := by simpa [ElementType.isVector] using ht
  rw [ElementType.lanes, hwidth]
  rfl

theorem exists_of_not_isVector {α : Type} (ht : t.isVector = false) {lanes : List α}
    (hlength : lanes.length = t.lanes) : ∃ lane, lanes = [lane] :=
  List.length_eq_one_iff.1 (hlength.trans (lanes_of_not_isVector ht))

/-- A text in parentheses starts and ends with them. -/
theorem isTight_parentheses (s : List Char) : Text.IsTight ('(' :: (s ++ [')'])) := by
  refine ⟨by simp [Text.isBlank], ?_⟩
  rw [← List.cons_append, List.getLast?_append]
  simp [Text.isBlank]

theorem isTight_join {lanes : List (List Char)} (hlength : lanes.length = t.lanes)
    (hplain : ∀ s ∈ lanes, Lane.IsPlain s) : Text.IsTight (join t lanes) ∧ join t lanes ≠ [] := by
  cases ht : t.isVector with
  | true =>
    simp only [join, ht, if_true]
    exact ⟨isTight_parentheses _, List.cons_ne_nil _ _⟩
  | false =>
    obtain ⟨lane, rfl⟩ := exists_of_not_isVector ht hlength
    have hlane := hplain lane (by simp)
    simpa [join, ht] using And.intro hlane.isTight hlane.ne_nil

theorem laneTexts?_join {lanes : List (List Char)} (hlength : lanes.length = t.lanes)
    (hplain : ∀ s ∈ lanes, Lane.IsPlain s) : laneTexts? t (join t lanes) = some lanes := by
  cases ht : t.isVector with
  | true =>
    have hne : lanes ≠ [] := by
      rintro rfl
      have := t.lanes_pos
      simp at hlength
      omega
    simp [join, laneTexts?, ht, splitOn_intercalate hne hplain]
  | false =>
    obtain ⟨lane, rfl⟩ := exists_of_not_isVector ht hlength
    simp [join, laneTexts?, ht]

/-- A reader that reads what was written of every entry of a list reads the list. -/
theorem mapM_map_eq_pure {α β γ : Type} {m : Type → Type} [Monad m] [LawfulMonad m] {f : α → β}
    {g : β → m γ} {h : α → γ} {xs : List α} (hg : ∀ x ∈ xs, g (f x) = pure (h x)) :
    (xs.map f).mapM g = pure (xs.map h) := by
  induction xs with
  | nil => rfl
  | cons x xs ih =>
    rw [List.map_cons, List.mapM_cons, hg x (by simp), ih fun y hy => hg y (by simp [hy]),
      pure_bind, pure_bind]
    rfl

/-- **Elements are read lane by lane.** Where the texts of the lanes are plain and read as words,
    the text of the element reads as these words, with any blanks around it. -/
theorem ofText?_text {bytes : List UInt8} {before after : List Char} (read : Nat → Nat)
    (hlength : bytes.length = t.size)
    (hplain : ∀ word ∈ Lane.decode t.kind bytes, Lane.IsPlain (Lane.text t.kind word))
    (hread : ∀ word ∈ Lane.decode t.kind bytes,
      Lane.parse? t.kind (Lane.text t.kind word) = some (read word))
    (hbefore : ∀ c ∈ before, Text.isBlank c) (hafter : ∀ c ∈ after, Text.isBlank c) :
    ofText? t (before ++ text t bytes ++ after) =
      some (Lane.encode t.kind ((Lane.decode t.kind bytes).map read)) := by
  have hplains : ∀ s ∈ (Lane.decode t.kind bytes).map (Lane.text t.kind), Lane.IsPlain s := by
    intro s hs
    obtain ⟨word, hword, rfl⟩ := List.mem_map.1 hs
    exact hplain word hword
  have hlanes : ((Lane.decode t.kind bytes).map (Lane.text t.kind)).length = t.lanes := by
    rw [List.length_map, Lane.length_decode_of_size hlength]
  obtain ⟨htight, hne⟩ := isTight_join hlanes hplains
  have htrim : Text.trim (before ++ text t bytes ++ after) = text t bytes := by
    rw [text_eq_join]
    exact Text.trim_append hbefore htight hne hafter
  have hwords : ((Lane.decode t.kind bytes).map (Lane.text t.kind)).mapM (Lane.parse? t.kind) =
      some ((Lane.decode t.kind bytes).map read) := mapM_map_eq_pure hread
  unfold ofText?
  rw [htrim, text_eq_join, laneTexts?_join hlanes hplains]
  simp [hlanes, hwords]

end Element

end KernelDiff
