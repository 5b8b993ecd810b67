import KernelDiff.Proofs.Lane.Literal

namespace KernelDiff.Element

/-!
# The texts of integer elements

An element of an integer kind or of truth values is written as its only lane, or as its lanes in
parentheses with commas between, and blanks may stand around the lanes and around the whole.

* `Denotes` — the texts of elements, each with the bytes that it denotes;
* `exists_of_laneTexts?_vector`, `laneTexts?_of_pieces` — where the reader cuts the text of a
  vector;
* `ofText?_eq_some_iff` — the reader takes these texts and no others;
* `parse_iff_denotes` — and its failure names any other text.
-/

/-- The text of a lane with blanks around it, and the word that it denotes. -/
def LaneText (k : ScalarKind) (piece : List Char) (word : Nat) : Prop :=
  ∃ s, Lane.Literal k s word ∧ Text.Padded s piece

/-- The text of an element whose lanes are integers or truth values, and the bytes that it denotes:
    those of its lanes, in order. -/
inductive Denotes (t : ElementType) : List Char → List UInt8 → Prop
  | scalar {s : List Char} {word : Nat} (scalar : t.isVector = false)
      (literal : Lane.Literal t.kind s word) : Denotes t s (Lane.encode t.kind [word])
  | vector {pieces : List (List Char)} {words : List Nat} (vector : t.isVector = true)
      (length_eq : pieces.length = t.lanes) (lanes : List.Forall₂ (LaneText t.kind) pieces words) :
      Denotes t ('(' :: ([','].intercalate pieces ++ [')'])) (Lane.encode t.kind words)

variable {t : ElementType}

theorem mapM_eq_some_iff {α β : Type} {f : α → Option β} {xs : List α} {ys : List β} :
    xs.mapM f = some ys ↔ List.Forall₂ (fun x y => f x = some y) xs ys := by
  induction xs generalizing ys with
  | nil => simp [eq_comm]
  | cons x xs ih =>
    simp only [List.mapM_cons, Option.bind_eq_bind, Option.bind_eq_some_iff, Option.pure_def,
      Option.some.injEq, List.forall₂_cons_left_iff, ih]
    constructor
    · rintro ⟨y, hy, zs, hzs, rfl⟩
      exact ⟨y, zs, hy, hzs, rfl⟩
    · rintro ⟨y, zs, hy, hzs, rfl⟩
      exact ⟨y, hy, zs, hzs, rfl⟩

/-- A vector is read from lanes in parentheses, with commas between and blanks around them. -/
theorem exists_of_laneTexts?_vector (ht : t.isVector = true) {s : List Char}
    {lanes : List (List Char)} (h : laneTexts? t s = some lanes) :
    ∃ pieces : List (List Char), s = '(' :: ([','].intercalate pieces ++ [')']) ∧
      lanes = pieces.map Text.trim := by
  unfold laneTexts? at h
  rw [if_pos ht] at h
  split at h
  · next rest =>
    split at h
    · next hclose =>
      cases h
      refine ⟨rest.dropLast.splitOn ',', ?_, rfl⟩
      rw [List.intercalate_splitOn, List.dropLast_append_getLast? _ hclose]
    · cases h
  · cases h

/-- The lanes of a vector are found between the commas. -/
theorem laneTexts?_of_pieces (ht : t.isVector = true) {pieces : List (List Char)}
    (hne : pieces ≠ []) (hcomma : ∀ piece ∈ pieces, ',' ∉ piece) :
    laneTexts? t ('(' :: ([','].intercalate pieces ++ [')'])) = some (pieces.map Text.trim) := by
  have hclose : ([','].intercalate pieces ++ [')']).getLast? = some ')' := by simp
  unfold laneTexts?
  simp only [ht, hclose, if_true, List.dropLast_concat, List.splitOn_intercalate ',' hcomma hne]

/-- A text of a lane is read as the lane when it is trimmed, and has no comma in it. -/
theorem laneText_iff {k : ScalarKind} (hk : k.isFloat = false) {piece : List Char} {word : Nat} :
    LaneText k piece word ↔ Lane.parse? k (Text.trim piece) = some word := by
  rw [Lane.parse?_eq_some_iff hk]
  constructor
  · rintro ⟨s, hs, hpadded⟩
    rwa [(Text.trim_eq_iff hs.isPlain.isTight hs.isPlain.ne_nil).2 hpadded]
  · intro h
    exact ⟨_, h, Text.padded_trim piece⟩

theorem LaneText.not_mem_comma {k : ScalarKind} {piece : List Char} {word : Nat}
    (h : LaneText k piece word) : ',' ∉ piece := by
  obtain ⟨s, hs, hbefore, hafter⟩ := h
  have hblank : Text.isBlank ',' ≠ true := by decide
  intro hmem
  rw [List.mem_append, List.mem_append] at hmem
  rcases hmem with (hmem | hmem) | hmem
  · exact hblank (hbefore ',' hmem)
  · exact hs.isPlain.ne_comma ',' hmem rfl
  · exact hblank (hafter ',' hmem)

theorem Denotes.isTight {s : List Char} {bytes : List UInt8} (h : Denotes t s bytes) :
    Text.IsTight s ∧ s ≠ [] := by
  cases h with
  | scalar _ literal => exact ⟨literal.isPlain.isTight, literal.isPlain.ne_nil⟩
  | vector => exact ⟨isTight_parentheses _, List.cons_ne_nil _ _⟩

/-- An element is read from as many lanes as it has, each on its own. -/
theorem ofText?_eq_some_iff_lanes {text : List Char} {bytes : List UInt8} :
    ofText? t text = some bytes ↔
      ∃ lanes words, laneTexts? t (Text.trim text) = some lanes ∧ lanes.length = t.lanes ∧
        List.Forall₂ (fun s word => Lane.parse? t.kind s = some word) lanes words ∧
        Lane.encode t.kind words = bytes := by
  simp only [← mapM_eq_some_iff]
  unfold ofText?
  simp only [Option.bind_eq_bind, Option.bind_eq_some_iff]
  constructor
  · rintro ⟨lanes, hlanes, h⟩
    split at h
    · next hlength =>
      obtain ⟨words, hwords, hbytes⟩ := Option.bind_eq_some_iff.1 h
      exact ⟨lanes, words, hlanes, hlength, hwords, Option.some.inj hbytes⟩
    · cases h
  · rintro ⟨lanes, words, hlanes, hlength, hwords, rfl⟩
    refine ⟨lanes, hlanes, ?_⟩
    rw [if_pos hlength, hwords]
    rfl

/-- What an element is read from, once the blanks around it are gone. -/
theorem ofText?_eq_some_iff_denotes_trim (hkind : t.kind.isFloat = false) {text : List Char}
    {bytes : List UInt8} : ofText? t text = some bytes ↔ Denotes t (Text.trim text) bytes := by
  rw [ofText?_eq_some_iff_lanes]
  generalize Text.trim text = s
  constructor
  · rintro ⟨lanes, words, hlanes, hlength, hwords, rfl⟩
    cases ht : t.isVector with
    | false =>
      obtain rfl : [s] = lanes := by simpa [laneTexts?, ht] using hlanes
      obtain ⟨word, hword, rfl⟩ : ∃ word, Lane.parse? t.kind s = some word ∧ words = [word] := by
        simpa [List.forall₂_cons_left_iff] using hwords
      exact .scalar ht ((Lane.parse?_eq_some_iff hkind).1 hword)
    | true =>
      obtain ⟨pieces, rfl, rfl⟩ := exists_of_laneTexts?_vector ht hlanes
      rw [List.forall₂_map_left_iff] at hwords
      exact .vector ht (by rwa [List.length_map] at hlength)
        (hwords.imp fun _ _ => (laneText_iff hkind).2)
  · rintro (⟨ht, hliteral⟩ | ⟨ht, hlength, hlanes⟩)
    · next word =>
      refine ⟨[s], [word], by simp [laneTexts?, ht], (lanes_of_not_isVector ht).symm, ?_, rfl⟩
      exact .cons ((Lane.parse?_eq_some_iff hkind).2 hliteral) .nil
    · next pieces words =>
      have hne : pieces ≠ [] := by
        rintro rfl
        exact absurd hlength t.lanes_pos.ne
      have hcomma : ∀ piece ∈ pieces, ',' ∉ piece :=
        ((List.forall₂_and_left pieces words).1
          (hlanes.imp fun _ _ h => ⟨h.not_mem_comma, h⟩)).1
      refine ⟨_, words, laneTexts?_of_pieces ht hne hcomma, by rwa [List.length_map], ?_, rfl⟩
      rw [List.forall₂_map_left_iff]
      exact hlanes.imp fun _ _ => (laneText_iff hkind).1

/-- **The reader of integer elements takes their texts, with any blanks around them.** -/
theorem ofText?_eq_some_iff (hkind : t.kind.isFloat = false) {text : List Char}
    {bytes : List UInt8} :
    ofText? t text = some bytes ↔ ∃ s, Denotes t s bytes ∧ Text.Padded s text := by
  rw [ofText?_eq_some_iff_denotes_trim hkind]
  constructor
  · intro h
    exact ⟨_, h, Text.padded_trim text⟩
  · rintro ⟨s, h, hpadded⟩
    obtain ⟨htight, hne⟩ := h.isTight
    rwa [(Text.trim_eq_iff htight hne).2 hpadded]

/-- **The texts of integer elements.** For a type of integers or of truth values, a text is read as
    bytes exactly where it denotes them, with any blanks around it: a literal that the kind has,
    or as many of them as the type has lanes in parentheses, with commas between and blanks around
    each. For any other text the failure names the text as it is and the type. -/
theorem parse_iff_denotes (hkind : t.kind.isFloat = false) (s : String) :
    (∀ bytes, parse t s = .ok bytes ↔
      ∃ element, Denotes t element bytes ∧ Text.Padded element s.toList) ∧
    ∀ e, parse t s = .error e ↔ e = .unreadableValue s t.name ∧
      ¬∃ bytes element, Denotes t element bytes ∧ Text.Padded element s.toList := by
  simp only [← ofText?_eq_some_iff hkind, parse]
  cases ofText? t s.toList with
  | some bytes => simp
  | none => simp [eq_comm]

/-- Signs, leading zeros and both ends of the range, with blanks of several kinds; the fourth lane
    is the one that pads a vector of three. Without it the text is refused. -/
theorem parse_iff_denotes_char3 :
    let t : ElementType := ⟨.char, .three, by decide⟩
    t.kind.isFloat = false ∧
    (∃ element, Denotes t element [0x07, 0x80, 0x00, 0x7f] ∧
      Text.Padded element "\t( +007 ,-128,\u3000-0, 127)\n".toList) ∧
    ¬∃ bytes element, Denotes t element bytes ∧ Text.Padded element "(7, 8, 9)".toList := by
  intro t
  have hkind : t.kind.isFloat = false := rfl
  refine ⟨hkind, ((parse_iff_denotes hkind _).1 _).1 (by decide),
    (((parse_iff_denotes hkind "(7, 8, 9)").2 (.unreadableValue "(7, 8, 9)" "char3")).1 ?_).2⟩
  decide

end KernelDiff.Element
