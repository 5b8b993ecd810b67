import KernelDiff.Proofs.Json.Layout

namespace KernelDiff.Json

/-!
# What the machine has read

The machine over characters is always behind whole tokens and the beginning of a further one. So a
text that it accepts is made of the texts of its tokens.

* `NumberPart.Reads`, `Escape.Reads`, `LexMode.Reads` — the beginnings of tokens;
* `Lexer.Reads`, `Lexer.Reads.step` — what a machine has read, and what one more character adds;
* `laid_of_lex` — a text that is cut into tokens is made of their texts.
-/

/-! ### The beginnings of tokens -/

/-- The beginning of a number, and the value of its whole digits where nothing stands behind
    them. -/
inductive NumberPart.Reads (negative : Bool) : NumberPart → Nat → List Char → Prop
  | minus (isNegative : negative) : Reads negative .minus 0 ['-']
  | zero : Reads negative .zero 0 (minusIf negative ++ ['0'])
  | digits {c : Char} {ds : List Char} (isDigit : c.isDigit) (ne_zero : c ≠ '0')
      (rest : ∀ d ∈ ds, d.isDigit) : Reads negative .digits (Nat.ofDigitChars 10 (c :: ds) 0)
        (minusIf negative ++ c :: ds)
  | point {whole : List Char} {value : Nat} (isWhole : IsWhole whole) :
      Reads negative .point value (minusIf negative ++ whole ++ ['.'])
  | fraction {whole ds : List Char} {value : Nat} (isWhole : IsWhole whole)
      (isDigits : Text.IsDigits ds) :
      Reads negative .fraction value (minusIf negative ++ whole ++ '.' :: ds)
  | exponent {whole fraction : List Char} {letter : Char} {value : Nat} (isWhole : IsWhole whole)
      (isFraction : IsFraction fraction) (isLetter : IsExponentLetter letter) :
      Reads negative .exponent value (minusIf negative ++ whole ++ fraction ++ [letter])
  | exponentSign {whole fraction : List Char} {letter sign : Char} {value : Nat}
      (isWhole : IsWhole whole) (isFraction : IsFraction fraction)
      (isLetter : IsExponentLetter letter) (isSign : sign = '+' ∨ sign = '-') :
      Reads negative .exponentSign value (minusIf negative ++ whole ++ fraction ++ [letter, sign])
  | exponentDigits {whole fraction sign ds : List Char} {letter : Char} {value : Nat}
      (isWhole : IsWhole whole) (isFraction : IsFraction fraction)
      (isLetter : IsExponentLetter letter) (isSign : IsExponentSign sign)
      (isDigits : Text.IsDigits ds) :
      Reads negative .exponentDigits value
        (minusIf negative ++ whole ++ fraction ++ letter :: (sign ++ ds))

/-- The beginning of a piece that is an escape. -/
inductive Escape.Reads : Escape → List Char → Prop
  | none : Reads .none []
  | start : Reads .start ['\\']
  | unicode {cs : List Char} {ds : List Nat} {left : Nat}
      (digits : List.Forall₂ (fun c d => hexDigit? c = some d) cs ds)
      (four : ds.length + left = 3) : Reads (.unicode left (hexValue ds)) ('\\' :: 'u' :: cs)

/-- The beginning of a token. -/
inductive LexMode.Reads : LexMode → List Char → Prop
  | between : Reads .between []
  | word {next : Char} {left w : List Char} {v : Json} (isWord : IsWord (w ++ next :: left) v) :
      Reads (.word next left v) w
  | number {part : NumberPart} {negative : Bool} {value : Nat} {w : List Char}
      (reads : part.Reads negative value w) : Reads (.number part negative value) w
  | string {e : Escape} {us : List (Char ⊕ Nat)} {s w : List Char} (pieces : Pieces s us)
      (reads : e.Reads w) :
      Reads (.string { us.foldl PartialText.add {} with escape := e }) ('"' :: (s ++ w))

/-- What a machine has read: the texts of its tokens, and the beginning of a further one. -/
inductive Lexer.Reads : Lexer → List Char → Prop
  | intro {ws : List (List Char)} {ts : List Token} {mode : LexMode} {s w : List Char}
      (laid : Laid ws s) (spells : List.Forall₂ Spells ws ts.reverse) (begun : mode.Reads w) :
      Reads ⟨ts, mode⟩ (s ++ w)

variable {c : Char} {w s : List Char} {ws : List (List Char)} {ts : List Token}

/-! ### Numbers -/

variable {negative : Bool} {part next : NumberPart} {value : Nat}

theorem isDigits_concat {ds : List Char} (hds : ∀ d ∈ ds, d.isDigit) (hc : c.isDigit) :
    Text.IsDigits (ds ++ [c]) := by
  refine ⟨by simp, fun d hd => ?_⟩
  rcases List.mem_append.1 hd with hd | hd
  · exact hds d hd
  · rw [List.mem_singleton.1 hd]
    exact hc

theorem isDigits_singleton (hc : c.isDigit) : Text.IsDigits [c] :=
  isDigits_concat (fun _ hd => absurd hd List.not_mem_nil) hc

theorem ofDigitChars_concat (ds : List Char) (c : Char) :
    Nat.ofDigitChars 10 (ds ++ [c]) 0 = Nat.ofDigitChars 10 ds 0 * 10 + (c.toNat - '0'.toNat) := by
  rw [Nat.ofDigitChars_append, Nat.ofDigitChars_cons, Nat.mul_comm]
  rfl

/-- The letter of an exponent behind whole digits. -/
theorem NumberPart.Reads.letter {whole : List Char} (h : IsWhole whole)
    (hc : IsExponentLetter c) :
    NumberPart.Reads negative .exponent value (minusIf negative ++ whole ++ [c]) := by
  have hreads : NumberPart.Reads negative .exponent value
      (minusIf negative ++ whole ++ [] ++ [c]) := .exponent h .none hc
  rw [List.append_nil] at hreads
  exact hreads

/-- **One more character of a number.** -/
theorem NumberPart.Reads.step (h : part.Reads negative value w) (hnext : part.next? c = some next) :
    next.Reads negative (if next = .digits then value * 10 + (c.toNat - '0'.toNat) else value)
      (w ++ [c]) := by
  cases h with
  | minus isNegative =>
    subst isNegative
    simp only [next?] at hnext
    split_ifs at hnext with hzero hdigit <;> cases hnext
    · subst hzero
      exact .zero
    · have hvalue : Nat.ofDigitChars 10 [c] 0 = 0 * 10 + (c.toNat - '0'.toNat) :=
        ofDigitChars_concat [] c
      rw [if_pos rfl, ← hvalue]
      exact .digits hdigit hzero fun _ hd => absurd hd List.not_mem_nil
  | zero =>
    simp only [next?] at hnext
    split_ifs at hnext with hpoint hletter <;> cases hnext
    · subst hpoint
      exact .point .zero
    · exact .letter .zero hletter
  | @digits first ds isDigit ne_zero rest =>
    simp only [next?] at hnext
    split_ifs at hnext with hdigit hpoint hletter <;> cases hnext
    · rw [if_pos rfl, ← ofDigitChars_concat, List.append_assoc]
      exact .digits isDigit ne_zero (isDigits_concat rest hdigit).isDigit
    · subst hpoint
      exact .point (.digits isDigit ne_zero rest)
    · exact .letter (.digits isDigit ne_zero rest) hletter
  | point isWhole =>
    simp only [next?] at hnext
    split_ifs at hnext with hdigit
    cases hnext
    rw [List.append_assoc]
    exact .fraction isWhole (isDigits_singleton hdigit)
  | fraction isWhole isDigits =>
    simp only [next?] at hnext
    split_ifs at hnext with hdigit hletter <;> cases hnext
    · rw [List.append_assoc]
      exact .fraction isWhole (isDigits_concat isDigits.isDigit hdigit)
    · exact .exponent isWhole (.digits isDigits) hletter
  | exponent isWhole isFraction isLetter =>
    simp only [next?] at hnext
    split_ifs at hnext with hsign hdigit <;> cases hnext
    · rw [List.append_assoc]
      exact .exponentSign isWhole isFraction isLetter hsign
    · rw [List.append_assoc]
      exact .exponentDigits isWhole isFraction isLetter .none (isDigits_singleton hdigit)
  | exponentSign isWhole isFraction isLetter isSign =>
    simp only [next?] at hnext
    split_ifs at hnext with hdigit
    cases hnext
    rw [List.append_assoc]
    exact .exponentDigits isWhole isFraction isLetter (.sign isSign)
      (isDigits_singleton hdigit)
  | exponentDigits isWhole isFraction isLetter isSign isDigits =>
    simp only [next?] at hnext
    split_ifs at hnext with hdigit
    cases hnext
    have hreads : NumberPart.Reads negative .exponentDigits value _ :=
      .exponentDigits isWhole isFraction isLetter isSign
        (isDigits_concat isDigits.isDigit hdigit)
    show NumberPart.Reads negative .exponentDigits value _
    simpa only [List.append_assoc, List.cons_append] using hreads

/-- A number may end where its parts are complete. -/
theorem NumberPart.Reads.number (h : part.Reads negative value w) (hend : part.mayEnd) :
    Number w (part.finish negative value) := by
  cases h with
  | minus | point | exponent | exponentSign => cases hend
  | zero =>
    cases negative with
    | false => exact .integer .zero (fun h => absurd h Bool.false_ne_true)
    | true => exact .minusZero
  | digits isDigit ne_zero rest =>
    refine .integer (.digits isDigit ne_zero rest) fun _ hzero => ?_
    exact ne_zero (List.cons.inj hzero).1
  | fraction isWhole isDigits =>
    have hnumber : Number (minusIf negative ++ _ ++ _ ++ []) .real :=
      .real isWhole (.digits isDigits) .none (.inl (List.cons_ne_nil _ _))
    rw [List.append_nil] at hnumber
    exact hnumber
  | exponentDigits isWhole isFraction isLetter isSign isDigits =>
    exact .real isWhole isFraction (.digits isLetter isSign isDigits)
      (.inr (List.cons_ne_nil _ _))

/-! ### Strings -/

theorem PartialText.with_escape {p : PartialText} {e : Escape} (h : p.escape = e) :
    { p with escape := e } = p := by
  subst h
  rfl

/-- Behind a whole piece no further one has begun. -/
theorem LexMode.Reads.piece {us : List (Char ⊕ Nat)} {u : Char ⊕ Nat} (pieces : Pieces s us)
    (last : Piece w u) :
    LexMode.Reads (.string ((us.foldl PartialText.add {}).add u)) ('"' :: (s ++ w)) := by
  have hreads := LexMode.Reads.string (pieces.append last) .none
  rw [List.append_nil, List.foldl_append] at hreads
  rw [← PartialText.with_escape (PartialText.escape_add _ u)]
  exact hreads

variable {mode : LexMode} {l l' : Lexer} {t : Token}

theorem forall₂_spells_concat (spells : List.Forall₂ Spells ws ts.reverse) (h : Spells w t) :
    List.Forall₂ Spells (ws ++ [w]) (t :: ts).reverse := by
  rw [List.reverse_cons]
  exact List.rel_append spells (.cons h .nil)

/-- A whole token behind others. -/
theorem Lexer.Reads.emit (laid : Laid ws s) (spells : List.Forall₂ Spells ws ts.reverse)
    (h : Spells w t) : Lexer.Reads ⟨t :: ts, .between⟩ (s ++ w) := by
  have hreads := Lexer.Reads.intro (laid.concat w) (forall₂_spells_concat spells h) .between
  rw [List.append_nil] at hreads
  exact hreads

/-- One more character of a string literal. -/
theorem Lexer.Reads.stepString {us : List (Char ⊕ Nat)} {e : Escape} {inside : List Char}
    (laid : Laid ws s) (spells : List.Forall₂ Spells ws ts.reverse) (pieces : Pieces inside us)
    (reads : e.Reads w)
    (hstep : Lexer.step ⟨ts, .string { us.foldl PartialText.add {} with escape := e }⟩ c =
      some l') : l'.Reads (s ++ '"' :: (inside ++ w) ++ [c]) := by
  rw [List.append_assoc, List.cons_append, List.append_assoc]
  cases reads with
  | none =>
    rw [PartialText.with_escape (escape_foldl_add us)] at hstep
    simp only [Lexer.step, Lexer.stepString, escape_foldl_add] at hstep
    -- The character ends the literal, begins an escape or is a piece by itself.
    split_ifs at hstep with hquote hbackslash hcontrol <;> cases hstep
    · subst hquote
      rw [finish_pieces]
      exact .emit laid spells (.literal pieces)
    · subst hbackslash
      exact .intro laid spells (.string pieces .start)
    · exact .intro laid spells (.piece pieces (.plain hquote hbackslash (by omega)))
  | start =>
    simp only [Lexer.step, Lexer.stepString] at hstep
    split_ifs at hstep with hu
    · cases hstep
      subst hu
      exact .intro laid spells (.string pieces (.unicode .nil rfl))
    · obtain ⟨d, hd, rfl⟩ := Option.map_eq_some_iff.1 hstep
      exact .intro laid spells (.piece pieces (.letter hd))
  | @unicode cs ds left digits four =>
    obtain ⟨d, hd, _⟩ := Option.map_eq_some_iff.1 hstep
    have hdigits : List.Forall₂ (fun c d => hexDigit? c = some d) (cs ++ [c]) (ds ++ [d]) :=
      List.rel_append digits (.cons hd .nil)
    have hlength : (ds ++ [d]).length = ds.length + 1 := List.length_append
    have hvalue : hexValue ds * 16 + d = hexValue (ds ++ [d]) := by
      rw [hexValue, hexValue, List.foldl_append]
      rfl
    rw [step_unit hd, hvalue] at hstep
    -- The fourth digit completes the code unit.
    cases left with
    | zero =>
      cases hstep
      exact .intro laid spells (.piece pieces (.unit hdigits (by omega)))
    | succ left =>
      cases hstep
      exact .intro laid spells (.string pieces (.unicode hdigits (by omega)))

/-- One more character behind whole tokens. -/
theorem Lexer.Reads.stepBetween (laid : Laid ws s) (spells : List.Forall₂ Spells ws ts.reverse)
    (hstep : Lexer.stepBetween ⟨ts, mode⟩ c = some l') : l'.Reads (s ++ [c]) := by
  unfold Lexer.stepBetween at hstep
  split_ifs at hstep with hspace
  · cases hstep
    have hreads := Lexer.Reads.intro (laid.concat_space hspace) spells .between
    rw [List.append_nil] at hreads
    exact hreads
  · split at hstep
    -- The marks are tokens at once; every other token goes on behind its first character.
    · cases hstep
      exact .emit laid spells .openObject
    · cases hstep
      exact .emit laid spells .closeObject
    · cases hstep
      exact .emit laid spells .openArray
    · cases hstep
      exact .emit laid spells .closeArray
    · cases hstep
      exact .emit laid spells .colon
    · cases hstep
      exact .emit laid spells .comma
    · cases hstep
      exact .intro laid spells (.string .nil .none)
    · cases hstep
      exact .intro laid spells (.word .null)
    · cases hstep
      exact .intro laid spells (.word .true)
    · cases hstep
      exact .intro laid spells (.word .false)
    · cases hstep
      exact .intro laid spells (.number (.minus rfl))
    · cases hstep
      exact .intro laid spells (.number .zero)
    · next hzero =>
      split_ifs at hstep with hdigit
      cases hstep
      have hvalue : c.toNat - '0'.toNat = Nat.ofDigitChars 10 [c] 0 := by
        rw [Nat.ofDigitChars_cons, Nat.mul_zero, Nat.zero_add, Nat.ofDigitChars_nil]
      rw [hvalue]
      exact .intro laid spells
        (.number (.digits hdigit hzero fun _ hd => absurd hd List.not_mem_nil))

/-- **What one more character adds.** -/
theorem Lexer.Reads.step (h : l.Reads s) (hstep : l.step c = some l') : l'.Reads (s ++ [c]) := by
  obtain ⟨laid, spells, begun⟩ := h
  cases begun with
  | between =>
    rw [List.append_nil]
    exact .stepBetween laid spells hstep
  | @word next left w v isWord =>
    simp only [Lexer.step] at hstep
    split_ifs at hstep with hc
    subst hc
    rw [List.append_assoc]
    cases left with
    | nil =>
      cases hstep
      exact .emit laid spells (.word isWord)
    | cons d left =>
      cases hstep
      refine .intro laid spells (.word ?_)
      rw [List.append_assoc]
      exact isWord
  | @number part negative value w reads =>
    simp only [Lexer.step] at hstep
    split at hstep
    · next hnext =>
      cases hstep
      rw [List.append_assoc]
      exact .intro laid spells (.number (reads.step hnext))
    · -- The character ends the number and stands behind it.
      split_ifs at hstep with hend
      exact .stepBetween (laid.concat _)
        (forall₂_spells_concat spells (.number (reads.number hend))) hstep
  | string pieces reads => exact .stepString laid spells pieces reads hstep

theorem Lexer.Reads.foldlM (h : l.Reads s) {s' : List Char}
    (hrun : s'.foldlM Lexer.step l = some l') : l'.Reads (s ++ s') := by
  induction s' generalizing l s with
  | nil =>
    cases hrun
    rw [List.append_nil]
    exact h
  | cons c s' ih =>
    obtain ⟨next, hstep, hrest⟩ := Option.bind_eq_some_iff.1 hrun
    rw [← List.singleton_append, ← List.append_assoc]
    exact ih (h.step hstep) hrest

/-- What a machine has read when its text ends. -/
theorem Lexer.Reads.finish (h : l.Reads s) (hfinish : l.finish = some ts) :
    ∃ ws, Laid ws s ∧ List.Forall₂ Spells ws ts := by
  obtain ⟨laid, spells, begun⟩ := h
  cases begun with
  | between =>
    cases hfinish
    rw [List.append_nil]
    exact ⟨_, laid, spells⟩
  | word | string => cases hfinish
  | number reads =>
    simp only [Lexer.finish] at hfinish
    split_ifs at hfinish with hend
    cases hfinish
    exact ⟨_, laid.concat _, forall₂_spells_concat spells (.number (reads.number hend))⟩

/-- **A text that is cut into tokens is made of their texts.** -/
theorem laid_of_lex (h : lex s = some ts) : ∃ ws, Laid ws s ∧ List.Forall₂ Spells ws ts := by
  obtain ⟨l, hrun, hfinish⟩ := Option.bind_eq_some_iff.1 h
  have hreads : Lexer.Reads {} [] := .intro .nil .nil .between
  exact (hreads.foldlM hrun).finish hfinish

end KernelDiff.Json
