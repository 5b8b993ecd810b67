import KernelDiff.Json.Lexer
import KernelDiff.Json.Printer
import KernelDiff.Proofs.Text.Integer
import Mathlib.Tactic.SplitIfs

namespace KernelDiff.Json

/-!
# What is written is cut into the tokens of the value

The tokens of a value do not depend on how it is laid out. A number is the only token whose end
shows in the character behind it, so a written value is followed up to the next character at which
every number ends; then the machine is between tokens again, with the tokens of the value.

* `tokens` — the tokens of a value;
* `Lexes` — a text is cut into tokens, whatever stands around it;
* `lexes_ofInt`, `lexes_quoteText` — the texts of single tokens;
* `lexes_prettyChars`, `lexes_compactChars` — the text of a value on several lines, and without
  white space;
* `lex_of_lexes` — such a text alone.
-/

/-! ### The tokens of values -/

mutual

/-- The tokens of a value. -/
def tokens : Json → List Token
  | array items => .openArray :: (itemTokens items ++ [.closeArray])
  | object members => .openObject :: (memberTokens members ++ [.closeObject])
  | text s => [.text s]
  | v => [.atom v]

/-- The tokens of items with commas between them. -/
def itemTokens : List Json → List Token
  | [] => []
  | [v] => tokens v
  | v :: w :: vs => tokens v ++ .comma :: itemTokens (w :: vs)

/-- The tokens of members with commas between them. -/
def memberTokens : List (JsonText × Json) → List Token
  | [] => []
  | [(k, v)] => .text k :: .colon :: tokens v
  | (k, v) :: m :: ms => .text k :: .colon :: (tokens v ++ .comma :: memberTokens (m :: ms))

end

/-! ### Texts between tokens -/

/-- A character at which every number ends. -/
def IsBoundary (c : Char) : Prop :=
  ∀ part : NumberPart, part.mayEnd → part.next? c = none

theorem isBoundary_of {c : Char} (hdigit : c.isDigit = false) (hpoint : c ≠ '.') (he : c ≠ 'e')
    (hE : c ≠ 'E') : IsBoundary c := by
  intro part hend
  cases part <;> simp [NumberPart.mayEnd] at hend <;>
    simp [NumberPart.next?, hdigit, hpoint, he, hE]

/-- The text is cut into the tokens, whatever tokens stand in front of it, if a character at which
    numbers end stands behind it. -/
def Lexes (s : List Char) (ts : List Token) : Prop :=
  ∀ (before : List Token) (c : Char) (rest : List Char), IsBoundary c →
    (s ++ c :: rest).foldlM Lexer.step ⟨before, .between⟩ =
      (c :: rest).foldlM Lexer.step ⟨ts.reverse ++ before, .between⟩

variable {s s' : List Char} {ts ts' : List Token} {c : Char}

theorem lexes_nil : Lexes [] [] :=
  fun _ _ _ _ => rfl

theorem foldlM_of_step {l l' : Lexer} {rest : List Char} (h : l.step c = some l') :
    (c :: rest).foldlM Lexer.step l = rest.foldlM Lexer.step l' := by
  rw [List.foldlM_cons, h]
  rfl

/-- Two texts in a row, where the second begins with a character at which numbers end. -/
theorem Lexes.append (h : Lexes s ts) (hc : IsBoundary c) (h' : Lexes (c :: s') ts') :
    Lexes (s ++ c :: s') (ts ++ ts') := by
  intro before d rest hd
  rw [List.append_assoc, List.cons_append, h before c _ hc, ← List.cons_append, h' _ d rest hd,
    List.reverse_append, List.append_assoc]

/-- A character that is a token. -/
theorem Lexes.cons {t : Token}
    (ht : ∀ before, Lexer.step ⟨before, .between⟩ c = some ⟨t :: before, .between⟩)
    (h : Lexes s ts) : Lexes (c :: s) (t :: ts) := by
  intro before d rest hd
  rw [List.cons_append, foldlM_of_step (ht before), h _ d rest hd, List.reverse_cons,
    List.append_assoc, List.singleton_append]

/-- White space in front of tokens. -/
theorem Lexes.space (hc : isSpace c) (h : Lexes s ts) : Lexes (c :: s) ts := by
  intro before d rest hd
  have hstep : Lexer.step ⟨before, .between⟩ c = some ⟨before, .between⟩ := if_pos hc
  rw [List.cons_append, foldlM_of_step hstep, h _ d rest hd]

theorem Lexes.newline (h : Lexes s ts) (level : Nat) : Lexes (newline level ++ s) ts := by
  refine Lexes.space (by decide) ?_
  induction 2 * level with
  | zero => exact h
  | succ blanks ih => exact Lexes.space (by decide) ih

/-! ### Numbers -/

/-- At a boundary a number is a token. -/
theorem foldlM_number {part : NumberPart} (hpart : part.mayEnd) (hc : IsBoundary c)
    {before : List Token} {negative : Bool} {value : Nat} {rest : List Char} :
    (c :: rest).foldlM Lexer.step ⟨before, .number part negative value⟩ =
      (c :: rest).foldlM Lexer.step ⟨.atom (part.finish negative value) :: before, .between⟩ := by
  rw [List.foldlM_cons, List.foldlM_cons]
  simp [Lexer.step, hc part hpart, hpart, Lexer.emit]

/-- Digits add to the value of a number. -/
theorem foldlM_digits (hs : ∀ c ∈ s, c.isDigit) {before : List Token} {negative : Bool}
    {value : Nat} {rest : List Char} :
    (s ++ rest).foldlM Lexer.step ⟨before, .number .digits negative value⟩ =
      rest.foldlM Lexer.step ⟨before, .number .digits negative (Nat.ofDigitChars 10 s value)⟩ := by
  induction s generalizing value with
  | nil => rfl
  | cons c s ih =>
    have hdigit : c.isDigit := hs c (by simp)
    have hstep : Lexer.step ⟨before, .number .digits negative value⟩ c =
        some ⟨before, .number .digits negative (10 * value + (c.toNat - '0'.toNat))⟩ := by
      simp [Lexer.step, NumberPart.next?, hdigit, Nat.mul_comm]
    rw [List.cons_append, foldlM_of_step hstep, ih fun d hd => hs d (by simp [hd]),
      Nat.ofDigitChars_cons]

/-- A positive number begins with a digit that is not zero. -/
theorem exists_ofNat_eq_cons {n : Nat} (hn : 0 < n) :
    ∃ c s, Text.ofNat n = c :: s ∧ c ≠ '0' := by
  induction n using Nat.strongRecOn with
  | ind n ih =>
    by_cases hsmall : n < 10
    · refine ⟨n.digitChar, [], Nat.toDigits_of_lt_base hsmall, ?_⟩
      have hchars : ∀ n < 10, 0 < n → Nat.digitChar n ≠ '0' := by decide
      exact hchars n hsmall hn
    · obtain ⟨c, s, hs, hc⟩ := ih (n / 10) (by omega) (by omega)
      refine ⟨c, s ++ [(n % 10).digitChar], ?_, hc⟩
      have hlast := Nat.toDigits_of_base_le (b := 10) (by decide) (show 10 ≤ n by omega)
      unfold Text.ofNat at hs ⊢
      rw [hlast, hs, List.cons_append]

theorem step_digit (hdigit : c.isDigit) (hc : c ≠ '0') (before : List Token) :
    Lexer.step ⟨before, .between⟩ c =
      some ⟨before, .number .digits false (c.toNat - '0'.toNat)⟩ := by
  have hne (d : Char) (hd : d.isDigit = false) : c ≠ d := by
    rintro rfl
    simp [hdigit] at hd
  have hspace : isSpace c = false := by
    simp [isSpace, hne ' ' (by decide), hne '\t' (by decide), hne '\n' (by decide),
      hne '\r' (by decide)]
  show Lexer.stepBetween _ c = _
  unfold Lexer.stepBetween
  rw [if_neg (by simp [hspace])]
  split <;> first | exact absurd rfl hc | exact absurd hdigit (by decide) | simp [hdigit]

theorem step_digit_of_minus (hdigit : c.isDigit) (hc : c ≠ '0') (before : List Token) :
    Lexer.step ⟨before, .number .minus true 0⟩ c =
      some ⟨before, .number .digits true (c.toNat - '0'.toNat)⟩ := by
  simp [Lexer.step, NumberPart.next?, hdigit, hc]

/-- Where a digit other than zero begins a number, the text of a positive number is one. -/
theorem foldlM_ofNat {n : Nat} (hn : 0 < n) {l : Lexer} {before : List Token} {negative : Bool}
    (hl : ∀ c : Char, c.isDigit → c ≠ '0' →
      l.step c = some ⟨before, .number .digits negative (c.toNat - '0'.toNat)⟩)
    (hc : IsBoundary c) {rest : List Char} :
    (Text.ofNat n ++ c :: rest).foldlM Lexer.step l =
      (c :: rest).foldlM Lexer.step
        ⟨.atom (.integer (if negative then -(n : Int) else n)) :: before, .between⟩ := by
  obtain ⟨first, s, hs, hfirst⟩ := exists_ofNat_eq_cons hn
  have hdigits : ∀ d ∈ first :: s, d.isDigit := by
    intro d hd
    rw [← hs] at hd
    exact Text.isDigit_of_mem_ofNat hd
  have hvalue : Nat.ofDigitChars 10 s (first.toNat - '0'.toNat) = n := by
    have hwhole := Text.ofDigitChars_ofNat n
    rw [hs, Nat.ofDigitChars_cons, Nat.mul_zero, Nat.zero_add] at hwhole
    exact hwhole
  rw [hs, List.cons_append, foldlM_of_step (hl first (hdigits first (by simp)) hfirst),
    foldlM_digits fun d hd => hdigits d (by simp [hd]), foldlM_number rfl hc, hvalue]
  rfl

/-- A written integer is one token. -/
theorem lexes_ofInt (i : Int) : Lexes (Text.ofInt i) [.atom (.integer i)] := by
  intro before d rest hd
  unfold Text.ofInt
  rcases Int.lt_trichotomy i 0 with hneg | rfl | hpos
  · have hminus : Lexer.step ⟨before, .between⟩ '-' = some ⟨before, .number .minus true 0⟩ := rfl
    have hinteger : -(i.natAbs : Int) = i := by omega
    rw [if_pos hneg, List.cons_append, foldlM_of_step hminus,
      foldlM_ofNat (by omega) (fun c hdigit hc => step_digit_of_minus hdigit hc before) hd,
      if_pos rfl, hinteger]
    rfl
  · have hzero : NumberPart.zero.mayEnd := rfl
    exact foldlM_number hzero hd
  · have hinteger : (i.natAbs : Int) = i := by omega
    rw [if_neg (by omega), foldlM_ofNat (by omega)
      (fun c hdigit hc => step_digit hdigit hc before) hd, if_neg Bool.false_ne_true, hinteger]
    rfl

theorem lexes_real : Lexes (atomText .real) [.atom .real] := by
  intro before d rest hd
  have hzero : NumberPart.zero.mayEnd := rfl
  have hstart : (atomText .real).foldlM Lexer.step ⟨before, .between⟩ =
      some ⟨before, .number .zero true 0⟩ := rfl
  rw [List.foldlM_append, hstart, Option.bind_eq_bind, Option.bind_some, foldlM_number hzero hd]
  rfl

/-! ### Strings -/

/-- A character stands for itself, or behind a backslash as a letter or as a number. -/
theorem escapeChar_cases (c : Char) :
    (∃ letter, escapeChar c = ['\\', letter] ∧ letter ≠ 'u' ∧ escaped? letter = some c) ∨
    (escapeChar c = ['\\', 'u', '0', '0', hexDigit (c.toNat / 16), hexDigit (c.toNat % 16)] ∧
      c.toNat < 0x20) ∨
    (escapeChar c = [c] ∧ c ≠ '"' ∧ c ≠ '\\' ∧ 0x20 ≤ c.toNat) := by
  unfold escapeChar
  split_ifs with hquote hbackslash hb hf hn hr ht hcontrol
  · exact .inl ⟨'"', rfl, by decide, by rw [hquote]; rfl⟩
  · exact .inl ⟨'\\', rfl, by decide, by rw [hbackslash]; rfl⟩
  · exact .inl ⟨'b', rfl, by decide, by rw [hb]; rfl⟩
  · exact .inl ⟨'f', rfl, by decide, by rw [hf]; rfl⟩
  · exact .inl ⟨'n', rfl, by decide, by rw [hn]; rfl⟩
  · exact .inl ⟨'r', rfl, by decide, by rw [hr]; rfl⟩
  · exact .inl ⟨'t', rfl, by decide, by rw [ht]; rfl⟩
  · exact .inr (.inl ⟨rfl, hcontrol⟩)
  · exact .inr (.inr ⟨rfl, hquote, hbackslash, by omega⟩)

theorem hexDigit?_hexDigit {n : Nat} (h : n < 16) : hexDigit? (hexDigit n) = some n := by
  have hall : ∀ n < 16, hexDigit? (hexDigit n) = some n := by decide
  exact hall n h

/-- A character comes back from its escape. -/
theorem foldlM_escapeChar (c : Char) {before : List Token} {chars rest : List Char} :
    (escapeChar c ++ rest).foldlM Lexer.step ⟨before, .string { chars := chars }⟩ =
      rest.foldlM Lexer.step ⟨before, .string { chars := c :: chars }⟩ := by
  rcases escapeChar_cases c with ⟨letter, hescape, hu, hletter⟩ | ⟨hescape, hcontrol⟩ |
    ⟨hescape, hquote, hbackslash, hplain⟩
  · rw [hescape]
    simp [Lexer.step, Lexer.stepString, hu, hletter, PartialText.push]
  · have hfirst := hexDigit?_hexDigit (n := c.toNat / 16) (by omega)
    have hsecond := hexDigit?_hexDigit (n := c.toNat % 16) (by omega)
    have hzero : hexDigit? '0' = some 0 := by decide
    have hunit : c.toNat / 16 * 16 + c.toNat % 16 = c.toNat := Nat.div_add_mod' _ _
    have hlow : ¬(0xDC00 ≤ c.toNat ∧ c.toNat < 0xE000) := by omega
    have hhigh : ¬(0xD800 ≤ c.toNat ∧ c.toNat < 0xDC00) := by omega
    rw [hescape]
    simp [Lexer.step, Lexer.stepString, hzero, hfirst, hsecond, hunit, PartialText.pushUnit,
      PartialText.push, hlow, hhigh]
  · have hraw : ¬c.toNat < 0x20 := by omega
    rw [hescape]
    simp [Lexer.step, Lexer.stepString, hquote, hbackslash, hraw, PartialText.push]

theorem foldlM_escaped (s : List Char) {before : List Token} {chars rest : List Char} :
    (s.flatMap escapeChar ++ rest).foldlM Lexer.step ⟨before, .string { chars := chars }⟩ =
      rest.foldlM Lexer.step ⟨before, .string { chars := s.reverse ++ chars }⟩ := by
  induction s generalizing chars with
  | nil => rfl
  | cons c s ih =>
    rw [List.flatMap_cons, List.append_assoc, foldlM_escapeChar, ih, List.reverse_cons,
      List.append_assoc, List.singleton_append]

/-- A literal is one token, also the literal of what is no text. -/
theorem lexes_quoteText (s : JsonText) : Lexes (quoteText s) [.text s] := by
  intro before d rest _
  cases s with
  | none =>
    -- The half of a pair waits for the other one when the literal ends.
    have hstart : "\"\\ud80".toList.foldlM Lexer.step ⟨before, .between⟩ =
        some ⟨before, .string { escape := .unicode 0 0xD80 }⟩ := rfl
    have hzero : hexDigit? '0' = some 0 := by decide
    have hhigh : Lexer.step ⟨before, .string { escape := .unicode 0 0xD80 }⟩ '0' =
        some ⟨before, .string { high := some 0xD800 }⟩ := by
      simp [Lexer.step, Lexer.stepString, PartialText.pushUnit, hzero]
    have hclose : Lexer.step ⟨before, .string { high := some 0xD800 }⟩ '"' =
        some ⟨.text none :: before, .between⟩ := rfl
    have hchars : quoteText none = "\"\\ud80".toList ++ ['0', '"'] := by decide
    rw [hchars, List.append_assoc, List.foldlM_append, hstart, Option.bind_eq_bind,
      Option.bind_some, List.cons_append, foldlM_of_step hhigh, List.cons_append,
      foldlM_of_step hclose]
    rfl
  | some s =>
    have hopen : Lexer.step ⟨before, .between⟩ '"' = some ⟨before, .string {}⟩ := rfl
    have hclose : Lexer.step ⟨before, .string { chars := s.toList.reverse }⟩ '"' =
        some ⟨.text (some s) :: before, .between⟩ := by
      simp [Lexer.step, Lexer.stepString, Lexer.emit, PartialText.finish]
    show (quote s ++ d :: rest).foldlM _ _ = _
    rw [quote, List.cons_append, foldlM_of_step hopen, List.append_assoc, foldlM_escaped,
      List.append_nil, List.singleton_append, foldlM_of_step hclose]
    rfl

/-! ### Values -/

mutual

/-- **A value on several lines is cut into its tokens.** -/
theorem lexes_prettyChars (level : Nat) : ∀ v : Json, Lexes (prettyChars level v) (tokens v)
  | .null => fun _ _ _ _ => rfl
  | .bool true => fun _ _ _ _ => rfl
  | .bool false => fun _ _ _ _ => rfl
  | .integer i => lexes_ofInt i
  | .real => lexes_real
  | .text s => lexes_quoteText s
  | .array [] => .cons (fun _ => rfl) (.cons (fun _ => rfl) lexes_nil)
  | .array (v :: vs) => by
    have hitems := lexes_prettyItems (level + 1) (v :: vs)
    have hclose : Lexes (newline level ++ [']']) [.closeArray] :=
      Lexes.newline (.cons (fun _ => rfl) lexes_nil) level
    rw [prettyChars, tokens, List.append_assoc]
    exact .cons (fun _ => rfl) (hitems.append (isBoundary_of rfl (by decide) (by decide)
      (by decide)) hclose)
  | .object [] => .cons (fun _ => rfl) (.cons (fun _ => rfl) lexes_nil)
  | .object (m :: ms) => by
    have hmembers := lexes_prettyMembers (level + 1) (m :: ms)
    have hclose : Lexes (newline level ++ ['\x7d']) [.closeObject] :=
      Lexes.newline (.cons (fun _ => rfl) lexes_nil) level
    rw [prettyChars, tokens, List.append_assoc]
    exact .cons (fun _ => rfl) (hmembers.append (isBoundary_of rfl (by decide) (by decide)
      (by decide)) hclose)

theorem lexes_prettyItems (level : Nat) :
    ∀ items : List Json, Lexes (prettyItems level items) (itemTokens items)
  | [] => lexes_nil
  | [v] => (lexes_prettyChars level v).newline level
  | v :: w :: vs => by
    have hfirst := (lexes_prettyChars level v).newline level
    have hrest := lexes_prettyItems level (w :: vs)
    rw [prettyItems, itemTokens]
    exact hfirst.append (isBoundary_of rfl (by decide) (by decide) (by decide))
      (.cons (fun _ => rfl) hrest)

theorem lexes_prettyMembers (level : Nat) :
    ∀ members : List (JsonText × Json), Lexes (prettyMembers level members) (memberTokens members)
  | [] => lexes_nil
  | [(k, v)] => by
    have hvalue := lexes_prettyChars level v
    have hkey := lexes_quoteText k
    rw [prettyMembers, memberTokens]
    simp only [List.append_assoc]
    exact .newline (hkey.append (isBoundary_of rfl (by decide) (by decide) (by decide))
      (.cons (fun _ => rfl) (.space (by decide) hvalue))) level
  | (k, v) :: m :: ms => by
    have hvalue := lexes_prettyChars level v
    have hrest := lexes_prettyMembers level (m :: ms)
    have hkey := lexes_quoteText k
    have hmember : Lexes (prettyChars level v ++ ',' :: prettyMembers level (m :: ms))
        (tokens v ++ .comma :: memberTokens (m :: ms)) :=
      hvalue.append (isBoundary_of rfl (by decide) (by decide) (by decide))
        (.cons (fun _ => rfl) hrest)
    rw [prettyMembers, memberTokens]
    simp only [List.append_assoc]
    exact .newline (hkey.append (isBoundary_of rfl (by decide) (by decide) (by decide))
      (.cons (fun _ => rfl) (.space (by decide) hmember))) level

end

mutual

/-- **A value without white space is cut into its tokens.** -/
theorem lexes_compactChars : ∀ v : Json, Lexes (compactChars v) (tokens v)
  | .null => fun _ _ _ _ => rfl
  | .bool true => fun _ _ _ _ => rfl
  | .bool false => fun _ _ _ _ => rfl
  | .integer i => lexes_ofInt i
  | .real => lexes_real
  | .text s => lexes_quoteText s
  | .array items => by
    have hclose : Lexes [']'] [.closeArray] := .cons (fun _ => rfl) lexes_nil
    rw [compactChars, tokens]
    exact .cons (fun _ => rfl) ((lexes_compactItems items).append (isBoundary_of rfl (by decide)
      (by decide) (by decide)) hclose)
  | .object members => by
    have hclose : Lexes ['\x7d'] [.closeObject] := .cons (fun _ => rfl) lexes_nil
    rw [compactChars, tokens]
    exact .cons (fun _ => rfl) ((lexes_compactMembers members).append (isBoundary_of rfl (by decide)
      (by decide) (by decide)) hclose)

theorem lexes_compactItems : ∀ items : List Json, Lexes (compactItems items) (itemTokens items)
  | [] => lexes_nil
  | [v] => lexes_compactChars v
  | v :: w :: vs => by
    have hrest := lexes_compactItems (w :: vs)
    rw [compactItems, itemTokens]
    exact (lexes_compactChars v).append (isBoundary_of rfl (by decide) (by decide) (by decide))
      (.cons (fun _ => rfl) hrest)

theorem lexes_compactMembers :
    ∀ members : List (JsonText × Json), Lexes (compactMembers members) (memberTokens members)
  | [] => lexes_nil
  | [(k, v)] => by
    rw [compactMembers, memberTokens]
    exact (lexes_quoteText k).append (isBoundary_of rfl (by decide) (by decide) (by decide))
      (.cons (fun _ => rfl) (lexes_compactChars v))
  | (k, v) :: m :: ms => by
    have hmember := (lexes_compactChars v).append
      (isBoundary_of rfl (by decide) (by decide) (by decide))
      (.cons (c := ',') (t := .comma) (fun _ => rfl) (lexes_compactMembers (m :: ms)))
    rw [compactMembers, memberTokens]
    exact (lexes_quoteText k).append (isBoundary_of rfl (by decide) (by decide) (by decide))
      (.cons (fun _ => rfl) hmember)

end

/-- A text that is cut into tokens anywhere is cut into them alone. -/
theorem lex_of_lexes (h : Lexes s ts) : lex s = some ts := by
  have hend (c : Char) (hc : IsBoundary c) (hspace : isSpace c) :
      (s.foldlM Lexer.step {}).bind (Lexer.step · c) = some ⟨ts.reverse, .between⟩ := by
    have hboundary := h [] c [] hc
    have hstep : Lexer.step ⟨ts.reverse, .between⟩ c = some ⟨ts.reverse, .between⟩ := if_pos hspace
    rw [List.foldlM_append, List.append_nil, List.foldlM_cons, hstep] at hboundary
    simpa using hboundary
  have hblank := hend ' ' (isBoundary_of rfl (by decide) (by decide) (by decide)) (by decide)
  have hfeed := hend '\n' (isBoundary_of rfl (by decide) (by decide) (by decide)) (by decide)
  obtain ⟨⟨before, mode⟩, hrun, hblank⟩ := Option.bind_eq_some_iff.1 hblank
  rw [hrun, Option.bind_some] at hfeed
  have hlex : lex s = Lexer.finish ⟨before, mode⟩ := by
    rw [lex, hrun, Option.bind_some]
  rw [hlex]
  cases mode with
  | between =>
    have hsame : before = ts.reverse := by
      simpa [Lexer.step, Lexer.stepBetween, isSpace] using hblank
    rw [Lexer.finish, hsame, List.reverse_reverse]
  | word next left v =>
    -- No word goes on with a blank and with a line feed too.
    by_cases hnext : ' ' = next
    · subst hnext
      simp [Lexer.step] at hfeed
    · simp [Lexer.step, hnext] at hblank
  | number part negative value =>
    have hnone : part.next? ' ' = none := by
      cases part <;> rfl
    cases hpart : part.mayEnd with
    | true =>
      have htokens : .atom (part.finish negative value) :: before = ts.reverse := by
        simpa [Lexer.step, hnone, hpart, Lexer.stepBetween, isSpace, Lexer.emit] using hblank
      simp [Lexer.finish, hpart, Lexer.emit, htokens]
    | false => simp [Lexer.step, hnone, hpart] at hblank
  | string s =>
    -- No string goes on with a line feed, escaped or not.
    have hescaped : escaped? '\n' = none := by decide
    have hhex : hexDigit? '\n' = none := by decide
    cases hescape : s.escape <;>
      simp [Lexer.step, Lexer.stepString, hescape, hescaped, hhex] at hfeed

end KernelDiff.Json
