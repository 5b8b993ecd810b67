import KernelDiff.Proofs.Json.Lexing
import Mathlib.Data.List.Forall2
import Mathlib.Data.List.Induction

namespace KernelDiff.Json

/-!
# The texts of tokens

A token is written as a mark, as a word, as a number or as a string literal. A number is made of a
sign, digits, a fraction and an exponent, and a string literal of pieces, each of which is a
character or a code unit; two code units that are the halves of a pair are one character. Every such
text is cut out as its token wherever it stands.

* `Number` — the texts of numbers;
* `Piece`, `Pieces`, `denote` — what string literals are made of, and what they denote;
* `Spells` — the texts of all tokens;
* `lexes_number`, `lexes_literal` — numbers and string literals are cut out;
* `Spells.lexes` — every text of a token is cut out.
-/

/-! ### Numbers -/

/-- The sign of a number. -/
def minusIf (negative : Bool) : List Char :=
  if negative then ['-'] else []

/-- Digits, with no zero in front of others. -/
inductive IsWhole : List Char → Prop
  | zero : IsWhole ['0']
  | digits {c : Char} {ds : List Char} (isDigit : c.isDigit) (ne_zero : c ≠ '0')
      (rest : ∀ d ∈ ds, d.isDigit) : IsWhole (c :: ds)

/-- A point with digits behind it, or nothing. -/
inductive IsFraction : List Char → Prop
  | none : IsFraction []
  | digits {ds : List Char} (isDigits : Text.IsDigits ds) : IsFraction ('.' :: ds)

/-- The letter in front of an exponent. -/
def IsExponentLetter (c : Char) : Prop :=
  c = 'e' ∨ c = 'E'

/-- The sign of an exponent, which may be missing. -/
inductive IsExponentSign : List Char → Prop
  | none : IsExponentSign []
  | sign {c : Char} (isSign : c = '+' ∨ c = '-') : IsExponentSign [c]

/-- A letter with an exponent behind it, or nothing. -/
inductive IsExponent : List Char → Prop
  | none : IsExponent []
  | digits {letter : Char} {sign ds : List Char} (isLetter : IsExponentLetter letter)
      (isSign : IsExponentSign sign) (isDigits : Text.IsDigits ds) :
      IsExponent (letter :: (sign ++ ds))

/-- The text of a number and its value, of which only integers are told apart. A zero with a minus
    sign is none of them. -/
inductive Number : List Char → Json → Prop
  | integer {negative : Bool} {whole : List Char} (isWhole : IsWhole whole)
      (ne_minusZero : negative = true → whole ≠ ['0']) :
      Number (minusIf negative ++ whole) (.integer (if negative then
        -(Nat.ofDigitChars 10 whole 0 : Int) else Nat.ofDigitChars 10 whole 0))
  | minusZero : Number ['-', '0'] .real
  | real {negative : Bool} {whole fraction exponent : List Char} (isWhole : IsWhole whole)
      (isFraction : IsFraction fraction) (isExponent : IsExponent exponent)
      (ne_nil : fraction ≠ [] ∨ exponent ≠ []) :
      Number (minusIf negative ++ whole ++ fraction ++ exponent) .real

/-! ### String literals -/

/-- The number that hexadecimal digits are read as. -/
def hexValue (digits : List Nat) : Nat :=
  digits.foldl (fun value d => value * 16 + d) 0

/-- A piece of a string literal, and the character or the code unit that it stands for. -/
inductive Piece : List Char → Char ⊕ Nat → Prop
  | plain {c : Char} (ne_quote : c ≠ '"') (ne_backslash : c ≠ '\\') (not_control : 0x20 ≤ c.toNat) :
      Piece [c] (.inl c)
  | letter {letter c : Char} (stands_for : escaped? letter = some c) :
      Piece ['\\', letter] (.inl c)
  | unit {cs : List Char} {ds : List Nat}
      (digits : List.Forall₂ (fun c d => hexDigit? c = some d) cs ds) (four : ds.length = 4) :
      Piece ('\\' :: 'u' :: cs) (.inr (hexValue ds))

/-- The pieces that the inside of a string literal is made of. -/
inductive Pieces : List Char → List (Char ⊕ Nat) → Prop
  | nil : Pieces [] []
  | append {w s : List Char} {u : Char ⊕ Nat} {us : List (Char ⊕ Nat)} (rest : Pieces s us)
      (last : Piece w u) : Pieces (s ++ w) (us ++ [u])

/-- The first half of a surrogate pair. -/
def IsHigh (unit : Nat) : Prop :=
  0xD800 ≤ unit ∧ unit < 0xDC00

/-- The second half of a surrogate pair. -/
def IsLow (unit : Nat) : Prop :=
  0xDC00 ≤ unit ∧ unit < 0xE000

instance (unit : Nat) : Decidable (IsHigh unit) :=
  inferInstanceAs (Decidable (_ ∧ _))

instance (unit : Nat) : Decidable (IsLow unit) :=
  inferInstanceAs (Decidable (_ ∧ _))

/-- The character that is written as a surrogate pair. -/
def pair (high low : Nat) : Char :=
  Char.ofNat (0x10000 + (high - 0xD800) * 0x400 + (low - 0xDC00))

/-- The characters that pieces denote, where `high` is the first half of a pair that the next piece
    has to complete. A half that is left alone makes them denote nothing. -/
def denoteFrom : Option Nat → List (Char ⊕ Nat) → Option (List Char)
  | none, [] => some []
  | some _, [] => none
  | none, .inl c :: us => (denoteFrom none us).map (c :: ·)
  | some _, .inl _ :: _ => none
  | none, .inr unit :: us =>
    if IsLow unit then none
    else if IsHigh unit then denoteFrom (some unit) us
    else (denoteFrom none us).map (Char.ofNat unit :: ·)
  | some high, .inr unit :: us =>
    if IsLow unit then (denoteFrom none us).map (pair high unit :: ·) else none

/-- What pieces denote: a text, unless they leave half of a surrogate pair alone. -/
def denote (us : List (Char ⊕ Nat)) : JsonText :=
  (denoteFrom none us).map String.ofList

/-! ### All tokens -/

/-- The words that are values. -/
inductive IsWord : List Char → Json → Prop
  | null : IsWord "null".toList .null
  | true : IsWord "true".toList (.bool true)
  | false : IsWord "false".toList (.bool false)

/-- The text of a token. -/
inductive Spells : List Char → Token → Prop
  | openObject : Spells ['\x7b'] .openObject
  | closeObject : Spells ['\x7d'] .closeObject
  | openArray : Spells ['['] .openArray
  | closeArray : Spells [']'] .closeArray
  | colon : Spells [':'] .colon
  | comma : Spells [','] .comma
  | word {w : List Char} {v : Json} (isWord : IsWord w v) : Spells w (.atom v)
  | number {w : List Char} {v : Json} (number : Number w v) : Spells w (.atom v)
  | literal {s : List Char} {us : List (Char ⊕ Nat)} (pieces : Pieces s us) :
      Spells ('"' :: (s ++ ['"'])) (.text (denote us))

/-! ### Numbers are cut out -/

variable {before : List Token} {negative : Bool} {value : Nat} {part next : NumberPart}
  {rest : List Char}

/-- A character that goes on with a number, besides the digits that have a value. -/
theorem step_number {c : Char} (h : part.next? c = some next) (hnext : next ≠ .digits) :
    Lexer.step ⟨before, .number part negative value⟩ c =
      some ⟨before, .number next negative value⟩ := by
  simp [Lexer.step, h, hnext]

/-- Digits behind a point or in an exponent. -/
theorem foldlM_number_digits {ds : List Char} (hds : Text.IsDigits ds) (hnext : next ≠ .digits)
    (hfirst : ∀ c : Char, c.isDigit → part.next? c = some next)
    (hlater : ∀ c : Char, c.isDigit → next.next? c = some next) :
    (ds ++ rest).foldlM Lexer.step ⟨before, .number part negative value⟩ =
      rest.foldlM Lexer.step ⟨before, .number next negative value⟩ := by
  have hloop (cs : List Char) (hcs : ∀ c ∈ cs, c.isDigit) :
      (cs ++ rest).foldlM Lexer.step ⟨before, .number next negative value⟩ =
        rest.foldlM Lexer.step ⟨before, .number next negative value⟩ := by
    induction cs with
    | nil => rfl
    | cons c cs ih =>
      rw [List.cons_append, foldlM_of_step (step_number (hlater c (hcs c (by simp))) hnext)]
      exact ih fun d hd => hcs d (by simp [hd])
  cases ds with
  | nil => exact absurd rfl hds.ne_nil
  | cons c ds =>
    rw [List.cons_append,
      foldlM_of_step (step_number (hfirst c (hds.isDigit c (by simp))) hnext)]
    exact hloop ds fun d hd => hds.isDigit d (by simp [hd])

/-- The part that a number is in behind its whole digits. -/
def wholePart (whole : List Char) : NumberPart :=
  if whole = ['0'] then .zero else .digits

theorem foldlM_whole {whole : List Char} (h : IsWhole whole) :
    (minusIf negative ++ whole ++ rest).foldlM Lexer.step ⟨before, .between⟩ =
      rest.foldlM Lexer.step
        ⟨before, .number (wholePart whole) negative (Nat.ofDigitChars 10 whole 0)⟩ := by
  cases h with
  | zero => cases negative <;> rfl
  | @digits c ds isDigit ne_zero hrest =>
    have hpart : wholePart (c :: ds) = .digits := if_neg fun heq => ne_zero (List.cons.inj heq).1
    have hvalue : Nat.ofDigitChars 10 (c :: ds) 0 =
        Nat.ofDigitChars 10 ds (c.toNat - '0'.toNat) := by
      rw [Nat.ofDigitChars_cons, Nat.mul_zero, Nat.zero_add]
    rw [hpart, hvalue]
    cases negative with
    | false =>
      show (c :: (ds ++ rest)).foldlM _ _ = _
      rw [foldlM_of_step (step_digit isDigit ne_zero before), foldlM_digits hrest]
    | true =>
      have hsign : Lexer.step ⟨before, .between⟩ '-' = some ⟨before, .number .minus true 0⟩ := rfl
      show ('-' :: c :: (ds ++ rest)).foldlM _ _ = _
      rw [foldlM_of_step hsign, foldlM_of_step (step_digit_of_minus isDigit ne_zero before),
        foldlM_digits hrest]

theorem wholePart_mayEnd (whole : List Char) : (wholePart whole).mayEnd := by
  unfold wholePart
  split <;> rfl

theorem wholePart_next?_point (whole : List Char) :
    (wholePart whole).next? '.' = some .point := by
  unfold wholePart
  split <;> rfl

theorem wholePart_next?_letter (whole : List Char) {c : Char} (h : IsExponentLetter c) :
    (wholePart whole).next? c = some .exponent := by
  unfold wholePart
  rcases h with rfl | rfl <;> split <;> rfl

/-- What a number is worth that ends behind its whole digits. -/
theorem wholePart_finish {whole : List Char} (h : IsWhole whole)
    (hzero : negative = true → whole ≠ ['0']) :
    (wholePart whole).finish negative (Nat.ofDigitChars 10 whole 0) = .integer (if negative then
      -(Nat.ofDigitChars 10 whole 0 : Int) else Nat.ofDigitChars 10 whole 0) := by
  cases h with
  | zero =>
    cases negative with
    | false => rfl
    | true => exact absurd rfl (hzero rfl)
  | @digits c ds _ ne_zero _ =>
    have hpart : wholePart (c :: ds) = .digits := if_neg fun heq => ne_zero (List.cons.inj heq).1
    rw [hpart]
    rfl

theorem foldlM_point {ds : List Char} (hds : Text.IsDigits ds)
    (hpoint : part.next? '.' = some .point) :
    ('.' :: (ds ++ rest)).foldlM Lexer.step ⟨before, .number part negative value⟩ =
      rest.foldlM Lexer.step ⟨before, .number .fraction negative value⟩ := by
  rw [foldlM_of_step (step_number hpoint (by decide))]
  apply foldlM_number_digits hds (by decide) <;>
    · intro c hc
      simp [NumberPart.next?, hc]

theorem foldlM_exponent {letter : Char} {sign ds : List Char} (hsign : IsExponentSign sign)
    (hds : Text.IsDigits ds) (hletter : part.next? letter = some .exponent) :
    (letter :: (sign ++ ds) ++ rest).foldlM Lexer.step ⟨before, .number part negative value⟩ =
      rest.foldlM Lexer.step ⟨before, .number .exponentDigits negative value⟩ := by
  rw [List.cons_append, foldlM_of_step (step_number hletter (by decide)), List.append_assoc]
  cases hsign with
  | none =>
    apply foldlM_number_digits hds (by decide)
    · intro c hc
      have hplus : c ≠ '+' := by rintro rfl; exact absurd hc (by decide)
      have hminus : c ≠ '-' := by rintro rfl; exact absurd hc (by decide)
      simp [NumberPart.next?, hc, hplus, hminus]
    · intro c hc
      simp [NumberPart.next?, hc]
  | @sign c isSign =>
    have hstep : NumberPart.exponent.next? c = some .exponentSign := if_pos isSign
    rw [List.singleton_append, foldlM_of_step (step_number hstep (by decide))]
    apply foldlM_number_digits hds (by decide) <;>
      · intro c hc
        simp [NumberPart.next?, hc]

/-- **A number is cut out** where a character stands behind it at which numbers end. -/
theorem lexes_number {w : List Char} {v : Json} (h : Number w v) : Lexes w [.atom v] := by
  intro before c rest hc
  cases h with
  | integer isWhole ne_minusZero =>
    rw [foldlM_whole isWhole, foldlM_number (wholePart_mayEnd _) hc,
      wholePart_finish isWhole ne_minusZero]
    rfl
  | minusZero =>
    have hzero : NumberPart.zero.mayEnd := rfl
    exact foldlM_number hzero hc
  | @real negative whole fraction exponent isWhole isFraction isExponent ne_nil =>
    -- One of fraction and exponent is there, so the number does not end as an integer.
    rw [List.append_assoc, List.append_assoc, foldlM_whole isWhole]
    have hpoint := wholePart_next?_point whole
    cases isFraction with
    | none =>
      cases isExponent with
      | none => simp at ne_nil
      | digits isLetter isSign isDigits =>
        have hletter := wholePart_next?_letter whole isLetter
        exact (foldlM_exponent isSign isDigits hletter).trans (foldlM_number rfl hc)
    | @digits fractionDigits isFractionDigits =>
      rw [List.cons_append, foldlM_point isFractionDigits hpoint]
      cases isExponent with
      | none => exact foldlM_number rfl hc
      | @digits letter _ _ isLetter isSign isDigits =>
        have hletter : NumberPart.fraction.next? letter = some .exponent := by
          rcases isLetter with rfl | rfl <;> rfl
        exact (foldlM_exponent isSign isDigits hletter).trans (foldlM_number rfl hc)

/-! ### String literals are cut out -/

/-- Take a piece. -/
def PartialText.add (s : PartialText) : Char ⊕ Nat → PartialText
  | .inl c => s.push c
  | .inr unit => s.pushUnit unit

theorem PartialText.pushUnit_escape (s : PartialText) (e : Escape) (unit : Nat) :
    { s with escape := e }.pushUnit unit = s.pushUnit unit := by
  simp only [PartialText.pushUnit, PartialText.push]

theorem PartialText.escape_add (s : PartialText) (u : Char ⊕ Nat) : (s.add u).escape = .none := by
  cases u with
  | inl c => rfl
  | inr unit =>
    show (s.pushUnit unit).escape = .none
    unfold pushUnit
    split
    · split <;> rfl
    · split <;> rfl

/-- Behind any pieces there is no escape to go on with. -/
theorem escape_foldl_add (us : List (Char ⊕ Nat)) :
    (us.foldl PartialText.add {}).escape = .none := by
  induction us using List.reverseRecOn with
  | nil => rfl
  | append_singleton us u _ =>
    rw [List.foldl_append]
    exact PartialText.escape_add _ u

/-- Hexadecimal digits that go on with a code unit, and the one that completes it. -/
theorem step_unit {s : PartialText} {c : Char} {d left value : Nat} (hc : hexDigit? c = some d) :
    Lexer.step ⟨before, .string { s with escape := .unicode left value }⟩ c = some ⟨before, .string
      (match left with
        | 0 => s.pushUnit (value * 16 + d)
        | left + 1 => { s with escape := .unicode left (value * 16 + d) })⟩ := by
  cases left with
  | zero => simp [Lexer.step, Lexer.stepString, hc, PartialText.pushUnit_escape]
  | succ left => simp [Lexer.step, Lexer.stepString, hc]

/-- The digits of a code unit are taken as the number that they are read as. -/
theorem foldlM_hexDigits {cs : List Char} {d : Nat} {ds : List Nat} {value : Nat}
    (digits : List.Forall₂ (fun c d => hexDigit? c = some d) cs (d :: ds)) {s : PartialText} :
    (cs ++ rest).foldlM Lexer.step
        ⟨before, .string { s with escape := .unicode ds.length value }⟩ =
      rest.foldlM Lexer.step ⟨before, .string
        (s.pushUnit ((d :: ds).foldl (fun value d => value * 16 + d) value))⟩ := by
  induction ds generalizing cs d value with
  | nil =>
    obtain ⟨c, cs, hc, none_left, rfl⟩ := List.forall₂_cons_right_iff.1 digits
    rw [List.forall₂_nil_right_iff.1 none_left, List.cons_append, foldlM_of_step (step_unit hc)]
    rfl
  | cons d' ds ih =>
    obtain ⟨c, cs, hc, more, rfl⟩ := List.forall₂_cons_right_iff.1 digits
    rw [List.cons_append, foldlM_of_step (step_unit hc)]
    exact ih more

/-- One piece is taken as what it stands for. -/
theorem foldlM_piece {w : List Char} {u : Char ⊕ Nat} (h : Piece w u) {s : PartialText}
    (hs : s.escape = .none) :
    (w ++ rest).foldlM Lexer.step ⟨before, .string s⟩ =
      rest.foldlM Lexer.step ⟨before, .string (s.add u)⟩ := by
  have hbackslash : Lexer.step ⟨before, .string s⟩ '\\' =
      some ⟨before, .string { s with escape := .start }⟩ := by
    simp [Lexer.step, Lexer.stepString, hs]
  cases h with
  | plain ne_quote ne_backslash not_control =>
    refine foldlM_of_step ?_
    simp [Lexer.step, Lexer.stepString, hs, ne_quote, ne_backslash, not_control,
      PartialText.add]
  | @letter letter c stands_for =>
    have hletter : letter ≠ 'u' := by
      rintro rfl
      cases stands_for
    rw [List.cons_append, foldlM_of_step hbackslash]
    refine foldlM_of_step ?_
    simp [Lexer.step, Lexer.stepString, hletter, stands_for, PartialText.add, PartialText.push]
  | @unit cs ds digits four =>
    have hu : Lexer.step ⟨before, .string { s with escape := .start }⟩ 'u' =
        some ⟨before, .string { s with escape := .unicode 3 0 }⟩ := by
      simp [Lexer.step, Lexer.stepString]
    obtain ⟨d, ds, rfl⟩ := List.exists_cons_of_length_eq_add_one four
    have hlength : ds.length = 3 := Nat.succ.inj four
    rw [← hlength] at hu
    rw [List.cons_append, foldlM_of_step hbackslash, List.cons_append, foldlM_of_step hu]
    exact foldlM_hexDigits digits

theorem foldlM_pieces {s : List Char} {us : List (Char ⊕ Nat)} (h : Pieces s us) :
    (s ++ rest).foldlM Lexer.step ⟨before, .string {}⟩ =
      rest.foldlM Lexer.step ⟨before, .string (us.foldl PartialText.add {})⟩ := by
  induction h generalizing rest with
  | nil => rfl
  | @append w s u us _ last ih =>
    rw [List.append_assoc, ih, foldlM_piece last (escape_foldl_add us), List.foldl_append]
    rfl

/-- The machine pairs halves as `denoteFrom` does. -/
theorem finish_foldl_add (us : List (Char ⊕ Nat)) (s : PartialText) :
    (us.foldl PartialText.add s).finish =
      if s.broken then none
      else (denoteFrom s.high us).map fun cs => String.ofList (s.chars.reverse ++ cs) := by
  induction us generalizing s with
  | nil =>
    cases hhigh : s.high <;> cases hbroken : s.broken <;>
      simp [PartialText.finish, denoteFrom, hhigh, hbroken]
  | cons u us ih =>
    rw [List.foldl_cons, ih]
    cases u with
    | inl c =>
      cases hhigh : s.high <;> cases hbroken : s.broken <;>
        simp [PartialText.add, PartialText.push, denoteFrom, hhigh, hbroken, Function.comp_def]
    | inr unit =>
      have hadd : s.add (.inr unit) = s.pushUnit unit := rfl
      rw [hadd]
      by_cases hlow : IsLow unit
      · -- A second half makes a pair with the first half in front of it, if there is one.
        cases hhigh : s.high with
        | none =>
          have hunit : s.pushUnit unit = { s with broken := true, escape := .none } := by
            rw [PartialText.pushUnit, hhigh]
            exact if_pos hlow
          simp [hunit, denoteFrom, hlow]
        | some high =>
          have hunit : s.pushUnit unit =
              { s with chars := pair high unit :: s.chars, high := none, escape := .none } := by
            rw [PartialText.pushUnit, hhigh]
            exact if_pos hlow
          simp [hunit, denoteFrom, hlow, Function.comp_def]
      · have hunit : s.pushUnit unit = if IsHigh unit then
            { s with high := some unit, broken := s.broken || s.high.isSome, escape := .none }
          else s.push (Char.ofNat unit) := if_neg hlow
        rw [hunit]
        by_cases hhalf : IsHigh unit <;> cases hhigh : s.high <;> cases hbroken : s.broken <;>
          simp [PartialText.push, denoteFrom, hhigh, hbroken, hlow, hhalf, Function.comp_def]

/-- A literal denotes what its pieces denote. -/
theorem finish_pieces (us : List (Char ⊕ Nat)) :
    (us.foldl PartialText.add {}).finish = denote us := by
  rw [finish_foldl_add]
  rfl

/-- **A string literal is cut out.** -/
theorem lexes_literal {s : List Char} {us : List (Char ⊕ Nat)} (h : Pieces s us) :
    Lexes ('"' :: (s ++ ['"'])) [.text (denote us)] := by
  intro before c rest _
  have hopen : Lexer.step ⟨before, .between⟩ '"' = some ⟨before, .string {}⟩ := rfl
  have hclose : Lexer.step ⟨before, .string (us.foldl PartialText.add {})⟩ '"' =
      some ⟨.text (denote us) :: before, .between⟩ := by
    simp [Lexer.step, Lexer.stepString, escape_foldl_add, Lexer.emit, finish_pieces]
  rw [List.cons_append, foldlM_of_step hopen, List.append_assoc, foldlM_pieces h,
    List.singleton_append, foldlM_of_step hclose]
  rfl

/-! ### Every token is cut out -/

/-- **A text of a token is cut out** where a character stands behind it at which numbers end. -/
theorem Spells.lexes {w : List Char} {t : Token} (h : Spells w t) : Lexes w [t] := by
  cases h with
  | openObject => exact .cons (fun _ => rfl) lexes_nil
  | closeObject => exact .cons (fun _ => rfl) lexes_nil
  | openArray => exact .cons (fun _ => rfl) lexes_nil
  | closeArray => exact .cons (fun _ => rfl) lexes_nil
  | colon => exact .cons (fun _ => rfl) lexes_nil
  | comma => exact .cons (fun _ => rfl) lexes_nil
  | word isWord => cases isWord <;> exact fun _ _ _ _ => rfl
  | number number => exact lexes_number number
  | literal pieces => exact lexes_literal pieces

/-! ### Literals without escapes -/

theorem pieces_plain {s : List Char} (h : ∀ c ∈ s, c ≠ '"' ∧ c ≠ '\\' ∧ 0x20 ≤ c.toNat) :
    Pieces s (s.map .inl) := by
  induction s using List.reverseRecOn with
  | nil => exact .nil
  | append_singleton s c ih =>
    obtain ⟨hquote, hbackslash, hcontrol⟩ := h c (by simp)
    rw [List.map_append]
    exact .append (ih fun d hd => h d (by simp [hd])) (.plain hquote hbackslash hcontrol)

theorem denote_plain (s : List Char) : denote (s.map .inl) = some (String.ofList s) := by
  have hfrom : denoteFrom none (s.map .inl) = some s := by
    induction s with
    | nil => rfl
    | cons c s ih => rw [List.map_cons, denoteFrom, ih, Option.map_some]
  rw [denote, hfrom, Option.map_some]

/-- A text without quotes, backslashes and control characters stands for itself. -/
theorem Spells.plain {s : List Char} (h : s.all fun c => c ≠ '"' ∧ c ≠ '\\' ∧ 0x20 ≤ c.toNat) :
    Spells ('"' :: (s ++ ['"'])) (.text (some (String.ofList s))) := by
  rw [← denote_plain]
  apply Spells.literal
  apply pieces_plain
  simpa using h

end KernelDiff.Json
