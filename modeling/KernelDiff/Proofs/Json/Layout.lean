import KernelDiff.Proofs.Json.Literal
import Mathlib.Data.List.Chain

namespace KernelDiff.Json

/-!
# Texts of tokens in a row

The texts of tokens stand behind each other, with any white space around them. A number ends only
where something stands behind it that no number goes on with, and two texts next to each other could
be one. The tokens of a value never leave it to that: of two tokens in a row one is a mark.

* `Laid` — texts in a row, with white space around them;
* `Separated`, `separated_tokens` — of two tokens in a row one is a mark, and so it is in a value;
* `Laid.lexes` — such texts are cut into their tokens.
-/

/-- Texts in a row, with any white space in front of them, between them and behind them. -/
inductive Laid : List (List Char) → List Char → Prop
  | nil : Laid [] []
  | space {c : Char} {ws : List (List Char)} {s : List Char} (isSpace : isSpace c)
      (rest : Laid ws s) : Laid ws (c :: s)
  | lexeme {w : List Char} {ws : List (List Char)} {s : List Char} (rest : Laid ws s) :
      Laid (w :: ws) (w ++ s)

variable {c : Char} {w s s' : List Char} {ws ws' : List (List Char)} {t : Token} {ts : List Token}

theorem Laid.append (h : Laid ws s) (h' : Laid ws' s') : Laid (ws ++ ws') (s ++ s') := by
  induction h with
  | nil => exact h'
  | space isSpace _ ih => exact .space isSpace ih
  | @lexeme w _ _ _ ih =>
    rw [List.append_assoc]
    exact .lexeme ih

/-- No white space at all. -/
theorem laid_flatten (ws : List (List Char)) : Laid ws ws.flatten := by
  induction ws with
  | nil => exact .nil
  | cons w ws ih => exact .lexeme ih

/-- White space behind everything. -/
theorem Laid.concat_space (h : Laid ws s) (hc : isSpace c) : Laid ws (s ++ [c]) := by
  have happend := h.append (.space hc .nil)
  rw [List.append_nil] at happend
  exact happend

/-- A text behind everything. -/
theorem Laid.concat (h : Laid ws s) (w : List Char) : Laid (ws ++ [w]) (s ++ w) := by
  have happend := h.append (.lexeme (w := w) .nil)
  rw [List.append_nil] at happend
  exact happend

/-! ### Marks between tokens -/

/-- Tokens that are marks end every number in front of them. -/
def Token.IsMark : Token → Prop
  | .text _ | .atom _ => False
  | _ => True

/-- Of two tokens in a row one is a mark. -/
def Separated (ts : List Token) : Prop :=
  ts.IsChain fun t u => t.IsMark ∨ u.IsMark

theorem Separated.cons (ht : t.IsMark) (h : Separated ts) : Separated (t :: ts) :=
  List.IsChain.cons h fun _ _ => .inl ht

theorem Separated.append {us : List Token} (h : Separated ts) (ht : t.IsMark)
    (h' : Separated us) : Separated (ts ++ t :: us) := by
  refine List.IsChain.append h (Separated.cons ht h') ?_
  intro u _ v hv
  obtain rfl : t = v := by simpa using hv
  exact .inr ht

theorem separated_singleton (t : Token) : Separated [t] :=
  List.isChain_singleton t

theorem Separated.text_colon (k : JsonText) (h : Separated ts) :
    Separated (.text k :: .colon :: ts) :=
  (separated_singleton (.text k)).append trivial h

mutual

/-- **Of two tokens of a value in a row one is a mark.** -/
theorem separated_tokens : ∀ v : Json, Separated (tokens v)
  | .null => separated_singleton _
  | .bool _ => separated_singleton _
  | .integer _ => separated_singleton _
  | .real => separated_singleton _
  | .text _ => separated_singleton _
  | .array items => .cons trivial ((separated_itemTokens items).append trivial List.isChain_nil)
  | .object members =>
    .cons trivial ((separated_memberTokens members).append trivial List.isChain_nil)

theorem separated_itemTokens : ∀ items : List Json, Separated (itemTokens items)
  | [] => List.isChain_nil
  | [v] => separated_tokens v
  | v :: w :: vs => (separated_tokens v).append trivial (separated_itemTokens (w :: vs))

theorem separated_memberTokens :
    ∀ members : List (JsonText × Json), Separated (memberTokens members)
  | [] => List.isChain_nil
  | [(k, v)] => (separated_tokens v).text_colon k
  | (k, v) :: m :: ms =>
    ((separated_tokens v).append (t := .comma) trivial
      (separated_memberTokens (m :: ms))).text_colon k

end

/-! ### Texts in a row are cut into their tokens -/

theorem isBoundary_of_isSpace (h : isSpace c) : IsBoundary c := by
  have hc : ((c = ' ' ∨ c = '\t') ∨ c = '\n') ∨ c = '\r' := by
    simpa [isSpace] using h
  rcases hc with ((rfl | rfl) | rfl) | rfl <;>
    exact isBoundary_of rfl (by decide) (by decide) (by decide)

/-- Where the next token is a mark or there is none, numbers end. -/
theorem Laid.isBoundary (h : Laid ws s) (hspells : List.Forall₂ Spells ws ts)
    (hmark : ∀ u ∈ ts.head?, u.IsMark) (hc : c ∈ s.head?) : IsBoundary c := by
  cases h with
  | nil => cases hc
  | space isSpace _ =>
    cases hc
    exact isBoundary_of_isSpace isSpace
  | lexeme rest =>
    obtain _ | ⟨spells, _⟩ := hspells
    have hmark := hmark _ rfl
    cases spells with
    | word | number | literal => exact hmark.elim
    | openObject | closeObject | openArray | closeArray | colon | comma =>
      cases hc
      exact isBoundary_of rfl (by decide) (by decide) (by decide)

/-- A text behind another one, where numbers end between them. -/
theorem Lexes.append_of_head {ts ts' : List Token} (h : Lexes s ts) (h' : Lexes s' ts')
    (hhead : ∀ c ∈ s'.head?, IsBoundary c) : Lexes (s ++ s') (ts ++ ts') := by
  cases s' with
  | cons c s' => exact h.append (hhead c rfl) h'
  | nil =>
    intro before c rest hc
    rw [List.append_nil, h before c rest hc, List.reverse_append, List.append_assoc]
    exact h' (ts.reverse ++ before) c rest hc

/-- **Texts in a row are cut into their tokens.** -/
theorem Laid.lexes (h : Laid ws s) (hspells : List.Forall₂ Spells ws ts) (hsep : Separated ts) :
    Lexes s ts := by
  induction h generalizing ts with
  | nil =>
    cases hspells
    exact lexes_nil
  | space isSpace _ ih => exact .space isSpace (ih hspells hsep)
  | @lexeme w ws s rest ih =>
    obtain _ | @⟨_, t, _, ts, spells, hspells⟩ := hspells
    have hrest := ih hspells hsep.of_cons
    by_cases ht : t.IsMark
    · -- A mark is cut out whatever stands behind it.
      cases spells with
      | word | number | literal => exact ht.elim
      | openObject | closeObject | openArray | closeArray | colon | comma =>
        exact .cons (fun _ => rfl) hrest
    · refine spells.lexes.append_of_head hrest fun c hc => rest.isBoundary hspells ?_ hc
      intro u hu
      exact ((List.isChain_cons.1 hsep).1 u hu).resolve_left ht

/-- Texts in a row are cut into their tokens and nothing else. -/
theorem Laid.lex_eq (h : Laid ws s) (hspells : List.Forall₂ Spells ws ts) (hsep : Separated ts) :
    lex s = some ts :=
  lex_of_lexes (h.lexes hspells hsep)

end KernelDiff.Json
