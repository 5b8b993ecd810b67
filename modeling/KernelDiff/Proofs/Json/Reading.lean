import KernelDiff.Json.Reader
import KernelDiff.Proofs.Json.Lexing

namespace KernelDiff.Json

/-!
# What is written is read back

The machine over tokens reads the tokens of a value as the value, inside whatever arrays and
objects it is. So every value is read back from its text.

* `foldlM_tokens` — the tokens of a value, read where a value may stand;
* `parse?_pretty`, `parse?_compact` — a value is read back from its text on several lines, and from
  its text without white space.
-/

variable (stack : List Frame) (ts : List Token)

/-- No item is taken for the end of its array. -/
theorem foldlM_firstItem (v : Json) :
    (tokens v ++ ts).foldlM ParseState.step (.firstItem stack) =
      (tokens v ++ ts).foldlM ParseState.step (.value (.array [] :: stack)) := by
  cases v <;> rfl

theorem foldlM_firstItem_itemTokens (v : Json) (vs : List Json) :
    (itemTokens (v :: vs) ++ ts).foldlM ParseState.step (.firstItem stack) =
      (itemTokens (v :: vs) ++ ts).foldlM ParseState.step (.value (.array [] :: stack)) := by
  cases vs with
  | nil => exact foldlM_firstItem stack ts v
  | cons w vs =>
    rw [itemTokens, List.append_assoc]
    exact foldlM_firstItem stack _ v

theorem foldlM_firstKey (members : List (JsonText × Json)) (hne : members ≠ []) :
    (memberTokens members ++ ts).foldlM ParseState.step (.firstKey stack) =
      (memberTokens members ++ ts).foldlM ParseState.step (.key [] stack) := by
  match members with
  | [] => exact absurd rfl hne
  | [(k, v)] => rfl
  | (k, v) :: m :: ms => rfl

mutual

/-- **The tokens of a value are read as the value.** -/
theorem foldlM_tokens : ∀ (v : Json) (stack : List Frame) (ts : List Token),
    (tokens v ++ ts).foldlM ParseState.step (.value stack) =
      ts.foldlM ParseState.step (.behind v stack)
  | .null, _, _ => rfl
  | .bool _, _, _ => rfl
  | .integer _, _, _ => rfl
  | .real, _, _ => rfl
  | .text _, _, _ => rfl
  | .array [], _, _ => rfl
  | .array (v :: vs), stack, ts => by
    have hfirst := foldlM_firstItem_itemTokens stack (.closeArray :: ts) v vs
    have hitems := foldlM_itemTokens (v :: vs) [] stack ts (List.cons_ne_nil _ _)
    rw [tokens, List.cons_append, List.append_assoc, List.singleton_append]
    exact hfirst.trans hitems
  | .object [], _, _ => rfl
  | .object (m :: ms), stack, ts => by
    have hfirst := foldlM_firstKey stack (.closeObject :: ts) (m :: ms) (List.cons_ne_nil _ _)
    have hmembers := foldlM_memberTokens (m :: ms) [] stack ts (List.cons_ne_nil _ _)
    rw [tokens, List.cons_append, List.append_assoc, List.singleton_append]
    exact hfirst.trans hmembers

/-- Items behind those that were read, up to the end of their array. -/
theorem foldlM_itemTokens : ∀ (items : List Json) (read : List Json) (stack : List Frame)
    (ts : List Token), items ≠ [] →
    (itemTokens items ++ .closeArray :: ts).foldlM ParseState.step (.value (.array read :: stack)) =
      ts.foldlM ParseState.step (.behind (.array (read.reverse ++ items)) stack)
  | [], _, _, _, hne => absurd rfl hne
  | [v], read, stack, ts, _ => by
    rw [itemTokens, foldlM_tokens v, ← List.reverse_cons]
    rfl
  | v :: w :: vs, read, stack, ts, _ => by
    have hrest := foldlM_itemTokens (w :: vs) (v :: read) stack ts (List.cons_ne_nil _ _)
    rw [List.reverse_cons, List.append_assoc, List.singleton_append] at hrest
    rw [itemTokens, List.append_assoc, foldlM_tokens v, ← hrest]
    rfl

/-- Members behind those that were read, up to the end of their object. -/
theorem foldlM_memberTokens : ∀ (members : List (JsonText × Json))
    (read : List (JsonText × Json)) (stack : List Frame) (ts : List Token), members ≠ [] →
    (memberTokens members ++ .closeObject :: ts).foldlM ParseState.step (.key read stack) =
      ts.foldlM ParseState.step (.behind (.object (read.reverse ++ members)) stack)
  | [], _, _, _, hne => absurd rfl hne
  | [(k, v)], read, stack, ts, _ => by
    have hvalue := foldlM_tokens v (.object read k :: stack) (.closeObject :: ts)
    rw [← List.reverse_cons]
    exact hvalue
  | (k, v) :: m :: ms, read, stack, ts, _ => by
    have hvalue := foldlM_tokens v (.object read k :: stack)
      (.comma :: (memberTokens (m :: ms) ++ .closeObject :: ts))
    have hrest := foldlM_memberTokens (m :: ms) ((k, v) :: read) stack ts (List.cons_ne_nil _ _)
    rw [List.reverse_cons, List.append_assoc, List.singleton_append] at hrest
    rw [memberTokens, ← hrest, List.cons_append, List.cons_append, List.append_assoc,
      List.cons_append]
    exact hvalue

end

theorem ofTokens?_tokens (v : Json) : ofTokens? (tokens v) = some v := by
  have h := foldlM_tokens v [] []
  rw [List.append_nil] at h
  rw [ofTokens?, h]
  rfl

/-- **Every value is read back** from its text on several lines. -/
theorem parse?_pretty (v : Json) : parse? v.pretty = some v := by
  have hlex := lex_of_lexes (lexes_prettyChars 0 v)
  rw [parse?, pretty, String.toList_ofList, hlex, Option.bind_some, ofTokens?_tokens]

/-- **Every value is read back** from its text without white space. -/
theorem parse?_compact (v : Json) : parse? v.compact = some v := by
  have hlex := lex_of_lexes (lexes_compactChars v)
  rw [parse?, compact, String.toList_ofList, hlex, Option.bind_some, ofTokens?_tokens]

end KernelDiff.Json
