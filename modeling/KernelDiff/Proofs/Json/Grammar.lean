import KernelDiff.Proofs.Json.Reading
import KernelDiff.Proofs.Json.Scanning

namespace KernelDiff.Json

/-!
# The texts of a value

The machine over tokens keeps all that it has read: from what it is in the middle of, its tokens can
be written out again. So only the tokens of a value are read as the value, and the texts that denote
it are the texts of its tokens, laid out with any white space.

* `ParseState.read` — the tokens that a machine has read;
* `ParseState.read_of_step`, `ParseState.read_of_foldlM` — every token that it takes is one of them;
* `eq_tokens_of_ofTokens?` — only the tokens of a value are read as the value;
* `parse?_eq_some_iff` — the texts that denote a value.
-/

/-! ### Contents with more behind them -/

/-- The tokens of items with a comma behind each of them. -/
def itemsBefore (items : List Json) : List Token :=
  items.flatMap fun v => tokens v ++ [.comma]

/-- The tokens of members with a comma behind each of them. -/
def membersBefore (members : List (JsonText × Json)) : List Token :=
  members.flatMap fun m => .text m.1 :: .colon :: (tokens m.2 ++ [.comma])

theorem itemsBefore_concat (items : List Json) (v : Json) :
    itemsBefore (items ++ [v]) = itemsBefore items ++ (tokens v ++ [.comma]) := by
  simp [itemsBefore]

theorem membersBefore_concat (members : List (JsonText × Json)) (k : JsonText) (v : Json) :
    membersBefore (members ++ [(k, v)]) =
      membersBefore members ++ .text k :: .colon :: (tokens v ++ [.comma]) := by
  simp [membersBefore]

theorem itemTokens_concat (items : List Json) (v : Json) :
    itemTokens (items ++ [v]) = itemsBefore items ++ tokens v := by
  induction items with
  | nil => rfl
  | cons w items ih =>
    have hcons : itemTokens (w :: (items ++ [v])) =
        tokens w ++ .comma :: itemTokens (items ++ [v]) := by
      cases items <;> rfl
    rw [List.cons_append, hcons, ih]
    simp [itemsBefore]

theorem memberTokens_concat (members : List (JsonText × Json)) (k : JsonText) (v : Json) :
    memberTokens (members ++ [(k, v)]) =
      membersBefore members ++ .text k :: .colon :: tokens v := by
  induction members with
  | nil => rfl
  | cons m members ih =>
    have hcons : memberTokens (m :: (members ++ [(k, v)])) =
        .text m.1 :: .colon :: (tokens m.2 ++ .comma :: memberTokens (members ++ [(k, v)])) := by
      cases members <;> rfl
    rw [List.cons_append, hcons, ih]
    simp [membersBefore]

/-! ### What the machine has read -/

/-- The tokens of an array or object up to the value that is being read. -/
def Frame.read : Frame → List Token
  | .array items => .openArray :: itemsBefore items.reverse
  | .object members key => .openObject :: (membersBefore members.reverse ++ [.text key, .colon])

/-- The tokens of all arrays and objects that are not closed, outermost first. -/
def Frame.readAll (stack : List Frame) : List Token :=
  stack.reverse.flatMap Frame.read

theorem Frame.readAll_cons (f : Frame) (stack : List Frame) :
    readAll (f :: stack) = readAll stack ++ f.read := by
  simp [readAll]

/-- The tokens that a machine has read. -/
def ParseState.read : ParseState → List Token
  | value stack => Frame.readAll stack
  | firstItem stack => Frame.readAll stack ++ [.openArray]
  | firstKey stack => Frame.readAll stack ++ [.openObject]
  | key members stack => Frame.readAll stack ++ .openObject :: membersBefore members.reverse
  | colon members k stack =>
    Frame.readAll stack ++ .openObject :: (membersBefore members.reverse ++ [.text k])
  | behind v stack => Frame.readAll stack ++ tokens v

/-- Tokens that are values are their own only tokens. -/
def Token.IsPlain (t : Token) : Prop :=
  ∀ v, t = .atom v → tokens v = [.atom v]

theorem Spells.isPlain {w : List Char} {t : Token} (h : Spells w t) : t.IsPlain := by
  rintro v rfl
  cases h with
  | word isWord => cases isWord <;> rfl
  | number number => cases number <;> rfl

variable {p p' : ParseState} {stack : List Frame} {t : Token} {ts : List Token}

/-- A token where a value must stand. -/
theorem ParseState.read_of_stepValue (ht : t.IsPlain) (h : stepValue stack t = some p') :
    p'.read = Frame.readAll stack ++ [t] := by
  cases t with
  | atom v =>
    cases h
    rw [read, ht v rfl]
  | text | openArray | openObject =>
    cases h
    rfl
  | closeObject | closeArray | colon | comma => cases h

/-- A comma behind an item or a member. -/
theorem ParseState.read_of_comma {f : Frame} {v : Json}
    (h : step (behind v (f :: stack)) .comma = some p') :
    p'.read = read (behind v (f :: stack)) ++ [.comma] := by
  cases f with
  | array items =>
    cases h
    simp [read, Frame.readAll_cons, Frame.read, itemsBefore_concat]
  | object members k =>
    cases h
    simp [read, Frame.readAll_cons, Frame.read, membersBefore_concat]

/-- The end of an array behind its last item. -/
theorem ParseState.read_array_concat (items : List Json) (v : Json) (stack : List Frame) :
    read (behind (.array (v :: items).reverse) stack) =
      read (behind v (.array items :: stack)) ++ [.closeArray] := by
  simp [read, Frame.readAll_cons, Frame.read, tokens, itemTokens_concat]

/-- The end of an object behind its last member. -/
theorem ParseState.read_object_concat (members : List (JsonText × Json)) (k : JsonText) (v : Json)
    (stack : List Frame) :
    read (behind (.object ((k, v) :: members).reverse) stack) =
      read (behind v (.object members k :: stack)) ++ [.closeObject] := by
  simp [read, Frame.readAll_cons, Frame.read, tokens, memberTokens_concat]

/-- **Every token that the machine takes is one that it has read.** -/
theorem ParseState.read_of_step (ht : t.IsPlain) (h : p.step t = some p') :
    p'.read = p.read ++ [t] := by
  unfold step at h
  -- A closed array or object stands where its items or members stood, with the same tokens.
  split at h
  · exact read_of_stepValue ht h
  · cases h
    simp [read, tokens, itemTokens]
  · rw [read_of_stepValue ht h, Frame.readAll_cons]
    rfl
  · cases h
    simp [read, tokens, memberTokens]
  · cases h
    simp [read, membersBefore]
  · cases h
    simp [read]
  · cases h
    simp [read, Frame.readAll_cons, Frame.read]
  · exact read_of_comma h
  · cases h
    exact read_array_concat _ _ _
  · exact read_of_comma h
  · cases h
    exact read_object_concat _ _ _ _
  · cases h

theorem ParseState.read_of_foldlM (ht : ∀ t ∈ ts, t.IsPlain) (h : ts.foldlM step p = some p') :
    p'.read = p.read ++ ts := by
  induction ts generalizing p with
  | nil =>
    cases h
    rw [List.append_nil]
  | cons t ts ih =>
    obtain ⟨next, hstep, hrest⟩ := Option.bind_eq_some_iff.1 h
    have hread := read_of_step (ht t List.mem_cons_self) hstep
    rw [ih (fun u hu => ht u (List.mem_cons_of_mem t hu)) hrest, hread, List.append_assoc,
      List.singleton_append]

/-- **Only the tokens of a value are read as the value.** -/
theorem eq_tokens_of_ofTokens? {v : Json} (ht : ∀ t ∈ ts, t.IsPlain) (h : ofTokens? ts = some v) :
    ts = tokens v := by
  obtain ⟨p, hrun, hfinish⟩ := Option.bind_eq_some_iff.1 h
  have hread := ParseState.read_of_foldlM ht hrun
  unfold ParseState.finish at hfinish
  split at hfinish
  · cases hfinish
    exact hread.symm
  · cases hfinish

/-! ### The texts that denote a value -/

theorem isPlain_of_forall₂_spells {ws : List (List Char)} (h : List.Forall₂ Spells ws ts) :
    ∀ t ∈ ts, t.IsPlain := by
  induction h with
  | nil => simp
  | cons spells _ ih =>
    intro t ht
    rcases List.mem_cons.1 ht with rfl | ht
    · exact spells.isPlain
    · exact ih t ht

/-- **A value is denoted by the texts of its tokens**, with any white space around them, and by no
    other text. -/
theorem parse?_eq_some_iff {s : String} {v : Json} :
    parse? s = some v ↔ ∃ ws, Laid ws s.toList ∧ List.Forall₂ Spells ws (tokens v) := by
  constructor
  · intro h
    obtain ⟨ts, hlex, hread⟩ := Option.bind_eq_some_iff.1 h
    obtain ⟨ws, laid, spells⟩ := laid_of_lex hlex
    rw [eq_tokens_of_ofTokens? (isPlain_of_forall₂_spells spells) hread] at spells
    exact ⟨ws, laid, spells⟩
  · rintro ⟨ws, laid, spells⟩
    rw [parse?, laid.lex_eq spells (separated_tokens v), Option.bind_some, ofTokens?_tokens]

end KernelDiff.Json
