import KernelDiff.Parameter
import KernelDiff.Proofs.Text.Words

namespace KernelDiff.Parameter

/-!
# The parameters behind type names

A type name is read word by word, where stars count as blanks. The words that are no qualifiers make
up the name of an element type, a star says that the parameter is a pointer, and every address space
but that of a work item takes pointers, and nothing else. How the name is spelled besides does not
matter.

* `Resolved` — what a parameter has to be for its type name and its address space;
* `Respelled` — a name with blanks and qualifiers put in between its words;
* `resolve_respelled` — the parameter behind such a name;
* `resolve_eq_iff_resolved` — type names are resolved as they should be, however they are spelled.
-/

/-- A type name in which every star is read as a blank. -/
def unstarred (s : List Char) : List Char :=
  s.map fun c => if c = '*' then ' ' else c

/-- What a parameter has to be for its type name, which is made of `words`, and its address
    space. -/
structure Resolved (index : Nat) (typeName : String) (space : AddressSpace) (words : List String)
    (p : Parameter) : Prop where
  /-- The words stand in the name, with blanks and stars between them. -/
  spaced : Text.Spaced (words.map String.toList) (unstarred typeName.toList)
  /-- The words besides the qualifiers, with a blank between two of them, are read as its type. -/
  type : ElementType.parse (" ".intercalate (words.filter fun w => w ∉ qualifiers)) = .ok p.type
  /-- There are pointers to all memory but that of a work item, which is passed by value. -/
  pointer_iff : '*' ∈ typeName.toList ↔ space ≠ .workItem
  isPointer_iff : p.isPointer ↔ '*' ∈ typeName.toList
  isConst_iff : p.isConst ↔ space = .constant ∨ '*' ∈ typeName.toList ∧ "const" ∈ words
  index_eq : p.index = index
  typeName_eq : p.typeName = typeName
  space_eq : p.space = space

/-! ### Type names are resolved word by word -/

variable {index : Nat} {typeName : String} {space : AddressSpace} {p : Parameter}

theorem typeWords_eq_iff {words : List String} :
    typeWords typeName = words ↔
      Text.Spaced (words.map String.toList) (unstarred typeName.toList) := by
  rw [← Text.words_eq_iff]
  show (Text.words (unstarred typeName.toList)).map String.ofList = words ↔ _
  constructor
  · rintro rfl
    simp [Function.comp_def]
  · intro h
    simp [h, Function.comp_def]

/-- A star in the name is right or wrong by the address space. -/
theorem contains_star_iff :
    typeName.toList.contains '*' = (space != .workItem) ↔
      ('*' ∈ typeName.toList ↔ space ≠ .workItem) := by
  rw [Bool.eq_iff_iff, List.contains_iff_mem, bne_iff_ne]

theorem filter_qualifiers (words : List String) :
    (words.filter fun w => !qualifiers.contains w) = words.filter fun w => w ∉ qualifiers := by
  simp

theorem resolve_eq_ok_iff :
    resolve index typeName space = .ok p ↔
      ∃ words, Resolved index typeName space words p := by
  unfold resolve
  simp only [filter_qualifiers]
  constructor
  · intro h
    split at h
    · next type htype =>
      split at h
      · next hpointer =>
        cases h
        exact ⟨typeWords typeName, {
          spaced := typeWords_eq_iff.1 rfl
          type := htype
          pointer_iff := contains_star_iff.1 hpointer
          isPointer_iff := by simp
          isConst_iff := by simp
          index_eq := rfl
          typeName_eq := rfl
          space_eq := rfl }⟩
      · cases h
    · cases h
  · rintro ⟨words, h⟩
    have hpointer : typeName.toList.contains '*' = p.isPointer := by
      rw [Bool.eq_iff_iff, List.contains_iff_mem, h.isPointer_iff]
    have hconst : (space == .constant || (p.isPointer && words.contains "const")) = p.isConst := by
      rw [Bool.eq_iff_iff, h.isConst_iff, ← h.isPointer_iff]
      simp
    have hplaced : p.isPointer = (space != .workItem) :=
      hpointer.symm.trans (contains_star_iff.2 h.pointer_iff)
    rw [typeWords_eq_iff.2 h.spaced, h.type]
    simp only [hpointer, hconst, if_pos hplaced]
    obtain ⟨-, -, -, -, -, rfl, rfl, rfl⟩ := h
    rfl

/-- Whatever else is wrong with a type name, the failure names it as it is. -/
theorem resolve_cases (index : Nat) (typeName : String) (space : AddressSpace) :
    (∃ p, resolve index typeName space = .ok p) ∨
      resolve index typeName space = .error (.unsupportedArgument index typeName) := by
  unfold resolve
  simp only
  split
  · split
    · exact .inl ⟨_, rfl⟩
    · exact .inr rfl
  · exact .inr rfl

theorem resolve_eq_error_iff {e : Failure} :
    resolve index typeName space = .error e ↔
      e = .unsupportedArgument index typeName ∧
        ¬∃ words p, Resolved index typeName space words p := by
  have hok : (∃ words p, Resolved index typeName space words p) ↔
      ∃ p, resolve index typeName space = .ok p := by
    rw [exists_comm]
    exact exists_congr fun p => resolve_eq_ok_iff.symm
  rw [hok]
  rcases resolve_cases index typeName space with ⟨p, hp⟩ | herror
  · simp [hp]
  · simp [herror, eq_comm]

/-! ### Other spellings -/

/-- A type name with blanks and qualifiers put in, one after the other, where no word goes on. The
    qualifiers are listed, the last one first. -/
inductive Respelled (s : List Char) : List String → List Char → Prop
  | refl : Respelled s [] s
  | blanks {added : List String} {front back blanks : List Char}
      (earlier : Respelled s added (front ++ back))
      (apart : Text.Apart (unstarred front) (unstarred back))
      (isBlank : ∀ c ∈ blanks, Text.isBlank c) : Respelled s added (front ++ blanks ++ back)
  | qualifier {added : List String} {front back : List Char} {word : String}
      (earlier : Respelled s added (front ++ back)) (isQualifier : word ∈ qualifiers)
      (front_ends : ∀ c ∈ (unstarred front).getLast?, Text.isBlank c)
      (back_begins : ∀ c ∈ (unstarred back).head?, Text.isBlank c) :
      Respelled s (word :: added) (front ++ word.toList ++ back)

theorem unstarred_append (s s' : List Char) : unstarred (s ++ s') = unstarred s ++ unstarred s' :=
  List.map_append

theorem unstarred_of_not_mem {s : List Char} (h : '*' ∉ s) : unstarred s = s := by
  refine (List.map_congr_left fun c hc => if_neg ?_).trans (List.map_id s)
  rintro rfl
  exact h hc

/-- The words of a type name. -/
def wordsOf (s : List Char) : List String :=
  (Text.words (unstarred s)).map String.ofList

theorem typeWords_eq (typeName : String) : typeWords typeName = wordsOf typeName.toList :=
  rfl

theorem wordsOf_append {front back : List Char}
    (h : Text.Apart (unstarred front) (unstarred back)) :
    wordsOf (front ++ back) = wordsOf front ++ wordsOf back := by
  rw [wordsOf, unstarred_append, Text.words_append h, List.map_append, wordsOf, wordsOf]

theorem star_not_mem_blanks {blanks : List Char} (h : ∀ c ∈ blanks, Text.isBlank c) :
    '*' ∉ blanks := by
  intro hmem
  exact absurd (h '*' hmem) (by decide)

theorem wordsOf_insert_blanks {front back blanks : List Char}
    (h : Text.Apart (unstarred front) (unstarred back)) (hblanks : ∀ c ∈ blanks, Text.isBlank c) :
    wordsOf (front ++ blanks ++ back) = wordsOf (front ++ back) := by
  rw [wordsOf, unstarred_append, unstarred_append,
    unstarred_of_not_mem (star_not_mem_blanks hblanks), Text.words_insert_blanks h hblanks,
    ← unstarred_append, wordsOf]

theorem isWord_qualifier :
    ∀ word ∈ qualifiers, Text.IsWord word.toList ∧ '*' ∉ word.toList := by
  have h : qualifiers.all fun word => word.toList ≠ [] ∧
      word.toList.all (fun c => !Text.isBlank c && c != '*') := by
    decide
  intro word hword
  obtain ⟨hne, hall⟩ := of_decide_eq_true (List.all_eq_true.1 h word hword)
  have hplain (c : Char) (hc : c ∈ word.toList) : Text.isBlank c = false ∧ c ≠ '*' := by
    simpa using List.all_eq_true.1 hall c hc
  exact ⟨⟨hne, fun c hc => (hplain c hc).1⟩, fun hstar => (hplain '*' hstar).2 rfl⟩

theorem wordsOf_insert_qualifier {front back : List Char} {word : String}
    (hword : word ∈ qualifiers) (hfront : ∀ c ∈ (unstarred front).getLast?, Text.isBlank c)
    (hback : ∀ c ∈ (unstarred back).head?, Text.isBlank c) :
    wordsOf (front ++ word.toList ++ back) = wordsOf front ++ word :: wordsOf back := by
  obtain ⟨hisWord, hstar⟩ := isWord_qualifier word hword
  rw [wordsOf, unstarred_append, unstarred_append, unstarred_of_not_mem hstar,
    Text.words_insert_word hfront hisWord hback, List.map_append, List.map_cons,
    String.ofList_toList, wordsOf, wordsOf]

/-- What is put into a type name adds its qualifiers, and nothing else. -/
theorem Respelled.wordsOf_eq {s s' : List Char} {added : List String} (h : Respelled s added s') :
    ('*' ∈ s' ↔ '*' ∈ s) ∧
      (wordsOf s').filter (fun w => w ∉ qualifiers) =
        (wordsOf s).filter (fun w => w ∉ qualifiers) ∧
      ("const" ∈ wordsOf s' ↔ "const" ∈ wordsOf s ∨ "const" ∈ added) := by
  induction h with
  | refl => simp
  | @blanks added front back blanks _ apart isBlank ih =>
    obtain ⟨hstar, hwords, hconst⟩ := ih
    have hnone := star_not_mem_blanks isBlank
    refine ⟨?_, ?_, ?_⟩
    · rw [← hstar]
      simp [hnone]
    · rw [wordsOf_insert_blanks apart isBlank, hwords]
    · rw [wordsOf_insert_blanks apart isBlank, hconst]
  | @qualifier added front back word _ isQualifier front_ends back_begins ih =>
    obtain ⟨hstar, hwords, hconst⟩ := ih
    have hnone := (isWord_qualifier word isQualifier).2
    have hsplit : wordsOf (front ++ back) = wordsOf front ++ wordsOf back :=
      wordsOf_append (.inl front_ends)
    rw [hsplit] at hwords hconst
    refine ⟨?_, ?_, ?_⟩
    · rw [← hstar]
      simp [hnone]
    · rw [wordsOf_insert_qualifier isQualifier front_ends back_begins, ← hwords]
      simp [isQualifier]
    · rw [wordsOf_insert_qualifier isQualifier front_ends back_begins, List.mem_append,
        List.mem_cons, List.mem_cons]
      rw [List.mem_append] at hconst
      rw [or_left_comm, hconst, or_left_comm]

/-- The parameter behind a name to which qualifiers were added. -/
def respelled (p : Parameter) (added : List String) (typeName' : String) : Parameter :=
  { p with
    typeName := typeName'
    isConst := p.isConst || (p.isPointer && added.contains "const") }

/-- **Other spellings.** Blanks and qualifiers between the words of a type name change neither
    whether it is taken, nor the type, nor whether it is a pointer. A pointer is constant with
    `const` among its qualifiers. -/
theorem resolve_respelled {added : List String} {typeName' : String}
    (h : Respelled typeName.toList added typeName'.toList) :
    resolve index typeName' space =
      ((resolve index typeName space).map (·.respelled added typeName')).mapError
        fun _ => .unsupportedArgument index typeName' := by
  obtain ⟨hstar, hwords, hmem⟩ := h.wordsOf_eq
  have hpointer : typeName'.toList.contains '*' = typeName.toList.contains '*' := by
    rw [Bool.eq_iff_iff, List.contains_iff_mem, List.contains_iff_mem, hstar]
  have hconst : (wordsOf typeName'.toList).contains "const" =
      ((wordsOf typeName.toList).contains "const" || added.contains "const") := by
    rw [Bool.eq_iff_iff, Bool.or_eq_true, List.contains_iff_mem, List.contains_iff_mem,
      List.contains_iff_mem, hmem]
  unfold resolve
  simp only [filter_qualifiers, typeWords_eq, hpointer, hwords, hconst]
  cases ElementType.parse
      (" ".intercalate ((wordsOf typeName.toList).filter fun w => w ∉ qualifiers)) with
  | error e => rfl
  | ok type =>
    simp only
    by_cases hplaced : typeName.toList.contains '*' = (space != .workItem)
    · rw [if_pos hplaced, if_pos hplaced, Bool.and_or_distrib_left, ← Bool.or_assoc]
      rfl
    · rw [if_neg hplaced, if_neg hplaced]
      rfl

/-- **Type names are resolved as they should be.** A name is taken exactly where its words besides
    the qualifiers are the name of a type, and a star occurs in it exactly where the address space is
    not that of a work item; the parameter is then the one that the name stands for. For any other
    name the failure has the place of the parameter, and the name as it is. Blanks and qualifiers
    between the words change nothing but that a pointer with `const` is constant. -/
theorem resolve_eq_iff_resolved (index : Nat) (typeName : String) (space : AddressSpace) :
    (∀ p, resolve index typeName space = .ok p ↔
      ∃ words, Resolved index typeName space words p) ∧
    (∀ e, resolve index typeName space = .error e ↔
      e = .unsupportedArgument index typeName ∧
        ¬∃ words p, Resolved index typeName space words p) ∧
    ∀ added typeName', Respelled typeName.toList added typeName'.toList →
      resolve index typeName' space =
        ((resolve index typeName space).map (·.respelled added typeName')).mapError
          fun _ => .unsupportedArgument index typeName' :=
  ⟨fun _ => resolve_eq_ok_iff, fun _ => resolve_eq_error_iff, fun _ _ => resolve_respelled⟩

/-- A qualifier within the name of the type, which makes a constant buffer of it, and one behind the
    star. -/
theorem resolve_eq_iff_resolved_const :
    Respelled "unsigned char*".toList ["volatile", "const"]
        "unsigned const\u00a0 char*volatile".toList ∧
      resolve 2 "unsigned const\u00a0 char*volatile" .global =
        .ok ⟨2, "unsigned const\u00a0 char*volatile", .scalar .uchar, .global, true, true⟩ := by
  have hblank (edge : Option Char) (h : edge.all Text.isBlank) : ∀ c ∈ edge, Text.isBlank c :=
    (Option.all_eq_true _ _).1 h
  have hblanks : Respelled "unsigned char*".toList [] "unsigned \u00a0 char*".toList :=
    .blanks (.refl : Respelled _ [] ("unsigned ".toList ++ "char*".toList))
      (.inl (hblank _ (by decide)))
      (List.all_eq_true.1 (show "\u00a0 ".toList.all Text.isBlank by decide))
  have hconst : Respelled "unsigned char*".toList ["const"]
      "unsigned const\u00a0 char*".toList :=
    .qualifier (show Respelled _ [] ("unsigned ".toList ++ "\u00a0 char*".toList) from hblanks)
      (by decide) (hblank _ (by decide)) (hblank _ (by decide))
  have hvolatile : Respelled "unsigned char*".toList ["volatile", "const"]
      "unsigned const\u00a0 char*volatile".toList :=
    .qualifier (show Respelled _ ["const"]
      ("unsigned const\u00a0 char*".toList ++ "".toList) from hconst)
      (by decide) (hblank _ (by decide)) (hblank _ (by decide))
  refine ⟨hvolatile, ?_⟩
  rw [(resolve_eq_iff_resolved 2 "unsigned char*" .global).2.2 _ _ hvolatile]
  rfl

end KernelDiff.Parameter
