import KernelDiff.ElementType
import KernelDiff.Proofs.Text.Blank
import KernelDiff.Proofs.Text.Integer

namespace KernelDiff

/-!
# The names of the element types

A name is the spelling of a scalar kind, or such a spelling directly followed by the number of
lanes in digits. No spelling ends in a digit, so the digits at the end of a name are the number of
lanes and nothing else.

* `ScalarKind.Spelled` — the spellings of a kind: its name and its aliases;
* `ElementType.Named` — the names of a type;
* `ElementType.ofName?_eq_some_iff` — the reader of names takes these and no others;
* `ElementType.parse_iff_named` — so it is with blanks around a name, and every type is read back
  from the name that it is shown with.
-/

namespace ScalarKind

/-- The spellings of the scalar kinds in OpenCL C. -/
inductive Spelled : ScalarKind → String → Prop
  | name (k : ScalarKind) : Spelled k k.name
  | unsignedChar : Spelled uchar "unsigned char"
  | unsignedShort : Spelled ushort "unsigned short"
  | unsignedInt : Spelled uint "unsigned int"
  | unsigned : Spelled uint "unsigned"
  | unsignedLong : Spelled ulong "unsigned long"

/-- What stands in the table is a spelling. -/
theorem spelled_of_mem_spellings : ∀ r ∈ spellings, r.2.Spelled r.1 := by
  refine List.forall_mem_append.2 ⟨List.forall_mem_map.2 fun k _ => .name k, ?_⟩
  simp only [aliases, List.forall_mem_cons]
  exact ⟨.unsignedChar, .unsignedShort, .unsignedInt, .unsigned, .unsignedLong, by simp⟩

/-- The table of spellings is complete, and none of them stands for two kinds. -/
theorem ofSpelling?_eq_some_iff {s : String} {k : ScalarKind} :
    ofSpelling? s = some k ↔ k.Spelled s := by
  constructor
  · intro h
    obtain ⟨before, after, htable, -⟩ := List.lookup_eq_some_iff.1 h
    exact spelled_of_mem_spellings (s, k) (by simp [htable])
  · intro h
    cases h with
    | name k => cases k <;> decide
    | _ => decide

/-- No spelling has a blank at its ends or a digit at its last one. -/
theorem Spelled.ends {k : ScalarKind} {s : String} (h : k.Spelled s) :
    s.toList ≠ [] ∧ Text.IsTight s.toList ∧ ∀ c ∈ s.toList.getLast?, c.isDigit = false := by
  unfold Text.IsTight
  cases h with
  | name k => cases k <;> simp [ScalarKind.name, Text.isBlank]
  | _ => simp [Text.isBlank]

end ScalarKind

/-- The widths of vectors are all but one. -/
theorem Width.ofVector?_eq_some_iff {n : Nat} {w : Width} :
    ofVector? n = some w ↔ w ≠ .one ∧ w.toNat = n := by
  constructor
  · intro h
    have hw := List.find?_some h
    simpa using hw
  · rintro ⟨hw, rfl⟩
    cases w <;> first | exact absurd rfl hw | rfl

namespace ElementType

theorem vector?_eq_some_iff {k : ScalarKind} {lanes : Nat} {t : ElementType} :
    vector? k lanes = some t ↔ t.kind = k ∧ t.width ≠ .one ∧ t.width.toNat = lanes := by
  unfold vector? ofWidth?
  constructor
  · intro h
    obtain ⟨w, hw, h⟩ := Option.bind_eq_some_iff.1 h
    split at h
    · cases h
      exact ⟨rfl, Width.ofVector?_eq_some_iff.1 hw⟩
    · cases h
  · rintro ⟨rfl, hwidth⟩
    rw [Width.ofVector?_eq_some_iff.2 hwidth, Option.bind_some, dif_pos t.bool_scalar]

/-- The names of the element types: a scalar spelling, or one that is directly followed by the
    number of lanes. There are no vectors of truth values. -/
inductive Named : List Char → ElementType → Prop
  | scalar {s : String} {k : ScalarKind} (spelled : k.Spelled s) : Named s.toList (.scalar k)
  | vector {s : String} {k : ScalarKind} {w : Width} {digits : List Char} (spelled : k.Spelled s)
      (not_bool : k ≠ .bool) (isDigits : Text.IsDigits digits)
      (lanes : Nat.ofDigitChars 10 digits 0 = w.toNat) (not_one : w ≠ .one) :
      Named (s.toList ++ digits) ⟨k, w, fun h => absurd h not_bool⟩

/-- The digits behind a spelling come off it again. -/
theorem digits_of_name {k : ScalarKind} {s : String} (h : k.Spelled s) {digits : List Char}
    (hdigits : ∀ c ∈ digits, c.isDigit) :
    ((s.toList ++ digits).reverse.dropWhile Char.isDigit).reverse = s.toList ∧
      ((s.toList ++ digits).reverse.takeWhile Char.isDigit).reverse = digits := by
  obtain ⟨hne, -, hlast⟩ := h.ends
  have hreverse : ∀ c ∈ digits.reverse, c.isDigit :=
    fun c hc => hdigits c (List.mem_reverse.1 hc)
  rw [List.reverse_append, List.dropWhile_append_of_pos hreverse,
    List.takeWhile_append_of_pos hreverse]
  -- The last character of the spelling is no digit, so no more than the digits comes off.
  obtain ⟨c, rest, hrest⟩ :=
    List.exists_cons_of_ne_nil fun hnil => hne (List.reverse_eq_nil_iff.1 hnil)
  have hc : ¬c.isDigit := by
    have hlast := hlast c (by rw [← List.head?_reverse, hrest, List.head?_cons, Option.mem_some])
    simp [hlast]
  rw [hrest, List.dropWhile_cons_of_neg hc, List.takeWhile_cons_of_neg hc, ← hrest]
  simp

/-- The name of a vector is no spelling, since it ends in a digit. -/
theorem ofSpelling?_of_digits {front digits : List Char} (hdigits : Text.IsDigits digits) :
    ScalarKind.ofSpelling? (String.ofList (front ++ digits)) = none := by
  by_contra hspelled
  obtain ⟨k, hk⟩ := Option.ne_none_iff_exists'.1 hspelled
  obtain ⟨-, -, hlast⟩ := (ScalarKind.ofSpelling?_eq_some_iff.1 hk).ends
  rw [String.toList_ofList, List.getLast?_append_of_ne_nil _ hdigits.ne_nil] at hlast
  have hdigit := hdigits.isDigit _ (List.getLast_mem hdigits.ne_nil)
  rw [hlast _ (List.getLast?_eq_some_getLast hdigits.ne_nil)] at hdigit
  cases hdigit

/-- **The reader of names takes the names of the types, and no others.** -/
theorem ofName?_eq_some_iff {name : List Char} {t : ElementType} :
    ofName? name = some t ↔ Named name t := by
  constructor
  · intro h
    unfold ofName? at h
    split at h
    · next k hk =>
      cases h
      have hnamed := Named.scalar (ScalarKind.ofSpelling?_eq_some_iff.1 hk)
      rwa [String.toList_ofList] at hnamed
    · -- The digits at the end are the number of lanes, and a spelling stands before them.
      obtain ⟨lanes, hlanes, h⟩ := Option.bind_eq_some_iff.1 h
      obtain ⟨k, hk, h⟩ := Option.bind_eq_some_iff.1 h
      obtain ⟨rfl, hwidth, rfl⟩ := vector?_eq_some_iff.1 h
      obtain ⟨hdigits, hvalue⟩ := Text.digits?_eq_some_iff.1 hlanes
      have hnamed := Named.vector (ScalarKind.ofSpelling?_eq_some_iff.1 hk)
        (fun hbool => hwidth (t.bool_scalar hbool)) hdigits hvalue hwidth
      rw [String.toList_ofList] at hnamed
      have hname : name.rdropWhile Char.isDigit ++ name.rtakeWhile Char.isDigit = name :=
        List.rdropWhile_append_rtakeWhile
      rwa [← hname]
  · intro h
    unfold ofName?
    cases h with
    | scalar spelled => rw [String.ofList_toList, ScalarKind.ofSpelling?_eq_some_iff.2 spelled]
    | vector spelled not_bool isDigits lanes not_one =>
      obtain ⟨hspelling, hdigits⟩ := digits_of_name spelled isDigits.isDigit
      rw [ofSpelling?_of_digits isDigits]
      simp only [hspelling, hdigits]
      rw [Text.digits?_eq_some_iff.2 ⟨isDigits, lanes⟩, String.ofList_toList,
        ScalarKind.ofSpelling?_eq_some_iff.2 spelled]
      exact vector?_eq_some_iff.2 ⟨rfl, not_one, rfl⟩

theorem Named.isTight {name : List Char} {t : ElementType} (h : Named name t) :
    Text.IsTight name ∧ name ≠ [] := by
  cases h with
  | scalar spelled => exact ⟨spelled.ends.2.1, spelled.ends.1⟩
  | vector spelled not_bool isDigits lanes not_one =>
    obtain ⟨hne, htight, -⟩ := spelled.ends
    refine ⟨⟨?_, ?_⟩, List.append_ne_nil_of_left_ne_nil hne _⟩
    · rw [List.head?_append_of_ne_nil _ hne]
      exact htight.1
    · rw [List.getLast?_append_of_ne_nil _ isDigits.ne_nil]
      exact fun c hc => Text.isBlank_digit (isDigits.isDigit c (List.mem_of_getLast? hc))

/-- A type is shown with one of its names. -/
theorem named_name (t : ElementType) : Named t.name.toList t := by
  obtain ⟨k, w, hbool⟩ := t
  unfold name isVector
  by_cases hw : w = .one
  · subst hw
    exact .scalar (.name k)
  · have hk : k ≠ .bool := fun h => hw (hbool h)
    rw [if_pos (by simpa using hw), String.toList_append, String.toList_ofList]
    exact .vector (.name k) hk (Text.isDigits_ofNat _) (Text.ofDigitChars_ofNat _) hw

/-- Blanks around a name do not count. -/
theorem ofName?_trim_eq_some_iff {text : List Char} {t : ElementType} :
    ofName? (Text.trim text) = some t ↔ ∃ name, Named name t ∧ Text.Padded name text := by
  rw [ofName?_eq_some_iff]
  constructor
  · intro h
    exact ⟨Text.trim text, h, Text.padded_trim text⟩
  · rintro ⟨name, h, hpadded⟩
    obtain ⟨htight, hne⟩ := h.isTight
    rwa [(Text.trim_eq_iff htight hne).2 hpadded]

/-- **Names of element types are read.** A text is read as a type exactly where it is one of the
    names of this type, with any blanks around it. For any other text the failure names the text as
    it is. Every type is read back from the name that it is shown with. -/
theorem parse_iff_named (s : String) :
    (∀ t, parse s = .ok t ↔ ∃ name, Named name t ∧ Text.Padded name s.toList) ∧
    (∀ e, parse s = .error e ↔
      e = .unknownType s ∧ ¬∃ t name, Named name t ∧ Text.Padded name s.toList) ∧
    ∀ t : ElementType, parse t.name = .ok t := by
  have hok (s : String) (t : ElementType) :
      parse s = .ok t ↔ ∃ name, Named name t ∧ Text.Padded name s.toList := by
    rw [← ofName?_trim_eq_some_iff, parse]
    cases ofName? (Text.trim s.toList) <;> simp
  refine ⟨hok s, fun e => ?_, fun t => ?_⟩
  · simp only [← ofName?_trim_eq_some_iff, parse]
    cases ofName? (Text.trim s.toList) with
    | none => simp [eq_comm]
    | some t => simp
  · exact (hok t.name t).2 ⟨_, named_name t, Text.padded_self _⟩

/-- Leading zeros and an alias, between blanks. -/
example : parse "\u00a0unsigned short008\n" = .ok ⟨.ushort, .eight, by decide⟩ := by decide

end ElementType

end KernelDiff
