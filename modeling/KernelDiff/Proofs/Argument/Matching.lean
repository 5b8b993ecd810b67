import KernelDiff.Proofs.Argument.Equality
import KernelDiff.Proofs.Lane.Floating

namespace KernelDiff

/-!
# What sameness compares

Sameness of argument lists is put together from sameness of arguments, buffers, elements and lanes,
and each of these compares lists of its own. All of them together compare bytes: in every place the
arguments are of one kind and type and hold the same bytes, as far as these make up whole elements.
Said in words of lanes it is a comparison of bit patterns, not of numbers: what is not a number is
the same as itself, and zeros of two signs differ.

* `Argument.Matches` — arguments of one kind, one type and the same bytes;
* `Argument.matches_iff_same`, `Argument.matches_iff_words` — matching is sameness, and it can be
  told from the words;
* `Arguments.same_iff_matches` — argument lists, place by place, and the laws of an equivalence.
-/

/-- Zeros of two signs are two words. -/
theorem BinaryFormat.signed_zero_ne (f : BinaryFormat) : f.signed false 0 ≠ f.signed true 0 := by
  show 0 ≠ f.signBit + 0
  have hpos : 0 < f.signBit := Nat.two_pow_pos _
  omega

namespace Buffer

/-- The bytes of the whole elements; a rest that makes no element is left out. -/
def wholeBytes (b : Buffer) : List UInt8 := b.host.take (b.length * b.type.size)

theorem length_wholeBytes (b : Buffer) : b.wholeBytes.length = b.length * b.type.size := by
  have hle : b.length * b.type.size ≤ b.host.length := Nat.div_mul_le_self _ _
  rw [wholeBytes, List.length_take, Nat.min_eq_left hle]

theorem flatten_elements (b : Buffer) : b.elements.flatten = b.wholeBytes :=
  Bytes.flatten_pieces (Nat.div_mul_le_self _ _)

/-- Elements of one type are equal when there are as many of them and their bytes are equal. -/
theorem elements_eq_iff {x y : Buffer} (htype : x.type = y.type) :
    x.elements = y.elements ↔ x.length = y.length ∧ x.wholeBytes = y.wholeBytes := by
  constructor
  · intro h
    rw [← length_elements, ← length_elements, ← flatten_elements, ← flatten_elements, h]
    exact ⟨rfl, rfl⟩
  · rintro ⟨hlength, hbytes⟩
    -- Where pieces are cut from equal bytes in equal sizes, they are equal.
    have hsizes (b : Buffer) :
        b.elements.map List.length = List.replicate b.length b.type.size := by
      rw [← length_elements b, ← List.length_map List.length]
      refine List.eq_replicate_of_mem fun size hsize => ?_
      obtain ⟨element, helement, rfl⟩ := List.mem_map.1 hsize
      exact length_of_mem_elements helement
    refine List.eq_iff_flatten_eq.2 ⟨?_, ?_⟩
    · rw [flatten_elements, flatten_elements, hbytes]
    · rw [hsizes, hsizes, hlength, htype]

theorem kind_size_dvd_wholeBytes (b : Buffer) : b.type.kind.size ∣ b.wholeBytes.length := by
  rw [length_wholeBytes]
  exact Nat.dvd_mul_left_of_dvd (Element.kind_size_dvd_size b.type) b.length

/-- As many whole elements as there are bytes for. -/
theorem length_eq_of_wholeBytes {x y : Buffer} (htype : x.type = y.type)
    (hbytes : x.wholeBytes = y.wholeBytes) : x.length = y.length := by
  have hlength := congrArg List.length hbytes
  rw [length_wholeBytes, length_wholeBytes, htype] at hlength
  exact Nat.eq_of_mul_eq_mul_right y.type.size_pos hlength

end Buffer

namespace Argument

/-- The kinds of arguments. -/
inductive Kind
  | scalar | scratch | buffer
  deriving DecidableEq, Repr

/-- The kind of an argument. -/
def kind : Argument → Kind
  | scalar _ => .scalar
  | scratch .. => .scratch
  | buffer _ => .buffer

/-- The words of the lanes that the argument holds, as far as a user can see them. -/
def words : Argument → List Nat
  | scalar v => Lane.decode v.type.kind v.bytes
  | scratch .. => []
  | buffer b => Lane.decode b.type.kind b.wholeBytes

/-- Two arguments are of one kind and type and hold the same bytes. Of work-group memory nothing but
    the type counts. Of buffers there are as many whole elements, with the same bytes; their memory,
    whether kernels can write them and a rest that makes no element do not count. -/
inductive Matches : Argument → Argument → Prop
  | scalar {v w : Value} (type_eq : v.type = w.type) (bytes_eq : v.bytes = w.bytes) :
      Matches (.scalar v) (.scalar w)
  | scratch (t : ElementType) (length length' : Nat) :
      Matches (.scratch t length) (.scratch t length')
  | buffer {x y : Buffer} (type_eq : x.type = y.type) (length_eq : x.length = y.length)
      (bytes_eq : x.wholeBytes = y.wholeBytes) : Matches (.buffer x) (.buffer y)

/-- **Arguments match when they are the same.** -/
theorem matches_iff_same {a b : Argument} : a.Matches b ↔ a.same b := by
  constructor
  · intro h
    cases h with
    | @scalar v w htype hbytes =>
      obtain ⟨t, bytes, hlength⟩ := v
      cases htype
      cases hbytes
      exact Value.same_iff.2 rfl
    | scratch t length length' => exact beq_iff_eq.2 rfl
    | buffer htype hlength hbytes =>
      exact Buffer.same_iff.2 ⟨htype, (Buffer.elements_eq_iff htype).2 ⟨hlength, hbytes⟩⟩
  · intro h
    cases a with
    | scalar v =>
      cases b with
      | scalar w =>
        obtain rfl : v = w := Value.same_iff.1 h
        exact .scalar rfl rfl
      | _ => cases h
    | scratch t length =>
      cases b with
      | scratch t' length' =>
        obtain rfl : t = t' := beq_iff_eq.1 h
        exact .scratch t length length'
      | _ => cases h
    | buffer x =>
      cases b with
      | buffer y =>
        obtain ⟨htype, helements⟩ := Buffer.same_iff.1 h
        obtain ⟨hlength, hbytes⟩ := (Buffer.elements_eq_iff htype).1 helements
        exact .buffer htype hlength hbytes
      | _ => cases h

/-- Arguments match when they are of one kind and type and their lanes are the same words. -/
theorem matches_iff_words {a b : Argument} :
    a.Matches b ↔ a.kind = b.kind ∧ a.type = b.type ∧ a.words = b.words := by
  constructor
  · rintro (⟨htype, hbytes⟩ | ⟨t, length, length'⟩ | ⟨htype, hlength, hbytes⟩)
    · exact ⟨rfl, htype, by simp only [words, htype, hbytes]⟩
    · exact ⟨rfl, rfl, rfl⟩
    · exact ⟨rfl, htype, by simp only [words, htype, hbytes]⟩
  · rintro ⟨hkind, htype, hwords⟩
    cases a with
    | scalar v =>
      cases b with
      | scalar w =>
        have hwhole (u : Value) : u.type.kind.size ∣ u.bytes.length :=
          u.length_bytes ▸ Element.kind_size_dvd_size u.type
        have htype : v.type = w.type := htype
        simp only [words, htype] at hwords
        exact .scalar htype ((Lane.decode_inj (htype ▸ hwhole v) (hwhole w)).1 hwords)
      | _ => cases hkind
    | scratch t length =>
      cases b with
      | scratch t' length' =>
        obtain rfl : t = t' := htype
        exact .scratch t length length'
      | _ => cases hkind
    | buffer x =>
      cases b with
      | buffer y =>
        have htype : x.type = y.type := htype
        simp only [words, htype] at hwords
        have hbytes := (Lane.decode_inj (htype ▸ x.kind_size_dvd_wholeBytes)
          y.kind_size_dvd_wholeBytes).1 hwords
        exact .buffer htype (Buffer.length_eq_of_wholeBytes htype hbytes) hbytes
      | _ => cases hkind

end Argument

namespace Arguments

/-- **Sameness compares bytes, place by place.** Argument lists are the same exactly when they are
    of one length and match in every place. Matching is equality of kind, type and words, so zeros
    of two signs do not match, whereas what is not a number matches itself. Sameness is an
    equivalence. -/
theorem same_iff_matches :
    (∀ a b : Arguments, a.same b ↔ a.length = b.length ∧
      ∀ (i : Nat) (ha : i < a.length) (hb : i < b.length), a[i].Matches b[i]) ∧
    (∀ x y : Argument, x.Matches y ↔ x.kind = y.kind ∧ x.type = y.type ∧ x.words = y.words) ∧
    (∀ (x y : Argument) (stored shown : BinaryFormat) (i : Nat),
      x.type.kind.encoding = .floating stored shown → x.words[i]? = some (stored.signed false 0) →
      y.words[i]? = some (stored.signed true 0) → ¬x.Matches y) ∧
    (∀ x : Argument, (∃ word ∈ x.words, Lane.isNaN x.type.kind word) → Arguments.same [x] [x]) ∧
    Equivalence fun a b : Arguments => a.same b := by
  -- Sameness of lists goes through what can be observed, place by place.
  have hsame (a b : Arguments) : a.same b ↔ List.Forall₂ Argument.Matches a b := by
    rw [same_iff, observations, observations, ← List.forall₂_eq_eq_eq, List.forall₂_map_left_iff,
      List.forall₂_map_right_iff]
    simp only [← Argument.same_iff, ← Argument.matches_iff_same]
  refine ⟨fun a b => ?_, fun x y => Argument.matches_iff_words, ?_, ?_, ?_⟩
  · rw [hsame, List.forall₂_iff_get]
    exact Iff.rfl
  · intro x y stored shown i hencoding hx hy hmatches
    -- Matching arguments would have one word in this place.
    have hwords := (Argument.matches_iff_words.1 hmatches).2.2
    rw [hwords, hy, Option.some.injEq] at hx
    exact stored.signed_zero_ne hx.symm
  · intro x _
    exact same_iff.2 rfl
  · refine ⟨fun a => same_iff.2 rfl, fun h => ?_, fun h h' => ?_⟩
    · exact same_iff.2 (same_iff.1 h).symm
    · exact same_iff.2 ((same_iff.1 h).trans (same_iff.1 h'))

end Arguments

end KernelDiff
