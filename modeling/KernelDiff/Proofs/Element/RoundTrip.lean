import KernelDiff.Proofs.Lane.Floating
import KernelDiff.Proofs.Lane.Integer

namespace KernelDiff.Element

/-!
# Elements are read back from their texts

What the writer of elements writes, the reader reads as the same element. For the integer kinds
and for truth values nothing is lost at all: every bit pattern comes back, also a truth value that
is neither zero nor one and the lane that pads a vector of three. For the floating-point kinds the
sign and the payload of what is not a number are lost, and nothing else.

* `parse_text_of_not_isFloat` — elements of these kinds are read back, and told apart by their
  texts;
* `parse_text_of_isFloat` — floating-point elements are read back, in the shortest digits;
* `ofText?_text_of_numbers` — elements of any kind whose lanes are numbers are read back.
-/

variable {t : ElementType} {bytes : List UInt8}

theorem parse_eq_ok {s : List Char} (h : ofText? t s = some bytes) :
    parse t (String.ofList s) = .ok bytes := by
  rw [parse, String.toList_ofList, h]

/-- All lanes of an integer kind come back. -/
theorem ofText?_text_of_not_isFloat (hkind : t.kind.isFloat = false)
    (hlength : bytes.length = t.size) {before after : List Char}
    (hbefore : ∀ c ∈ before, Text.isBlank c) (hafter : ∀ c ∈ after, Text.isBlank c) :
    ofText? t (before ++ text t bytes ++ after) = some bytes := by
  have hwhole : t.kind.size ∣ bytes.length := hlength ▸ kind_size_dvd_size t
  have hread := ofText?_text id hlength
    (fun word _ => Lane.isPlain_text_of_not_isFloat hkind)
    (fun word hword => Lane.parse?_text_of_not_isFloat hkind (Lane.decode_lt hword))
    hbefore hafter
  rw [hread, List.map_id, Lane.encode_decode hwhole]

/-- All lanes that are numbers come back, of any kind. -/
theorem ofText?_text_of_numbers (hlength : bytes.length = t.size)
    (hnumbers : ∀ word ∈ Lane.decode t.kind bytes, Lane.isNaN t.kind word = false) :
    ofText? t (text t bytes) = some bytes := by
  have hwhole : t.kind.size ∣ bytes.length := hlength ▸ kind_size_dvd_size t
  have hplain : ∀ word ∈ Lane.decode t.kind bytes,
      Lane.IsPlain (Lane.text t.kind word) ∧
        Lane.parse? t.kind (Lane.text t.kind word) = some word := by
    intro word hword
    cases hkind : t.kind.isFloat with
    | true =>
      refine ⟨Lane.isPlain_text_of_isFloat hkind (Lane.decode_lt hword), ?_⟩
      rw [Lane.parse?_text_of_isFloat hkind (Lane.decode_lt hword), Lane.canonical,
        hnumbers word hword]
      rfl
    | false =>
      exact ⟨Lane.isPlain_text_of_not_isFloat hkind,
        Lane.parse?_text_of_not_isFloat hkind (Lane.decode_lt hword)⟩
  have hread := ofText?_text id hlength (fun word hword => (hplain word hword).1)
    (fun word hword => (hplain word hword).2)
    (fun c (hc : c ∈ []) => nomatch hc) (fun c (hc : c ∈ []) => nomatch hc)
  rwa [List.nil_append, List.append_nil, List.map_id, Lane.encode_decode hwhole] at hread

/-- **Integer elements are read back.** Bytes of an element of an integer kind or of truth values,
    whatever bits they hold, are what their text is read as, with any white space around it. So
    such elements have the same text only where they have the same bytes. -/
theorem parse_text_of_not_isFloat (hkind : t.kind.isFloat = false)
    (hlength : bytes.length = t.size) {before after : List Char}
    (hbefore : ∀ c ∈ before, Text.isBlank c) (hafter : ∀ c ∈ after, Text.isBlank c) :
    parse t (String.ofList (before ++ text t bytes ++ after)) = .ok bytes ∧
      ∀ other : List UInt8, other.length = t.size → text t other = text t bytes →
        other = bytes := by
  refine ⟨parse_eq_ok (ofText?_text_of_not_isFloat hkind hlength hbefore hafter), ?_⟩
  intro other hother hsame
  -- Both are what one text is read as.
  have hread := ofText?_text_of_not_isFloat hkind hlength hbefore hafter
  have hread' := ofText?_text_of_not_isFloat hkind hother hbefore hafter
  rw [hsame, hread] at hread'
  exact (Option.some.inj hread').symm

/-- The least, the greatest and a negative value, and a padding lane, between blanks. -/
theorem parse_text_of_not_isFloat_char3 :
    let t : ElementType := ⟨.char, .three, by decide⟩
    let bytes : List UInt8 := [0x80, 0x7f, 0xff, 0x05]
    t.kind.isFloat = false ∧ bytes.length = t.size ∧
    text t bytes = "(-128, 127, -1, 5)".toList ∧
    parse t (String.ofList ([' ', '\t'] ++ text t bytes ++ ['\u3000'])) = .ok bytes ∧
      ∀ other : List UInt8, other.length = t.size → text t other = text t bytes →
        other = bytes := by
  intro t bytes
  refine ⟨rfl, rfl, by decide, ?_⟩
  exact parse_text_of_not_isFloat rfl rfl (List.all_eq_true.1 rfl) (List.all_eq_true.1 rfl)

/-- **Floating-point elements are read back.** Every lane that is a number comes back as it was, and
    every other one as the positive quiet word without a payload. The text of a lane is the
    shortest one, and reading rounds to the nearest word, ties to even. -/
theorem parse_text_of_isFloat (hkind : t.kind.isFloat) (hlength : bytes.length = t.size) :
    parse t (String.ofList (text t bytes)) =
      .ok (Lane.encode t.kind ((Lane.decode t.kind bytes).map (Lane.canonical t.kind))) ∧
    ((∀ word ∈ Lane.decode t.kind bytes, Lane.isNaN t.kind word = false) →
      parse t (String.ofList (text t bytes)) = .ok bytes) ∧
    text t bytes = join t ((Lane.decode t.kind bytes).map (Lane.text t.kind)) ∧
    ∃ stored shown, Lane.Shown t.kind stored shown := by
  have hread := ofText?_text (Lane.canonical t.kind) hlength
    (fun word hword => Lane.isPlain_text_of_isFloat hkind (Lane.decode_lt hword))
    (fun word hword => Lane.parse?_text_of_isFloat hkind (Lane.decode_lt hword))
    (fun c (hc : c ∈ []) => nomatch hc) (fun c (hc : c ∈ []) => nomatch hc)
  rw [List.nil_append, List.append_nil] at hread
  refine ⟨parse_eq_ok hread, fun hnumbers => ?_, text_eq_join t bytes,
    Lane.shown_of_isFloat hkind⟩
  have hsame : (Lane.decode t.kind bytes).map (Lane.canonical t.kind) =
      Lane.decode t.kind bytes := by
    refine (List.map_congr_left fun word hword => ?_).trans (List.map_id _)
    simp [Lane.canonical, hnumbers word hword]
  have hwhole : t.kind.size ∣ bytes.length := hlength ▸ kind_size_dvd_size t
  rw [parse_eq_ok hread, hsame, Lane.encode_decode hwhole]

/-- A negative zero, the least and the greatest value, and a negative word with a payload that is
    not a number. -/
theorem parse_text_of_isFloat_half4 :
    let t : ElementType := ⟨.half, .four, by decide⟩
    let bytes : List UInt8 := [0x00, 0x80, 0x01, 0x00, 0xff, 0x7b, 0x01, 0xfe]
    t.kind.isFloat ∧ bytes.length = t.size ∧
    text t bytes = "(-0, 0.000000059604645, 65504, NaN)".toList ∧
    parse t (String.ofList (text t bytes)) =
      .ok [0x00, 0x80, 0x01, 0x00, 0xff, 0x7b, 0x00, 0x7e] := by
  intro t bytes
  refine ⟨rfl, rfl, by decide +kernel, ?_⟩
  have hkind : t.kind.isFloat := rfl
  have hlength : bytes.length = t.size := rfl
  rw [(parse_text_of_isFloat hkind hlength).1]
  decide +kernel

end KernelDiff.Element
