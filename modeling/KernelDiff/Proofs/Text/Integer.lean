import KernelDiff.Text.Integer

namespace KernelDiff.Text

/-!
# Written integers are read back

A written integer is a row of digits, behind a minus sign where it is negative. So it stands apart
from every text with other characters in it, and the readers give the integer again.

* `isDigit_of_mem_ofNat`, `ofNat_ne_nil` — what a written number looks like;
* `digits?_ofNat`, `integer?_ofInt`, `integerIn?_ofInt` — what the readers make of it;
* `IsDigits`, `Numeral` — all texts that denote a number, with leading zeros and signs;
* `digits?_eq_some_iff`, `integer?_eq_some_iff` — the readers take these and no others.
-/

theorem isDigit_of_mem_ofNat {n : Nat} {c : Char} (h : c ∈ ofNat n) : c.isDigit :=
  Nat.isDigit_of_mem_toDigits (by decide) (by decide) h

theorem ofNat_ne_nil (n : Nat) : ofNat n ≠ [] :=
  Nat.toDigits_ne_nil

@[simp] theorem ofDigitChars_ofNat (n : Nat) : Nat.ofDigitChars 10 (ofNat n) 0 = n :=
  Nat.ofDigitChars_ten_toDigits

theorem ofInt_natCast (n : Nat) : ofInt n = ofNat n := by
  rw [ofInt, if_neg (by omega), Int.natAbs_natCast]

/-- The characters of a written integer. -/
theorem of_mem_ofInt {i : Int} {c : Char} (h : c ∈ ofInt i) : c.isDigit ∨ c = '-' := by
  unfold ofInt at h
  split at h
  · rcases List.mem_cons.1 h with rfl | hdigit
    · exact .inr rfl
    · exact .inl (isDigit_of_mem_ofNat hdigit)
  · exact .inl (isDigit_of_mem_ofNat h)

theorem ofInt_ne_nil (i : Int) : ofInt i ≠ [] := by
  unfold ofInt
  split
  · exact List.cons_ne_nil _ _
  · exact ofNat_ne_nil _

theorem digits?_of_isDigit {s : List Char} (hne : s ≠ []) (hdigits : ∀ c ∈ s, c.isDigit) :
    digits? s = some (Nat.ofDigitChars 10 s 0) := by
  have hall : s.all Char.isDigit = true := List.all_eq_true.2 hdigits
  have hempty : s.isEmpty = false := by simpa using hne
  simp [digits?, hall, hempty]

theorem digits?_ofNat (n : Nat) : digits? (ofNat n) = some n := by
  rw [digits?_of_isDigit (ofNat_ne_nil n) fun c hc => isDigit_of_mem_ofNat hc, ofDigitChars_ofNat]

/-- No digit is a sign, so a row of digits is read as one. -/
theorem integer?_of_isDigit {signed : Bool} {s : List Char} (hdigits : ∀ c ∈ s, c.isDigit) :
    integer? signed s = (digits? s).map Int.ofNat := by
  unfold integer?
  split
  · exact absurd (hdigits '+' (by simp)) (by decide)
  · exact absurd (hdigits '-' (by simp)) (by decide)
  · rfl

/-- A written integer is read back, a negative one where signs are allowed. -/
theorem integer?_ofInt {signed : Bool} {i : Int} (hsign : signed = false → 0 ≤ i) :
    integer? signed (ofInt i) = some i := by
  unfold ofInt
  by_cases hneg : i < 0
  · -- Only a signed reader gets to see a minus sign.
    have hsigned : signed = true := by
      cases signed with
      | true => rfl
      | false => exact absurd (hsign rfl) (by omega)
    have hvalue : -(i.natAbs : Int) = i := by omega
    rw [if_pos hneg, integer?, if_pos hsigned, digits?_ofNat]
    exact congrArg some hvalue
  · rw [if_neg hneg, integer?_of_isDigit fun c hc => isDigit_of_mem_ofNat hc, digits?_ofNat,
      Option.map_some, Option.some.injEq, Int.ofNat_eq_natCast]
    omega

theorem integerIn?_ofInt {signed : Bool} {lo hi i : Int} (hsign : signed = false → 0 ≤ i)
    (hlo : lo ≤ i) (hhi : i ≤ hi) : integerIn? signed lo hi (ofInt i) = some i := by
  simp [integerIn?, integer?_ofInt hsign, hlo, hhi]

/-! ### All texts that are read -/

/-- A row of one or more digits. -/
structure IsDigits (s : List Char) : Prop where
  ne_nil : s ≠ []
  isDigit : ∀ c ∈ s, c.isDigit

theorem isDigits_ofNat (n : Nat) : IsDigits (ofNat n) :=
  ⟨ofNat_ne_nil n, fun _ => isDigit_of_mem_ofNat⟩

/-- Rows of digits are read, and nothing else is. -/
theorem digits?_eq_some_iff {s : List Char} {n : Nat} :
    digits? s = some n ↔ IsDigits s ∧ Nat.ofDigitChars 10 s 0 = n := by
  constructor
  · intro h
    unfold digits? at h
    split at h
    · next hdigits =>
      simp only [Bool.and_eq_true, Bool.not_eq_true', List.isEmpty_eq_false_iff,
        List.all_eq_true] at hdigits
      exact ⟨⟨hdigits.1, hdigits.2⟩, Option.some.inj h⟩
    · cases h
  · rintro ⟨hdigits, rfl⟩
    exact digits?_of_isDigit hdigits.ne_nil hdigits.isDigit

/-- A row of digits behind an optional sign, and the integer that it denotes. A minus sign is for
    signed integers only. -/
inductive Numeral (signed : Bool) : List Char → Int → Prop
  | bare {s : List Char} (digits : IsDigits s) : Numeral signed s (Nat.ofDigitChars 10 s 0)
  | plus {s : List Char} (digits : IsDigits s) :
      Numeral signed ('+' :: s) (Nat.ofDigitChars 10 s 0)
  | minus {s : List Char} (isSigned : signed = true) (digits : IsDigits s) :
      Numeral signed ('-' :: s) (-(Nat.ofDigitChars 10 s 0 : Int))

theorem Numeral.of_mem {signed : Bool} {s : List Char} {i : Int} (h : Numeral signed s i)
    {c : Char} (hc : c ∈ s) : c.isDigit ∨ c = '+' ∨ c = '-' := by
  cases h with
  | bare digits => exact .inl (digits.isDigit c hc)
  | plus digits =>
    rcases List.mem_cons.1 hc with rfl | hc
    · exact .inr (.inl rfl)
    · exact .inl (digits.isDigit c hc)
  | minus _ digits =>
    rcases List.mem_cons.1 hc with rfl | hc
    · exact .inr (.inr rfl)
    · exact .inl (digits.isDigit c hc)

theorem Numeral.ne_nil {signed : Bool} {s : List Char} {i : Int} (h : Numeral signed s i) :
    s ≠ [] := by
  cases h with
  | bare digits => exact digits.ne_nil
  | plus digits => exact List.cons_ne_nil _ _
  | minus _ digits => exact List.cons_ne_nil _ _

/-- Numerals are read, and nothing else is. -/
theorem integer?_eq_some_iff {signed : Bool} {s : List Char} {i : Int} :
    integer? signed s = some i ↔ Numeral signed s i := by
  constructor
  · intro h
    unfold integer? at h
    split at h
    · obtain ⟨n, hn, rfl⟩ := Option.map_eq_some_iff.1 h
      obtain ⟨hdigits, rfl⟩ := digits?_eq_some_iff.1 hn
      exact .plus hdigits
    · split at h
      · next hsigned =>
        obtain ⟨n, hn, rfl⟩ : ∃ n, digits? _ = some n ∧ -(n : Int) = i := by
          simpa [Option.map_eq_some_iff, Option.bind_eq_some_iff] using h
        obtain ⟨hdigits, rfl⟩ := digits?_eq_some_iff.1 hn
        exact .minus hsigned hdigits
      · cases h
    · obtain ⟨n, hn, rfl⟩ := Option.map_eq_some_iff.1 h
      obtain ⟨hdigits, rfl⟩ := digits?_eq_some_iff.1 hn
      exact .bare hdigits
  · intro h
    cases h with
    | bare digits =>
      rw [integer?_of_isDigit digits.isDigit, digits?_of_isDigit digits.ne_nil digits.isDigit]
      rfl
    | plus digits =>
      rw [integer?, digits?_of_isDigit digits.ne_nil digits.isDigit]
      rfl
    | minus isSigned digits =>
      rw [integer?, if_pos isSigned, digits?_of_isDigit digits.ne_nil digits.isDigit]
      rfl

theorem integerIn?_eq_some_iff {signed : Bool} {lo hi i : Int} {s : List Char} :
    integerIn? signed lo hi s = some i ↔ Numeral signed s i ∧ lo ≤ i ∧ i ≤ hi := by
  simp [integerIn?, Option.filter_eq_some_iff, integer?_eq_some_iff]

end KernelDiff.Text
