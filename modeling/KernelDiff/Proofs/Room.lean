import KernelDiff.ElementType
import Mathlib.Algebra.GroupWithZero.Nat

namespace KernelDiff.ElementType

/-!
# Room for elements

How many bytes some elements take is computed in machine words, where a product that is too large
wraps around. The size of an element is a power of two, so what is left of the product is again the
size of whole elements; only they are fewer.

* `ElementType.Fits` — the bytes of so many elements can be counted in a word;
* `ElementType.room_eq_mod`, `ElementType.extent_eq_room_mul` — what is left where they cannot;
* `ElementType.room_eq_self_iff` — there is room for all elements exactly where they fit.
-/

variable (t : ElementType) {n : Nat}

/-- The bytes of so many elements can be counted in a machine word. -/
def Fits (n : Nat) : Prop := n * t.size < UInt64.size

instance (n : Nat) : Decidable (t.Fits n) :=
  inferInstanceAs (Decidable (_ < _))

/-- The numbers of elements that there can be room for. -/
def period : Nat := UInt64.size / t.size

theorem size_dvd_128 : t.size ∣ 16 * 8 := by
  have hlanes : t.width.stored ∣ 16 := by cases t.width <;> decide
  have hlane : t.kind.size ∣ 8 := by cases t.kind <;> decide
  exact Nat.mul_dvd_mul hlanes hlane

theorem period_mul_size : t.period * t.size = UInt64.size :=
  Nat.div_mul_cancel (Nat.dvd_trans t.size_dvd_128 (by decide))

theorem one_lt_period : 1 < t.period := by
  have hsize : t.size ≤ 16 * 8 := Nat.le_of_dvd (by decide) t.size_dvd_128
  refine (Nat.le_div_iff_mul_le t.size_pos).2 ?_
  have hword : 2 * (16 * 8) ≤ UInt64.size := by decide
  omega

/-- What is left of a product that is too large are the bytes of whole elements. -/
theorem extent_eq_mod_mul (n : Nat) : t.extent n = n % t.period * t.size := by
  rw [extent, ← t.period_mul_size, Nat.mul_mod_mul_right]

theorem room_eq_mod (n : Nat) : t.room n = n % t.period := by
  rw [room, extent_eq_mod_mul, Nat.mul_div_cancel _ t.size_pos]

theorem extent_eq_room_mul (n : Nat) : t.extent n = t.room n * t.size := by
  rw [extent_eq_mod_mul, room_eq_mod]

theorem room_lt_period (n : Nat) : t.room n < t.period := by
  rw [room_eq_mod]
  exact Nat.mod_lt _ (Nat.lt_trans Nat.zero_lt_one t.one_lt_period)

theorem room_le (n : Nat) : t.room n ≤ n := by
  rw [room_eq_mod]
  exact Nat.mod_le _ _

theorem fits_iff_lt_period : t.Fits n ↔ n < t.period := by
  rw [Fits, ← t.period_mul_size]
  exact Nat.mul_lt_mul_right t.size_pos

/-- **There is room for all elements** exactly where their bytes can be counted. -/
theorem room_eq_self_iff : t.room n = n ↔ t.Fits n := by
  rw [room_eq_mod, fits_iff_lt_period]
  constructor
  · intro h
    exact h ▸ t.room_eq_mod n ▸ t.room_lt_period n
  · exact Nat.mod_eq_of_lt

variable {t}

theorem Fits.room_eq (h : t.Fits n) : t.room n = n :=
  t.room_eq_self_iff.2 h

/-- Behind the last element that there can be room for, places start over. -/
theorem room_succ (t : ElementType) (n : Nat) :
    t.room (n + 1) = t.room n + 1 ∨ t.room n + 1 = t.period ∧ t.room (n + 1) = 0 := by
  have hroom := t.room_lt_period n
  have hsucc : t.room (n + 1) = (t.room n + 1) % t.period := by
    rw [room_eq_mod, room_eq_mod, Nat.mod_add_mod]
  rcases Nat.lt_or_eq_of_le (Nat.succ_le_of_lt hroom) with hlt | heq
  · exact .inl (hsucc.trans (Nat.mod_eq_of_lt hlt))
  · refine .inr ⟨heq, ?_⟩
    rw [hsucc, ← Nat.succ_eq_add_one, heq, Nat.mod_self]

end KernelDiff.ElementType
