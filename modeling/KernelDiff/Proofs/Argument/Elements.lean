import KernelDiff.Proofs.Argument.Equality
import KernelDiff.Proofs.Execution.Alignment
import KernelDiff.Proofs.Lane.Seeds
import KernelDiff.Proofs.Room

namespace KernelDiff

/-!
# The elements of a buffer

A buffer can be cut into its elements, asked for one of them, or filled with copies of one. The
three agree.

* `Buffer.element?_eq` — an element of a buffer is an entry of its elements;
* `Buffer.elements_of_flatten` — a buffer made of elements is cut into these;
* `Buffer.host_filled`, `Buffer.element?_filled` — a filled buffer is made of copies.
-/

theorem Bytes.getElem?_pieces {α : Type} (size count i : Nat) (xs : List α) :
    (pieces size count xs)[i]? =
      if i < count then some ((xs.drop (i * size)).take size) else none := by
  induction count generalizing i xs with
  | zero => simp [pieces]
  | succ count ih =>
    cases i with
    | zero => simp [pieces]
    | succ i =>
      rw [pieces, List.getElem?_cons_succ, ih, List.drop_drop, Nat.succ_mul, Nat.add_comm]
      simp only [Nat.succ_lt_succ_iff]

namespace Element

/-- Copies of one element have every lane set to its seed. -/
theorem fill_eq_flatten (t : ElementType) (seed : Int64) (length : Nat) :
    fill t seed (List.replicate (length * t.size) 0) =
      (List.replicate length (ofSeed t seed)).flatten := by
  rw [ElementType.size, ← Nat.mul_assoc, fill_replicate, ofSeed_eq_encode]
  induction length with
  | zero => simp [Lane.encode]
  | succ length ih =>
    have hlanes (word : Nat) : List.replicate ((length + 1) * t.lanes) word =
        List.replicate t.lanes word ++ List.replicate (length * t.lanes) word := by
      rw [List.replicate_append_replicate, Nat.succ_mul, Nat.add_comm]
    rw [hlanes, Lane.encode, List.flatMap_append, ← Lane.encode, ← Lane.encode, ih,
      List.replicate_succ, List.flatten_cons]

end Element

namespace Buffer

/-- Asking for an element gives the entry of the elements whose place is left when all that is
    beyond the range of a word is dropped. -/
theorem element?_eq {b : Buffer} (hword : b.host.length < UInt64.size) (i : Nat) :
    b.element? i = b.elements[b.type.room i]? := by
  have hcount : b.host.length / b.type.size < b.type.period :=
    Nat.div_lt_of_lt_mul <| by rwa [Nat.mul_comm, b.type.period_mul_size]
  unfold element? elements Bytes.wholePieces
  rw [Bytes.getElem?_pieces, ElementType.extent_eq_room_mul, ElementType.extent_eq_room_mul]
  rcases b.type.room_succ i with hnext | ⟨hlast, hnext⟩
  · have hplace : (b.type.room i + 1) * b.type.size ≤ b.host.length ↔
        b.type.room i < b.host.length / b.type.size := by
      rw [← Nat.succ_le_iff, Nat.le_div_iff_mul_le b.type.size_pos]
    have horder : b.type.room i * b.type.size ≤ (b.type.room i + 1) * b.type.size :=
      Nat.mul_le_mul_right _ (Nat.le_succ _)
    have hsize : (b.type.room i + 1) * b.type.size - b.type.room i * b.type.size =
        b.type.size := by
      rw [Nat.succ_mul, Nat.add_sub_cancel_left]
    simp only [hnext, hplace, horder, hsize, true_and]
  · -- The last of all places ends where the first one starts, so there is nothing there.
    have hpos : 0 < b.type.room i * b.type.size :=
      Nat.mul_pos (by have := b.type.one_lt_period; omega) b.type.size_pos
    rw [hnext, Nat.zero_mul, if_neg (by omega), if_neg (by omega)]

variable {b : Buffer} {parts : List (List UInt8)}

/-- A buffer made of elements is cut into these. -/
theorem elements_of_flatten (hhost : b.host = parts.flatten)
    (hparts : ∀ part ∈ parts, part.length = b.type.size) : b.elements = parts := by
  rw [elements, hhost, Bytes.wholePieces_flatten b.type.size_pos hparts]

theorem host_filled (t : ElementType) (length : Nat) (seed : Int64) :
    (filled t length seed).host =
      (List.replicate (t.room length) (Element.ofSeed t seed)).flatten := by
  rw [← Element.fill_eq_flatten, ← t.extent_eq_room_mul]
  rfl

theorem elements_filled (t : ElementType) (length : Nat) (seed : Int64) :
    (filled t length seed).elements =
      List.replicate (t.room length) (Element.ofSeed t seed) := by
  refine elements_of_flatten (host_filled t length seed) fun part hpart => ?_
  rw [List.eq_of_mem_replicate hpart]
  exact Element.length_ofSeed t seed

/-- A filled buffer has the elements that it was filled with and that there is room for, and no
    others. -/
theorem element?_filled (t : ElementType) (length : Nat) (seed : Int64) (i : Nat) :
    (filled t length seed).element? i =
      if t.room i < t.room length then some (Element.ofSeed t seed) else none := by
  have hword : (filled t length seed).host.length < UInt64.size := by
    rw [filled, Element.length_fill, List.length_replicate]
    exact Nat.mod_lt _ (by decide)
  rw [element?_eq hword, elements_filled, List.getElem?_replicate]
  rfl

end Buffer

end KernelDiff
