import KernelDiff.Element
import Mathlib.Data.List.Forall2

namespace KernelDiff

/-!
# Bytes and what they encode

Bytes of a known number are told apart by the words that they encode, and a list of whole
pieces by its pieces. So nothing is lost where bytes are compared by their lanes.

* `Bytes.ofNat_toNat`, `Bytes.toNat_inj` — a word and its bytes determine each other;
* `Bytes.flatten_wholePieces`, `Bytes.wholePieces_flatten` — whole pieces make up the list that they
  were cut from, and are cut from the list that they make up;
* `Lane.decode_inj`, `Element.same_iff_eq` — whole lanes determine the bytes, so elements are
  the same when their bytes are.
-/

namespace Bytes

/-! ### Words -/

/-- The bytes of the word that bytes encode are those bytes. -/
theorem ofNat_toNat (bytes : List UInt8) : ofNat bytes.length (toNat bytes) = bytes := by
  induction bytes with
  | nil => rfl
  | cons b bytes ih =>
    -- The first byte is the remainder modulo 256, and the others encode the quotient.
    have hlow : UInt8.ofNat (b.toNat + 256 * toNat bytes) = b := by
      apply UInt8.toNat_inj.1
      have := b.toNat_lt
      simp only [UInt8.toNat_ofNat']
      omega
    have hhigh : (b.toNat + 256 * toNat bytes) / 256 = toNat bytes := by
      have := b.toNat_lt
      omega
    simp only [toNat, List.length_cons, ofNat]
    rw [hlow, hhigh, ih]

theorem toNat_inj {a b : List UInt8} (hlength : a.length = b.length) :
    toNat a = toNat b ↔ a = b := by
  constructor
  · intro h
    rw [← ofNat_toNat a, ← ofNat_toNat b, hlength, h]
  · rintro rfl
    rfl

/-! ### Pieces -/

variable {α : Type} {size count : Nat} {xs : List α}

theorem length_of_mem_pieces (h : count * size ≤ xs.length) {piece : List α}
    (hpiece : piece ∈ pieces size count xs) : piece.length = size := by
  induction count generalizing xs with
  | zero => simp [pieces] at hpiece
  | succ count ih =>
    rw [Nat.add_mul, Nat.one_mul] at h
    rcases List.mem_cons.1 hpiece with rfl | hrest
    · rw [List.length_take]
      omega
    · refine ih ?_ hrest
      rw [List.length_drop]
      omega

theorem flatten_pieces (h : count * size ≤ xs.length) :
    (pieces size count xs).flatten = xs.take (count * size) := by
  induction count generalizing xs with
  | zero => simp [pieces]
  | succ count ih =>
    rw [Nat.add_mul, Nat.one_mul] at h
    -- What is left after one piece is long enough for the others.
    have hrest : count * size ≤ (xs.drop size).length := by
      rw [List.length_drop]
      omega
    rw [pieces, List.flatten_cons, ih hrest, Nat.add_mul, Nat.one_mul, Nat.add_comm,
      List.take_add]

theorem length_of_mem_wholePieces {piece : List α} (h : piece ∈ wholePieces size xs) :
    piece.length = size :=
  length_of_mem_pieces (Nat.div_mul_le_self xs.length size) h

/-- Whole pieces make up the list that they were cut from. -/
theorem flatten_wholePieces (h : size ∣ xs.length) : (wholePieces size xs).flatten = xs := by
  rw [wholePieces, flatten_pieces (Nat.div_mul_le_self xs.length size), Nat.div_mul_cancel h,
    List.take_length]

/-- A piece in front of other pieces is cut off first. -/
theorem wholePieces_append (hsize : 0 < size) (hxs : xs.length = size) (ys : List α) :
    wholePieces size (xs ++ ys) = xs :: wholePieces size ys := by
  have hcount : (xs ++ ys).length / size = ys.length / size + 1 := by
    rw [List.length_append, hxs, Nat.add_div_left _ hsize]
  rw [wholePieces, hcount, pieces, List.take_left' hxs, List.drop_left' hxs, wholePieces]

/-- Pieces of the same size are cut apart again. -/
theorem wholePieces_flatten (hsize : 0 < size) {parts : List (List α)}
    (h : ∀ part ∈ parts, part.length = size) : wholePieces size parts.flatten = parts := by
  induction parts with
  | nil => simp [wholePieces, pieces]
  | cons part parts ih =>
    obtain ⟨hpart, hparts⟩ := List.forall_mem_cons.1 h
    rw [List.flatten_cons, wholePieces_append hsize hpart, ih hparts]

theorem wholePieces_inj {ys : List α} (hx : size ∣ xs.length) (hy : size ∣ ys.length) :
    wholePieces size xs = wholePieces size ys ↔ xs = ys := by
  constructor
  · intro h
    rw [← flatten_wholePieces hx, ← flatten_wholePieces hy, h]
  · rintro rfl
    rfl

end Bytes

/-! ### Lanes and elements -/

/-- A map that tells the entries of two lists apart tells the lists apart. -/
theorem eq_of_map_eq {α β : Type} {f : α → β} {xs ys : List α}
    (hf : ∀ x ∈ xs, ∀ y ∈ ys, f x = f y → x = y) (h : xs.map f = ys.map f) : xs = ys := by
  induction xs generalizing ys with
  | nil =>
    cases ys with
    | nil => rfl
    | cons y ys => cases h
  | cons x xs ih =>
    cases ys with
    | nil => cases h
    | cons y ys =>
      simp only [List.map_cons, List.cons.injEq] at h
      have hhead : x = y := hf x (by simp) y (by simp) h.1
      have htail : xs = ys :=
        ih (fun x hx y hy => hf x (by simp [hx]) y (by simp [hy])) h.2
      rw [hhead, htail]

namespace Lane

/-- Bytes of whole lanes are told apart by the words of the lanes. -/
theorem decode_inj {k : ScalarKind} {a b : List UInt8} (ha : k.size ∣ a.length)
    (hb : k.size ∣ b.length) : decode k a = decode k b ↔ a = b := by
  constructor
  · intro h
    refine (Bytes.wholePieces_inj ha hb).1 (eq_of_map_eq (fun x hx y hy hxy => ?_) h)
    -- Lanes of one kind have one length, so their words tell them apart.
    have hlength : x.length = y.length := by
      rw [Bytes.length_of_mem_wholePieces hx, Bytes.length_of_mem_wholePieces hy]
    exact (Bytes.toNat_inj hlength).1 hxy
  · rintro rfl
    rfl

end Lane

namespace Element

theorem kind_size_dvd_size (t : ElementType) : t.kind.size ∣ t.size :=
  Nat.dvd_mul_left t.kind.size t.lanes

/-- Elements are the same when their bytes are. -/
theorem same_iff_eq {t : ElementType} {a b : List UInt8} (ha : a.length = t.size) :
    same t a b ↔ a = b := by
  have hdvd := kind_size_dvd_size t
  unfold same
  rw [Bool.and_eq_true, beq_iff_eq, beq_iff_eq]
  constructor
  · rintro ⟨hlength, hlanes⟩
    exact (Lane.decode_inj (ha ▸ hdvd) (hlength ▸ ha ▸ hdvd)).1 hlanes
  · rintro rfl
    exact ⟨rfl, rfl⟩

end Element

end KernelDiff
