import KernelDiff.Proofs.Bytes

namespace KernelDiff

/-!
# Lanes as words

The bytes of whole lanes and the words of these lanes say the same.

* `Lane.decode_lt` — a lane is a word of its kind's size;
* `Lane.encode_decode`, `Lane.decode_encode` — the words of whole lanes give the bytes again, and
  the bytes the words;
* `Lane.encode_replicate_inj` — bytes of equal lanes determine the lane.
-/

namespace Bytes

theorem toNat_lt (bytes : List UInt8) : toNat bytes < 2 ^ (8 * bytes.length) := by
  induction bytes with
  | nil => decide
  | cons b bytes ih =>
    have hb := b.toNat_lt
    have hpow : 2 ^ (8 * (bytes.length + 1)) = 256 * 2 ^ (8 * bytes.length) := by
      rw [Nat.mul_add, Nat.pow_add, Nat.mul_comm]
    rw [toNat, List.length_cons, hpow]
    omega

/-- The word that a word's bytes encode is that word, if there are enough of them. -/
theorem toNat_ofNat {size word : Nat} (h : word < 2 ^ (8 * size)) :
    toNat (ofNat size word) = word := by
  induction size generalizing word with
  | zero =>
    rw [Nat.mul_zero, Nat.pow_zero] at h
    rw [ofNat, toNat]
    omega
  | succ size ih =>
    rw [Nat.mul_succ, Nat.pow_add] at h
    have hlow : (UInt8.ofNat word).toNat = word % 256 := by simp
    have hdiv : word / 256 * 256 + word % 256 = word := Nat.div_add_mod' word 256
    rw [ofNat, toNat, hlow, ih (by omega)]
    omega

theorem ofNat_zero (size : Nat) : ofNat size 0 = List.replicate size 0 := by
  induction size with
  | zero => rfl
  | succ size ih =>
    rw [ofNat, Nat.zero_div, ih, List.replicate_succ]
    rfl

end Bytes

namespace Lane

variable {k : ScalarKind} {bytes : List UInt8}

theorem decode_lt {word : Nat} (h : word ∈ decode k bytes) : word < 2 ^ bits k := by
  obtain ⟨piece, hpiece, rfl⟩ := List.mem_map.1 h
  have hlt := Bytes.toNat_lt piece
  rwa [Bytes.length_of_mem_wholePieces hpiece] at hlt

theorem length_decode : (decode k bytes).length = bytes.length / k.size := by
  rw [decode, List.length_map, Bytes.wholePieces, Bytes.length_pieces]

/-- Bytes of whole lanes are the bytes of their words. -/
theorem encode_decode (h : k.size ∣ bytes.length) : encode k (decode k bytes) = bytes := by
  have hpieces : (Bytes.wholePieces k.size bytes).map
      (fun p => Bytes.ofNat k.size (Bytes.toNat p)) = Bytes.wholePieces k.size bytes := by
    refine (List.map_congr_left fun p hp => ?_).trans (List.map_id _)
    rw [← Bytes.length_of_mem_wholePieces hp, Bytes.ofNat_toNat, id]
  rw [encode, decode, List.flatMap_map, List.flatMap_def, hpieces, Bytes.flatten_wholePieces h]

theorem encode_cons (word : Nat) (words : List Nat) :
    encode k (word :: words) = Bytes.ofNat k.size word ++ encode k words :=
  rfl

/-- The bytes of words are the bytes of lanes with these words. -/
theorem decode_encode {words : List Nat} (h : ∀ word ∈ words, word < 2 ^ bits k) :
    decode k (encode k words) = words := by
  induction words with
  | nil =>
    have hnone : 0 / k.size = 0 := Nat.zero_div _
    simp [decode, encode, Bytes.wholePieces, hnone, Bytes.pieces]
  | cons word words ih =>
    rw [encode_cons, decode, Bytes.wholePieces_append k.size_pos (Bytes.length_ofNat _ _),
      List.map_cons, Bytes.toNat_ofNat (h word (by simp))]
    exact congrArg (word :: ·) (ih fun word' hword' => h word' (by simp [hword']))

/-- Where all lanes are equal, the bytes tell which word they are. -/
theorem encode_replicate_inj {count word word' : Nat} (hcount : count ≠ 0)
    (hword : word < 2 ^ bits k) (hword' : word' < 2 ^ bits k) :
    encode k (List.replicate count word) = encode k (List.replicate count word') ↔
      word = word' := by
  obtain ⟨rest, rfl⟩ := Nat.exists_eq_succ_of_ne_zero hcount
  constructor
  · intro h
    rw [List.replicate_succ, List.replicate_succ, encode_cons, encode_cons] at h
    have hlane := List.append_inj_left h (by rw [Bytes.length_ofNat, Bytes.length_ofNat])
    rw [← Bytes.toNat_ofNat hword, hlane, Bytes.toNat_ofNat hword']
  · rintro rfl
    rfl

/-- An element has the lanes of its type. -/
theorem length_decode_of_size {t : ElementType} (h : bytes.length = t.size) :
    (decode t.kind bytes).length = t.lanes := by
  rw [length_decode, h, ElementType.size, Nat.mul_div_cancel _ t.kind.size_pos]

end Lane

end KernelDiff
