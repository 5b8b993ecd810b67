import KernelDiff.Draw.Sequence
import Mathlib.Data.Nat.Nth

namespace KernelDiff.Draw

/-!
# The draws of a seed

A seed has a stream of words, and a word of it is used unless its bit 56 is set. The draws are the
top seven bits of the words that are used, in the order of the stream: none is left out, and none
is taken twice. A search that gives up after one period of the stream loses nothing, since a word
that is used behind it would be used in it already.

* `Used`, `topBits` — the words that are used, and what a draw takes of a word;
* `search_eq` — a search finds the first word that is used;
* `unused_between` — along the stream, all draws before a place have been taken from words before
  it, and the next is taken from no word before it;
* `drawAt_count` — a word that is used gives the draw with the number of used words before it.
-/

/-! ### Places in the stream -/

/-- The place in the key stream behind so many draws of a seed. -/
def positionAt (seed : UInt64) : Nat → Nat
  | 0 => 0
  | n + 1 => (next seed (positionAt seed n)).2

/-- A draw of a seed, by the number of draws before it. -/
def drawAt (seed : UInt64) (n : Nat) : Nat :=
  (next seed (positionAt seed n)).1

theorem drawAt_lt (seed : UInt64) (n : Nat) : drawAt seed n < 128 :=
  search_lt _ _ _

/-! ### The words of a seed -/

/-- The word of a seed at a place in its stream, as a number. -/
def wordAt (seed : UInt64) (i : Nat) : Nat :=
  (streamWord (keyOfSeed seed) i).toNat

/-- Whether a draw takes the word at a place: its bit 56 is clear. -/
def Used (seed : UInt64) (i : Nat) : Prop :=
  wordAt seed i / 2 ^ 56 % 2 = 0

instance (seed : UInt64) : DecidablePred (Used seed) :=
  fun i => inferInstanceAs (Decidable (wordAt seed i / 2 ^ 56 % 2 = 0))

/-- What a draw takes of the word at a place: its top seven bits. -/
def topBits (seed : UInt64) (i : Nat) : Nat :=
  wordAt seed i / 2 ^ 57

theorem accepts_iff {seed : UInt64} {i : Nat} :
    accepts (streamWord (keyOfSeed seed) i) ↔ Used seed i := by
  unfold accepts Used wordAt
  rw [beq_iff_eq, ← UInt64.toNat_inj]
  simp [UInt64.toNat_shiftRight, Nat.shiftRight_eq_div_pow, Nat.and_one_is_mod]

theorem value_eq (seed : UInt64) (i : Nat) :
    value (streamWord (keyOfSeed seed) i) = topBits seed i := by
  simp [value, topBits, wordAt, UInt64.toNat_shiftRight, Nat.shiftRight_eq_div_pow]

/-- Block numbers have 64 bits. -/
theorem stream_add_size (key : Key) (counter : Nat) :
    Block.stream key (counter + UInt64.size) = Block.stream key counter := by
  have hlow : UInt32.ofNat (counter + UInt64.size) = UInt32.ofNat counter := by
    apply UInt32.toNat_inj.1
    simp only [UInt32.toNat_ofNat', UInt64.size]
    omega
  have hhigh : UInt32.ofNat ((counter + UInt64.size) / UInt32.size) =
      UInt32.ofNat (counter / UInt32.size) := by
    apply UInt32.toNat_inj.1
    simp only [UInt32.toNat_ofNat', UInt64.size, UInt32.size]
    omega
  unfold Block.stream Block.initial
  rw [hlow, hhigh]

/-- The words repeat, and so does which of them are used. -/
theorem used_add_period {seed : UInt64} {i : Nat} : Used seed (i + period) ↔ Used seed i := by
  have hword : wordAt seed (i + period) = wordAt seed i := by
    have hblock : (i + period) / 8 = i / 8 + UInt64.size := Nat.add_mul_div_left i _ (by decide)
    have hplace : (i + period) % 8 = i % 8 := Nat.add_mul_mod_self_left i 8 _
    unfold wordAt streamWord
    rw [hblock, hplace, stream_add_size]
  unfold Used
  rw [hword]

/-! ### Searches -/

/-- A search finds the first word that is used. -/
theorem search_eq {seed : UInt64} {fuel position q : Nat} (hposition : position ≤ q)
    (hfuel : q < position + fuel) (hused : Used seed q)
    (hfirst : ∀ i, position ≤ i → i < q → ¬Used seed i) :
    search (keyOfSeed seed) fuel position = (topBits seed q, q + 1) := by
  induction fuel generalizing position with
  | zero => omega
  | succ fuel ih =>
    rw [search]
    rcases Nat.eq_or_lt_of_le hposition with rfl | hlt
    · rw [if_pos (accepts_iff.2 hused), value_eq]
    · rw [if_neg fun h => hfirst position (Nat.le_refl _) hlt (accepts_iff.1 h)]
      exact ih hlt (by omega) fun i hi => hfirst i (by omega)

/-- The next draw takes the first word that is used, however far it is. -/
theorem next_eq {seed : UInt64} {position q : Nat} (hposition : position ≤ q)
    (hused : Used seed q) (hfirst : ∀ i, position ≤ i → i < q → ¬Used seed i) :
    next seed position = (topBits seed q, q + 1) := by
  refine search_eq hposition ?_ hused hfirst
  -- Else the same word one period earlier would come first.
  by_contra hfar
  have hearlier : Used seed (q - period) := by
    rw [← used_add_period, Nat.sub_add_cancel (by omega)]
    exact hused
  have hpos : 0 < period := by decide
  exact hfirst (q - period) (by omega) (by omega) hearlier

/-! ### All draws -/

/-- When as many draws have been taken as words are used before a place, the last has not gone
    beyond it, and there is no used word in between. -/
theorem unused_between (seed : UInt64) (q : Nat) :
    positionAt seed (Nat.count (Used seed) q) ≤ q ∧
      ∀ i, positionAt seed (Nat.count (Used seed) q) ≤ i → i < q → ¬Used seed i := by
  induction q with
  | zero => exact ⟨Nat.le_refl 0, fun i _ hi => absurd hi (Nat.not_lt_zero i)⟩
  | succ q ih =>
    obtain ⟨hle, hfirst⟩ := ih
    by_cases hused : Used seed q
    · -- The next draw takes this very word.
      have hposition : positionAt seed (Nat.count (Used seed) (q + 1)) = q + 1 := by
        rw [Nat.count_succ, if_pos hused, positionAt, next_eq hle hused hfirst]
      rw [hposition]
      exact ⟨Nat.le_refl _, fun i hi hlt => absurd hlt (Nat.not_lt.2 hi)⟩
    · have hcount : Nat.count (Used seed) (q + 1) = Nat.count (Used seed) q := by
        rw [Nat.count_succ, if_neg hused, Nat.add_zero]
      rw [hcount]
      refine ⟨by omega, fun i hi hlt => ?_⟩
      rcases Nat.eq_or_lt_of_le (Nat.le_of_lt_succ hlt) with rfl | hbefore
      · exact hused
      · exact hfirst i hi hbefore

/-- **Every word that is used gives a draw**, the one with as many draws before it as there are
    used words before the word. -/
theorem drawAt_count {seed : UInt64} {q : Nat} (hused : Used seed q) :
    drawAt seed (Nat.count (Used seed) q) = topBits seed q := by
  obtain ⟨hle, hfirst⟩ := unused_between seed q
  rw [drawAt, next_eq hle hused hfirst]

/-- So a stream with any word that is used never runs out of draws. -/
theorem exists_drawAt_eq {seed : UInt64} (h : ∃ i, Used seed i) (n : Nat) :
    ∃ q, Used seed q ∧ Nat.count (Used seed) q = n ∧ drawAt seed n = topBits seed q := by
  obtain ⟨i, hi⟩ := h
  have hturns (turns : Nat) : Used seed (i + turns * period) := by
    induction turns with
    | zero => rwa [Nat.zero_mul]
    | succ turns ih => rwa [Nat.succ_mul, ← Nat.add_assoc, used_add_period]
  have hinfinite : (Set.ofPred (Used seed)).Infinite := by
    refine Set.infinite_of_not_bddAbove fun ⟨bound, hbound⟩ => ?_
    have hle : i + (bound + 1) * period ≤ bound := hbound (hturns (bound + 1))
    have hpos : 1 ≤ period := by decide
    have hmul : bound + 1 ≤ (bound + 1) * period := Nat.le_mul_of_pos_right _ hpos
    omega
  have hused := Nat.nth_mem_of_infinite hinfinite n
  have hcount := Nat.count_nth_of_infinite hinfinite n
  refine ⟨_, hused, hcount, ?_⟩
  rw [← drawAt_count hused, hcount]

example : (List.range 8).map (drawAt 42) = [67, 69, 81, 4, 53, 94, 0, 119] := by decide +kernel

end KernelDiff.Draw
