import KernelDiff.Proofs.Argument.Elements
import KernelDiff.Proofs.Draw.Sequence

namespace KernelDiff

/-!
# The seeds of a policy

A generator that follows a policy gives one seed to every element that it makes, and remembers of
the elements before only how many there were. So the elements follow the seeds of the policy in
their order, whatever arguments they are made for.

* `ValuePolicy.seedAt` — the seeds of a policy, in order;
* `ValuePolicy.Issues`, `ValuePolicy.issues_seedAt` — they are its constant, or the draws that the
  stream of its seed defines;
* `Generator.afterSeeds` — the generator of a policy after so many seeds;
* `Generator.nextElements_add` — elements can be made in two goes;
* `Generator.nextElements_fst` — the elements that are made next are those for the next seeds.
-/

namespace ValuePolicy

/-- The seed of an element that a policy makes, by the number of elements before it. -/
def seedAt : ValuePolicy → Nat → Int64
  | constant value, _ => value
  | random seed, n => Int64.ofNat (Draw.drawAt seed n)

theorem toInt_seedAt_random (seed : UInt64) (n : Nat) :
    ((random seed).seedAt n).toInt = Draw.drawAt seed n := by
  have hlt := Draw.drawAt_lt seed n
  exact Int64.toInt_ofNat_of_lt (by omega)

/-- The alternate of a policy hands out draws. -/
theorem seedAt_alternate_range (p : ValuePolicy) (n : Nat) :
    0 ≤ (p.alternate.seedAt n).toInt ∧ (p.alternate.seedAt n).toInt < 128 := by
  obtain ⟨seed, hseed⟩ : ∃ seed, p.alternate = random seed := by
    cases p <;> exact ⟨_, rfl⟩
  have hlt := Draw.drawAt_lt seed n
  rw [hseed, toInt_seedAt_random]
  omega

/-- The seed that a policy has for an element with so many others before it: its constant, or from
    0 to 127 what the stream of its seed gives, the top bits of the word that has as many used words
    before it. -/
def Issues : ValuePolicy → Nat → Int64 → Prop
  | constant value, _, seed => seed = value
  | random source, n, seed =>
    0 ≤ seed.toInt ∧ seed.toInt < 128 ∧
      ((∃ i, Draw.Used source i) → ∃ q, Draw.Used source q ∧
        Nat.count (Draw.Used source) q = n ∧ seed.toInt = Draw.topBits source q)

theorem issues_seedAt (p : ValuePolicy) (n : Nat) : p.Issues n (p.seedAt n) := by
  cases p with
  | constant value => rfl
  | random source =>
    have hlt := Draw.drawAt_lt source n
    simp only [Issues, toInt_seedAt_random]
    refine ⟨by omega, by omega, fun hany => ?_⟩
    obtain ⟨q, hused, hcount, hdraw⟩ := Draw.exists_drawAt_eq hany n
    exact ⟨q, hused, hcount, by rw [hdraw]⟩

/-- The elements of such types that a policy makes behind `n` others. -/
def elementsFrom (p : ValuePolicy) (n : Nat) (types : List ElementType) : List (List UInt8) :=
  types.mapIdx fun i t => Element.ofSeed t (p.seedAt (n + i))

theorem elementsFrom_cons (p : ValuePolicy) (n : Nat) (t : ElementType)
    (types : List ElementType) :
    p.elementsFrom n (t :: types) =
      Element.ofSeed t (p.seedAt n) :: p.elementsFrom (n + 1) types := by
  simp only [elementsFrom, List.mapIdx_cons, Nat.add_zero, Nat.add_assoc, Nat.add_comm 1]

theorem elementsFrom_append (p : ValuePolicy) (n : Nat) (ts us : List ElementType) :
    p.elementsFrom n (ts ++ us) = p.elementsFrom n ts ++ p.elementsFrom (n + ts.length) us := by
  simp only [elementsFrom, List.mapIdx_append, Nat.add_assoc, Nat.add_comm ts.length]

theorem elementsFrom_constant (value : Int64) (n : Nat) (t : ElementType) (count : Nat) :
    (constant value).elementsFrom n (List.replicate count t) =
      List.replicate count (Element.ofSeed t value) := by
  induction count generalizing n with
  | zero => rfl
  | succ count ih =>
    rw [List.replicate_succ, List.replicate_succ, elementsFrom_cons, ih]
    rfl

theorem length_of_mem_elementsFrom {p : ValuePolicy} {n count : Nat} {t : ElementType}
    {element : List UInt8} (h : element ∈ p.elementsFrom n (List.replicate count t)) :
    element.length = t.size := by
  obtain ⟨i, hi, rfl⟩ := List.mem_mapIdx.1 h
  rw [List.getElem_replicate, Element.length_ofSeed]

end ValuePolicy

namespace Generator

/-- The generator of a policy after so many seeds. -/
def afterSeeds (p : ValuePolicy) (n : Nat) : Generator where
  policy := p
  position :=
    match p with
    | .constant _ => 0
    | .random seed => Draw.positionAt seed n

variable {p q : ValuePolicy} {n : Nat}

theorem ofPolicy_eq (p : ValuePolicy) : ofPolicy p = afterSeeds p 0 := by
  cases p <;> rfl

theorem nextSeed_afterSeeds (p : ValuePolicy) (n : Nat) :
    (afterSeeds p n).nextSeed = (p.seedAt n, afterSeeds p (n + 1)) := by
  cases p <;> rfl

theorem nextElements_succ (t : ElementType) (count : Nat) (p : ValuePolicy) (n : Nat) :
    nextElements t (count + 1) (afterSeeds p n) =
      (Element.ofSeed t (p.seedAt n) ++ (nextElements t count (afterSeeds p (n + 1))).1,
        (nextElements t count (afterSeeds p (n + 1))).2) := by
  rw [nextElements, nextSeed_afterSeeds]

theorem nextElements_snd (t : ElementType) (count : Nat) (p : ValuePolicy) (n : Nat) :
    (nextElements t count (afterSeeds p n)).2 = afterSeeds p (n + count) := by
  induction count generalizing n with
  | zero => rfl
  | succ count ih =>
    rw [nextElements_succ, ih, Nat.add_right_comm, Nat.add_assoc]

/-- The elements that are made next are those for the next seeds. -/
theorem nextElements_fst (t : ElementType) (count : Nat) (p : ValuePolicy) (n : Nat) :
    (nextElements t count (afterSeeds p n)).1 =
      (p.elementsFrom n (List.replicate count t)).flatten := by
  induction count generalizing n with
  | zero => rfl
  | succ count ih =>
    rw [nextElements_succ, ih, List.replicate_succ, ValuePolicy.elementsFrom_cons,
      List.flatten_cons]

/-- Elements can be made in two goes. -/
theorem nextElements_add (t : ElementType) (m count : Nat) (g : Generator) :
    nextElements t (m + count) g =
      ((nextElements t m g).1 ++ (nextElements t count (nextElements t m g).2).1,
        (nextElements t count (nextElements t m g).2).2) := by
  induction m generalizing g with
  | zero => simp [nextElements]
  | succ m ih =>
    rw [Nat.succ_add]
    simp only [nextElements, ih, List.append_assoc]

/-- A policy has no entries of a caller. -/
theorem nextEntry_afterSeeds (p : ValuePolicy) (n : Nat) :
    (afterSeeds p n).nextEntry = (.ok none, afterSeeds p n) :=
  rfl

theorem contents_afterSeeds (t : ElementType) (length : Nat) (p : ValuePolicy) (n : Nat) :
    (afterSeeds p n).contents t length =
      (.ok (nextElements t (t.room length) (afterSeeds p n)).1,
        afterSeeds p (n + t.room length)) := by
  unfold contents
  simp only [nextEntry_afterSeeds]
  rw [← nextElements_snd t (t.room length) p n, generated]

theorem scalar_afterSeeds (t : ElementType) (p : ValuePolicy) (n : Nat) :
    (afterSeeds p n).scalar t = (.ok (Value.ofSeed t (p.seedAt n)), afterSeeds p (n + 1)) := by
  unfold scalar
  simp only [nextEntry_afterSeeds, nextSeed_afterSeeds]

end Generator

end KernelDiff
