import KernelDiff.Proofs.Execution.Outputs
import KernelDiff.Proofs.Execution.Requests

namespace KernelDiff

/-!
# Inputs on another policy

A policy hands out one seed for every element that is made, in the order of the parameters, and
every element keeps of its seed what its lanes can hold. So the inputs of two policies are the same
exactly where no lane tells their seeds apart.

* `Signature.drawn` — the elements that take a seed, in order;
* `Signature.synthesized`, `Signature.inputs_ofPolicy` — the inputs that a policy makes;
* `Signature.Varies` — some element tells the seeds of a policy and of its alternate apart;
* `Signature.same_synthesized_iff` — exactly then the inputs differ.
-/

namespace ValuePolicy

variable {p q : ValuePolicy} {n : Nat}

/-- Elements of such types, made behind `n` others, do not tell the seeds of two policies apart. -/
def AgreeOn (p q : ValuePolicy) (n : Nat) (types : List ElementType) : Prop :=
  ∀ i t, types[i]? = some t →
    Element.ofSeed t (p.seedAt (n + i)) = Element.ofSeed t (q.seedAt (n + i))

theorem agreeOn_iff {types : List ElementType} :
    p.AgreeOn q n types ↔ p.elementsFrom n types = q.elementsFrom n types := by
  unfold AgreeOn elementsFrom
  rw [List.ext_getElem?_iff]
  simp only [List.getElem?_mapIdx]
  refine forall_congr' fun i => ?_
  cases types[i]? <;> simp

theorem agreeOn_nil : p.AgreeOn q n [] :=
  agreeOn_iff.2 rfl

theorem agreeOn_singleton {t : ElementType} :
    p.AgreeOn q n [t] ↔ Element.ofSeed t (p.seedAt n) = Element.ofSeed t (q.seedAt n) := by
  simp [agreeOn_iff, elementsFrom]

theorem agreeOn_append {ts ts' : List ElementType} :
    p.AgreeOn q n (ts ++ ts') ↔ p.AgreeOn q n ts ∧ p.AgreeOn q (n + ts.length) ts' := by
  have hlength : (p.elementsFrom n ts).length = (q.elementsFrom n ts).length := by
    rw [elementsFrom, elementsFrom, List.length_mapIdx, List.length_mapIdx]
  simp only [agreeOn_iff, elementsFrom_append]
  constructor
  · intro h
    exact List.append_inj h hlength
  · rintro ⟨hfirst, hsecond⟩
    rw [hfirst, hsecond]

/-- Buffers are equal when all their elements are. -/
theorem agreeOn_replicate {t : ElementType} {count : Nat} :
    p.AgreeOn q n (List.replicate count t) ↔
      (Generator.nextElements t count (Generator.afterSeeds p n)).1 =
        (Generator.nextElements t count (Generator.afterSeeds q n)).1 := by
  have hcut (r : ValuePolicy) :
      Bytes.wholePieces t.size (r.elementsFrom n (List.replicate count t)).flatten =
        r.elementsFrom n (List.replicate count t) :=
    Bytes.wholePieces_flatten t.size_pos fun _ => length_of_mem_elementsFrom
  rw [agreeOn_iff, Generator.nextElements_fst, Generator.nextElements_fst]
  constructor
  · intro h
    rw [h]
  · intro h
    rw [← hcut p, h, hcut q]

end ValuePolicy

namespace Parameter

variable (x : Parameter) (sizes : LaunchSizes)

/-- The types of the elements that are made for a parameter. -/
def drawn : List ElementType :=
  match x.space with
  | .global | .constant => List.replicate (x.type.room sizes.globalSize.toNat) x.type
  | .workGroup => []
  | .workItem => [x.type]

/-- What a policy makes for a parameter, behind `n` elements for others. -/
def synthesized (p : ValuePolicy) (n : Nat) : Argument :=
  match x.space with
  | .global | .constant =>
    .buffer {
      type := x.type
      host := (Generator.nextElements x.type (x.type.room sizes.globalSize.toNat)
        (Generator.afterSeeds p n)).1
      readOnly := x.isConst }
  | .workGroup => .scratch x.type sizes.localSize.toNat
  | .workItem => .scalar (Value.ofSeed x.type (p.seedAt n))

theorem drawn_eq_types : x.drawn sizes = (x.request sizes).types := by
  unfold drawn request
  cases x.space <;> rfl

theorem synthesized_eq_made (p : ValuePolicy) (n : Nat) :
    x.synthesized sizes p n = (x.request sizes).made p n := by
  unfold synthesized request
  cases x.space <;> simp only [Request.made, Generator.nextElements_fst]

theorem input_afterSeeds (p : ValuePolicy) (n : Nat) :
    x.input sizes (Generator.afterSeeds p n) =
      .ok (x.synthesized sizes p n, Generator.afterSeeds p (n + (x.drawn sizes).length)) := by
  rw [input_eq_answer, Request.answer_afterSeeds, drawn_eq_types, synthesized_eq_made]

theorem observation_nextElements_iff {t : ElementType} {length n : Nat} {readOnly : Bool}
    {p q : ValuePolicy} :
    (Argument.buffer {
        type := t, host := (Generator.nextElements t length (Generator.afterSeeds p n)).1,
        readOnly }).observation =
      (Argument.buffer {
        type := t, host := (Generator.nextElements t length (Generator.afterSeeds q n)).1,
        readOnly }).observation ↔
      p.AgreeOn q n (List.replicate length t) := by
  have hwhole (r : ValuePolicy) :
      t.size ∣ (Generator.nextElements t length (Generator.afterSeeds r n)).1.length := by
    rw [Generator.length_nextElements]
    exact Nat.dvd_mul_left _ _
  rw [← Argument.same_iff, ValuePolicy.agreeOn_replicate]
  show Buffer.same _ _ ↔ _
  rw [Buffer.same_iff_host (hwhole p) (hwhole q)]
  exact and_iff_right rfl

/-- What two policies make for a parameter is the same where its elements do not tell their seeds
    apart. -/
theorem observation_synthesized_iff {p q : ValuePolicy} {n : Nat} :
    (x.synthesized sizes p n).observation = (x.synthesized sizes q n).observation ↔
      p.AgreeOn q n (x.drawn sizes) := by
  unfold synthesized drawn
  cases x.space with
  | global => exact observation_nextElements_iff
  | constant => exact observation_nextElements_iff
  | workGroup => simp [ValuePolicy.agreeOn_nil]
  | workItem =>
    have hvalue (a b : Int64) : Value.ofSeed x.type a = Value.ofSeed x.type b ↔
        Element.ofSeed x.type a = Element.ofSeed x.type b := by
      simp [Value.ofSeed]
    simp only [Argument.observation, Observation.value.injEq, hvalue,
      ValuePolicy.agreeOn_singleton]

end Parameter

namespace Signature

variable (s : Signature) (sizes : LaunchSizes)

/-- The types of the elements that are made for the parameters, in order. -/
def drawn : List ElementType :=
  s.flatMap fun x => x.drawn sizes

/-- What a policy makes for the parameters, behind `n` elements for others. -/
def synthesized (sizes : LaunchSizes) (p : ValuePolicy) : Signature → Nat → Arguments
  | [], _ => []
  | x :: s, n => x.synthesized sizes p n :: synthesized sizes p s (n + (x.drawn sizes).length)

theorem inputs_afterSeeds (p : ValuePolicy) (n : Nat) :
    inputs sizes s (Generator.afterSeeds p n) = .ok (synthesized sizes p s n) := by
  induction s generalizing n with
  | nil => rfl
  | cons x s ih =>
    rw [inputs, Parameter.input_afterSeeds]
    simp only [ih, synthesized, Except.map]

/-- **A policy always makes inputs.** -/
theorem inputs_ofPolicy (p : ValuePolicy) :
    inputs sizes s (.ofPolicy p) = .ok (synthesized sizes p s 0) := by
  rw [Generator.ofPolicy_eq, inputs_afterSeeds]

theorem observations_synthesized_iff {p q : ValuePolicy} {n : Nat} :
    (synthesized sizes p s n).observations = (synthesized sizes q s n).observations ↔
      p.AgreeOn q n (s.drawn sizes) := by
  induction s generalizing n with
  | nil => simp [synthesized, drawn, ValuePolicy.agreeOn_nil]
  | cons x s ih =>
    have hdrawn : drawn (x :: s) sizes = x.drawn sizes ++ drawn s sizes := rfl
    rw [hdrawn, ValuePolicy.agreeOn_append, ← Parameter.observation_synthesized_iff, ← ih]
    simp [synthesized, Arguments.observations]

/-- Some element tells the seed of a policy and the one of its alternate apart. -/
def Varies (p : ValuePolicy) : Prop :=
  ∃ n t, (s.drawn sizes)[n]? = some t ∧
    ¬Lane.Coincide t.kind (p.seedAt n) (p.alternate.seedAt n)

theorem not_varies_iff (p : ValuePolicy) :
    ¬s.Varies sizes p ↔ p.AgreeOn p.alternate 0 (s.drawn sizes) := by
  have hdraw (k : ScalarKind) (n : Nat) :
      Lane.ofSeed k (p.seedAt n) = Lane.ofSeed k (p.alternate.seedAt n) ↔
        Lane.Coincide k (p.seedAt n) (p.alternate.seedAt n) :=
    Lane.ofSeed_eq_iff (p.seedAt_alternate_range n).1 (p.seedAt_alternate_range n).2
  unfold Varies ValuePolicy.AgreeOn
  constructor
  · intro h i t hi
    rw [Nat.zero_add, Element.ofSeed_eq_iff, hdraw]
    by_contra hapart
    exact h ⟨i, t, hi, hapart⟩
  · rintro h ⟨i, t, hi, hapart⟩
    have hsame := h i t hi
    rw [Nat.zero_add, Element.ofSeed_eq_iff, hdraw] at hsame
    exact hapart hsame

/-- **The alternate policy makes other inputs** exactly where some element shows it. -/
theorem same_synthesized_iff (p : ValuePolicy) :
    (synthesized sizes p s 0).same (synthesized sizes p.alternate s 0) = false ↔
      s.Varies sizes p := by
  rw [← Bool.not_eq_true, Arguments.same_iff, observations_synthesized_iff, ← not_varies_iff,
    not_not]

variable {s sizes} {σ : Type} {d : Device σ} {kernel : Nat} {p : ValuePolicy} {b b' : Bench σ}
  {e : Execution}

/-- Nothing tells the inputs of an execution on a policy from what the policy makes. -/
theorem observations_inputs_of_execute
    (h : (s.execute d kernel sizes (.generated p)).on b = (.ok e, b')) :
    e.inputs.observations = (synthesized sizes p s 0).observations := by
  obtain ⟨phases⟩ := phases_of_execute h
  have hinputs := inputs_of_arguments phases.arguments
  have hpolicy : (InputSource.generated p).generator = .ofPolicy p := rfl
  rw [hpolicy, inputs_ofPolicy, Except.ok.injEq] at hinputs
  rw [← e.observations_inputs_detached, hinputs]
  rfl

/-- An execution on a policy and one on its alternate have other inputs exactly where some element
    shows it. -/
theorem same_inputs_iff {c c' : Bench σ} {other : Execution}
    (h : (s.execute d kernel sizes (.generated p)).on b = (.ok e, b'))
    (hother : (s.execute d kernel sizes (.generated p.alternate)).on c = (.ok other, c')) :
    e.inputs.same other.inputs = false ↔ s.Varies sizes p := by
  rw [Arguments.same_congr (observations_inputs_of_execute h)
    (observations_inputs_of_execute hother), same_synthesized_iff]

end Signature

end KernelDiff
