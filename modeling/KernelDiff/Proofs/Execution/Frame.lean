import KernelDiff.Proofs.Execution.Outputs

namespace KernelDiff

/-!
# The frame of an execution

Whatever a kernel does, and whatever its device answers, the outputs of an execution stand beside
its inputs: in every place they are of one kind, one type and as many elements. What a kernel
cannot write is the input itself, without its memory on the device. So inputs and outputs differ
in writable buffers or not at all.

* `Argument.SameShape` — one kind, one type, as many elements;
* `Argument.ReadsAs.sameShape`, `Parameter.accepts_of_readsAs` — one place;
* `Signature.Framed`, `Execution.framed` — all places.
-/

variable {σ : Type} {d : Device σ}

namespace Argument

/-- Two arguments are of one kind, of one type, and of as many elements. -/
inductive SameShape : Argument → Argument → Prop
  | scalar {v w : Value} (type_eq : v.type = w.type) : SameShape (.scalar v) (.scalar w)
  | scratch (t : ElementType) (length : Nat) : SameShape (.scratch t length) (.scratch t length)
  | buffer {x y : Buffer} (type_eq : x.type = y.type) (length_eq : x.length = y.length) :
      SameShape (.buffer x) (.buffer y)

/-- Nothing that a device answers has another shape. -/
theorem ReadsAs.sameShape {a r : Argument} (h : a.ReadsAs r) : a.SameShape r := by
  cases h with
  | scalar v => exact .scalar rfl
  | scratch t length => exact .scratch t length
  | readOnly t host memory => exact .buffer rfl rfl
  | written t host bytes memory hlength =>
    refine .buffer rfl ?_
    unfold Buffer.length
    rw [hlength]

end Argument

/-! ### One place -/

namespace Parameter

variable {p : Parameter} {a r : Argument}

/-- What an argument reads as is an argument for the same parameter. -/
theorem accepts_of_readsAs (ha : p.Accepts a) (hr : a.ReadsAs r) : p.Accepts r := by
  cases hr with
  | scalar v => exact ha
  | scratch t length => exact ha
  | readOnly t host memory => exact ha
  | written t host bytes memory hlength =>
    obtain ⟨hspace, htype, hconst, hdvd⟩ := ha
    exact ⟨hspace, htype, hconst, hlength ▸ hdvd⟩

end Parameter

/-! ### All places -/

/-- For each parameter there is an input and an output, which agree in kind, type and number of
    elements. They are the same unless kernels write the parameter, and so inputs and outputs
    differ only where there is such a parameter. -/
structure Signature.Framed (s : Signature) (e : Execution) : Prop where
  length_inputs : e.inputs.length = s.length
  length_outputs : e.outputs.length = s.length
  place : ∀ {n : Nat} {p : Parameter}, s[n]? = some p →
    ∃ a r, e.inputs[n]? = some a ∧ e.outputs[n]? = some r ∧ p.Accepts a ∧ p.Accepts r ∧
      a.SameShape r ∧ (p.isWritable = false → r = a.detached ∧ r.same a)
  differ_iff : e.outputs.same e.inputs = false ↔
    ∃ (n : Nat) (p : Parameter) (a r : Argument), s[n]? = some p ∧ p.isWritable ∧
      e.inputs[n]? = some a ∧ e.outputs[n]? = some r ∧ r.same a = false

namespace Execution

variable {kernel : Nat} {s : Signature} {sizes : LaunchSizes} {source : InputSource}
variable {b b' : Bench σ} {e : Execution}

/-- What kernels cannot write is the same after the launch. -/
theorem same_of_not_isWritable (hconstant : ∀ p ∈ s, p.space = .constant → p.isConst)
    (h : (s.execute d kernel sizes source).on b = (.ok e, b')) {n : Nat} {p : Parameter}
    {a r : Argument} (hp : s[n]? = some p) (hwritable : p.isWritable = false)
    (ha : e.inputs[n]? = some a) (hr : e.outputs[n]? = some r) : r = a.detached ∧ r.same a := by
  obtain ⟨a', r', ha', hr', haccepts, hreads⟩ := exists_of_parameter h hp
  obtain rfl : a = a' := Option.some.inj (ha.symm.trans ha')
  obtain rfl : r = r' := Option.some.inj (hr.symm.trans hr')
  have heq := Parameter.eq_detached_of_not_isWritable hwritable
    (hconstant p (List.mem_of_getElem? hp)) haccepts hreads
  refine ⟨heq, ?_⟩
  rw [Argument.same_iff, heq, Argument.observation_detached]

/-- **Every execution keeps to its frame**, on any device. -/
theorem framed (hconstant : ∀ p ∈ s, p.space = .constant → p.isConst)
    (h : (s.execute d kernel sizes source).on b = (.ok e, b')) : s.Framed e := by
  have hinputs : e.inputs.length = s.length := (accepts h).length_eq.symm
  refine ⟨hinputs, length_outputs h, ?_, ?_⟩
  · intro n p hp
    obtain ⟨a, r, ha, hr, haccepts, hreads⟩ := exists_of_parameter h hp
    exact ⟨a, r, ha, hr, haccepts, Parameter.accepts_of_readsAs haccepts hreads, hreads.sameShape,
      fun hwritable => same_of_not_isWritable hconstant h hp hwritable ha hr⟩
  · have hsame := Signature.same_iff_getElem? (length_outputs h) hinputs
    rw [← Bool.not_eq_true, hsame]
    constructor
    · intro hdiffer
      push Not at hdiffer
      obtain ⟨n, p, r, a, hp, hr, ha, hne⟩ := hdiffer
      have hne : r.same a = false := by
        rw [← Bool.not_eq_true, Argument.same_iff]
        exact hne
      refine ⟨n, p, a, r, hp, ?_, ha, hr, hne⟩
      -- A place that kernels do not write would not differ.
      by_contra hnot
      have heq := (same_of_not_isWritable hconstant h hp (by simpa using hnot) ha hr).2
      simp [hne] at heq
    · rintro ⟨n, p, a, r, hp, -, ha, hr, hne⟩ hall
      have heq := Argument.same_iff.2 (hall n p r a hp hr ha)
      simp [hne] at heq

end Execution

end KernelDiff
