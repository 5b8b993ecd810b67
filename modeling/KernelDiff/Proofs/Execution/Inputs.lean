import KernelDiff.Proofs.Argument.Equality
import KernelDiff.Proofs.Execution.Alignment

namespace KernelDiff

/-!
# Every execution starts from the same inputs

Each execution makes its arguments with a new generator. So any two executions of one signature
from one source start from the same inputs when they have the same number of work items: the
buffers have other memory on the device, and work-group memory may have another size, but nothing
that a user can observe differs.

* `Argument.Alike` — two arguments that differ in no other way;
* `Parameter.alike_of_makes` — one argument, and what is left of the generator;
* `Execution.alike_inputs` — the inputs of two executions.
-/

variable {σ : Type} {d : Device σ}

namespace Argument

/-- Two arguments that differ at most in where the memory of a buffer is, and in how much memory
    a work group has. -/
inductive Alike : Argument → Argument → Prop
  | scalar (v : Value) : Alike (.scalar v) (.scalar v)
  | scratch (t : ElementType) (length length' : Nat) :
      Alike (.scratch t length) (.scratch t length')
  | buffer (t : ElementType) (host : List UInt8) (memory memory' : Option Nat)
      (readOnly : Bool) :
      Alike (.buffer ⟨t, host, memory, readOnly⟩) (.buffer ⟨t, host, memory', readOnly⟩)

theorem Alike.observation {a a' : Argument} (h : a.Alike a') :
    a.observation = a'.observation := by
  cases h <;> rfl

end Argument

namespace Arguments

theorem observations_of_alike {args args' : Arguments}
    (h : List.Forall₂ Argument.Alike args args') : args.observations = args'.observations := by
  induction h with
  | nil => rfl
  | cons hhead _ ih =>
    unfold observations at ih ⊢
    rw [List.map_cons, List.map_cons, hhead.observation, ih]

end Arguments

namespace Parameter

/-- A generator hands out the same contents on any bench, and is left in the same state. -/
theorem alike_of_makes {p : Parameter} {sizes sizes' : LaunchSizes} {g g₁ g₂ : Generator}
    {b b₁ c c₁ : Bench σ} {a a' : Argument} (hsizes : sizes.globalSize = sizes'.globalSize)
    (h : p.Makes d sizes g b a g₁ b₁) (h' : p.Makes d sizes' g c a' g₂ c₁) :
    a.Alike a' ∧ g₁ = g₂ := by
  -- The address space decides how an argument is made, so the mixed cases are void.
  cases h with
  | buffer space contents created =>
    cases h' with
    | buffer space' contents' created' =>
      rw [← hsizes, contents] at contents'
      cases contents'
      exact ⟨.buffer .., rfl⟩
    | scratch space' => simp [space'] at space
    | scalar space' value' => simp [space'] at space
  | scratch space =>
    cases h' with
    | buffer space' contents' created' => simp [space] at space'
    | scratch space' => exact ⟨.scratch .., rfl⟩
    | scalar space' value' => simp [space] at space'
  | scalar space value =>
    cases h' with
    | buffer space' contents' created' => simp [space] at space'
    | scratch space' => simp [space] at space'
    | scalar space' value' =>
      rw [value] at value'
      cases value'
      exact ⟨.scalar _, rfl⟩

end Parameter

namespace Signature

theorem alike_of_arguments {s : Signature} {sizes sizes' : LaunchSizes} {g : Generator}
    {b b₁ c c₁ : Bench σ} {args args' : Arguments} (hsizes : sizes.globalSize = sizes'.globalSize)
    (h : (arguments d sizes s g).on b = (.ok args, b₁))
    (h' : (arguments d sizes' s g).on c = (.ok args', c₁)) :
    List.Forall₂ Argument.Alike args args' := by
  induction s generalizing g b c args args' with
  | nil =>
    rw [(arguments_nil_eq_ok h).1, (arguments_nil_eq_ok h').1]
    exact .nil
  | cons p s ih =>
    obtain ⟨a, g₁, b₂, rest, hmakes, hrest, rfl⟩ := arguments_cons_eq_ok h
    obtain ⟨a', g₂, c₂, rest', hmakes', hrest', rfl⟩ := arguments_cons_eq_ok h'
    obtain ⟨halike, rfl⟩ := Parameter.alike_of_makes hsizes hmakes hmakes'
    exact .cons halike (ih hrest hrest')

end Signature

namespace Execution

/-- **Executions start alike.** Whatever was executed before, two executions from one source over
    the same number of work items have inputs that nothing tells apart. -/
theorem alike_inputs {kernel : Nat} {s : Signature} {sizes sizes' : LaunchSizes}
    {source : InputSource} {b b' c c' : Bench σ} {e e' : Execution}
    (hsizes : sizes.globalSize = sizes'.globalSize)
    (h : (s.execute d kernel sizes source).on b = (.ok e, b'))
    (h' : (s.execute d kernel sizes' source).on c = (.ok e', c')) :
    List.Forall₂ Argument.Alike e.inputs e'.inputs := by
  obtain ⟨phases⟩ := Signature.phases_of_execute h
  obtain ⟨phases'⟩ := Signature.phases_of_execute h'
  exact Signature.alike_of_arguments hsizes phases.arguments phases'.arguments

end Execution

end KernelDiff
