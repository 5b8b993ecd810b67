import KernelDiff.Proofs.Execution.Failures

namespace KernelDiff

/-!
# The inputs of an execution as a function

The device has no say in the inputs of an execution, except that it may have no memory for them.
What they are follows from the signature, the sizes and the source of the values alone.

* `Argument.detached` — an argument without its device memory;
* `Signature.inputs` — the inputs as a function;
* `Parameter.argument_eq_error` — the two reasons for which an argument cannot be made;
* `Signature.inputs_of_arguments` — every execution that gets to its inputs has these;
* `Signature.failure_of_inputs` — only entries of a caller can keep it from them.
-/

variable {σ : Type} {d : Device σ}

namespace Argument

/-- The argument as it is on the host. -/
def detached : Argument → Argument
  | buffer b => .buffer { b with memory := none }
  | a => a

end Argument

/-- The execution without the device memory of its inputs. -/
def Execution.detached (e : Execution) : Execution :=
  { e with inputs := e.inputs.map Argument.detached }

/-- A buffer cannot be made where there are no contents for it, or no memory for its contents. -/
theorem Generator.buffer_eq_error {t : ElementType} {length : Nat} {readOnly : Bool}
    {g : Generator} {b b' : Bench σ} {e : Failure}
    (h : (g.buffer d t length readOnly).on b = (.error e, b')) :
    (∃ g', g.contents t length = (.error e, g')) ∨
      ∃ host g' access, g.contents t length = (.ok host, g') ∧
        (d.call (.createBuffer access host.length)).on b = (.error e, b') := by
  unfold buffer at h
  rcases hc : g.contents t length with ⟨host?, g₁⟩
  simp only [hc] at h
  rcases Session.on_bind_eq_error.1 h with hnone | ⟨host, b₁, hhost, hrest⟩
  · rw [Session.on_ofExcept] at hnone
    cases hnone
    exact .inl ⟨g₁, rfl⟩
  · obtain ⟨rfl, rfl⟩ := Session.on_ofExcept_eq_ok.1 hhost
    rcases Session.on_bind_eq_error.1 hrest with hallocate | ⟨allocated, b₂, -, hreturn⟩
    · rcases Session.on_bind_eq_error.1 hallocate with hcall | ⟨handle, b₃, -, hreturn⟩
      · exact .inr ⟨host, g₁, _, rfl, hcall⟩
      · cases hreturn
    · cases hreturn

namespace Parameter

/-- The next value for a parameter, as it is on the host. -/
def input (p : Parameter) (sizes : LaunchSizes) (g : Generator) :
    Except Failure (Argument × Generator) :=
  match p.space with
  | .global | .constant =>
    match g.contents p.type sizes.globalSize.toNat with
    | (.ok host, g) => .ok (.buffer { type := p.type, host, readOnly := p.isConst }, g)
    | (.error e, _) => .error e
  | .workGroup => .ok (.scratch p.type sizes.localSize.toNat, g)
  | .workItem =>
    match g.scalar p.type with
    | (.ok v, g) => .ok (.scalar v, g)
    | (.error e, _) => .error e

theorem input_of_buffer {p : Parameter} {sizes : LaunchSizes} {g : Generator}
    (hspace : p.space = .global ∨ p.space = .constant) :
    p.input sizes g =
      match g.contents p.type sizes.globalSize.toNat with
      | (.ok host, g) => .ok (.buffer { type := p.type, host, readOnly := p.isConst }, g)
      | (.error e, _) => .error e := by
  unfold input
  rcases hspace with hspace | hspace <;> rw [hspace]

theorem input_of_scalar {p : Parameter} {sizes : LaunchSizes} {g : Generator}
    (hspace : p.space = .workItem) :
    p.input sizes g =
      match g.scalar p.type with
      | (.ok v, g) => .ok (.scalar v, g)
      | (.error e, _) => .error e := by
  unfold input
  rw [hspace]

theorem input_of_scratch {p : Parameter} {sizes : LaunchSizes} {g : Generator}
    (hspace : p.space = .workGroup) :
    p.input sizes g = .ok (.scratch p.type sizes.localSize.toNat, g) := by
  unfold input
  rw [hspace]

/-- However an argument is made, it is the next value for its parameter. -/
theorem input_of_makes {p : Parameter} {sizes : LaunchSizes} {g g' : Generator} {b b' : Bench σ}
    {a : Argument} (h : p.Makes d sizes g b a g' b') : p.input sizes g = .ok (a.detached, g') := by
  cases h with
  | buffer space contents created =>
    rw [input_of_buffer space, contents]
    rfl
  | scratch space =>
    rw [input_of_scratch space]
    rfl
  | scalar space value =>
    rw [input_of_scalar space, value]
    rfl

/-- An argument cannot be made where there is no input, or no memory for it. -/
theorem argument_eq_error {p : Parameter} {sizes : LaunchSizes} {g : Generator} {b b' : Bench σ}
    {e : Failure} (h : (p.argument d sizes g).on b = (.error e, b')) :
    p.input sizes g = .error e ∨
      ∃ host g' access, g.contents p.type sizes.globalSize.toNat = (.ok host, g') ∧
        (d.call (.createBuffer access host.length)).on b = (.error e, b') := by
  -- Buffers are made in the same way in global and in constant memory.
  have hbuffer {f : Buffer × Generator → Argument × Generator}
      (hspace : p.space = .global ∨ p.space = .constant)
      (h : (g.buffer d p.type sizes.globalSize.toNat p.isConst >>= fun r => pure (f r)).on b =
        (.error e, b')) :
      p.input sizes g = .error e ∨
        ∃ host g' access, g.contents p.type sizes.globalSize.toNat = (.ok host, g') ∧
          (d.call (.createBuffer access host.length)).on b = (.error e, b') := by
    rcases Session.on_bind_eq_error.1 h with h | ⟨r, b₁, -, h⟩
    · refine (Generator.buffer_eq_error h).imp_left fun hcontents => ?_
      obtain ⟨g', hcontents⟩ := hcontents
      rw [input_of_buffer hspace, hcontents]
    · cases h
  unfold argument at h
  cases hspace : p.space with
  | global =>
    rw [hspace] at h
    exact hbuffer (.inl hspace) h
  | constant =>
    rw [hspace] at h
    exact hbuffer (.inr hspace) h
  | workGroup =>
    rw [hspace] at h
    cases h
  | workItem =>
    left
    rw [hspace] at h
    rcases hv : g.scalar p.type with ⟨v?, g₁⟩
    simp only [hv] at h
    rw [input_of_scalar hspace, hv]
    rcases Session.on_bind_eq_error.1 h with h | ⟨v, b₁, -, h⟩
    · rw [Session.on_ofExcept] at h
      cases h
      rfl
    · cases h

theorem failure_of_input {p : Parameter} {sizes : LaunchSizes} {g : Generator}
    {r : Except Failure (Argument × Generator)} (h : p.input sizes g = r) :
    (∀ a g', r = .ok (a, g') → g'.isExplicit = g.isExplicit) ∧
      ∀ e, r = .error e → g.isExplicit ∧ e.isInput := by
  subst h
  -- Values come from the generator in two ways; work-group memory takes none.
  have hbuffer (hspace : p.space = .global ∨ p.space = .constant) :
      (∀ a g', p.input sizes g = .ok (a, g') → g'.isExplicit = g.isExplicit) ∧
        ∀ e, p.input sizes g = .error e → g.isExplicit ∧ e.isInput := by
    rw [input_of_buffer hspace]
    rcases hc : g.contents p.type sizes.globalSize.toNat with ⟨⟨e⟩ | ⟨host⟩, g₁⟩
    · simpa using (Generator.failure_of_contents hc).2
    · simpa using (Generator.failure_of_contents hc).1
  cases hspace : p.space with
  | global => exact hbuffer (.inl hspace)
  | constant => exact hbuffer (.inr hspace)
  | workGroup => simp [input_of_scratch hspace]
  | workItem =>
    rw [input_of_scalar hspace]
    rcases hv : g.scalar p.type with ⟨⟨e⟩ | ⟨value⟩, g₁⟩
    · simpa [hv] using (Generator.failure_of_scalar hv).2
    · simpa [hv] using (Generator.failure_of_scalar hv).1

end Parameter

namespace Signature

/-- A value for every parameter, in order, as it is on the host. -/
def inputs (sizes : LaunchSizes) : Signature → Generator → Except Failure Arguments
  | [], _ => .ok []
  | p :: s, g =>
    match p.input sizes g with
    | .error e => .error e
    | .ok (a, g) => (inputs sizes s g).map (a :: ·)

/-- **Inputs are a function.** Whatever the device is, arguments that could be made are the inputs
    for their parameters. -/
theorem inputs_of_arguments {s : Signature} {sizes : LaunchSizes} {g : Generator}
    {b b' : Bench σ} {args : Arguments} (h : (arguments d sizes s g).on b = (.ok args, b')) :
    inputs sizes s g = .ok (args.map Argument.detached) := by
  induction s generalizing g b args with
  | nil =>
    rw [(arguments_nil_eq_ok h).1]
    rfl
  | cons p s ih =>
    obtain ⟨a, g₁, b₁, rest, hmakes, hrest, rfl⟩ := arguments_cons_eq_ok h
    rw [inputs, Parameter.input_of_makes hmakes]
    simp only [ih hrest, Except.map, List.map_cons]

/-- Where values follow a policy there are always inputs. -/
theorem failure_of_inputs {s : Signature} {sizes : LaunchSizes} {g : Generator} {e : Failure}
    (h : inputs sizes s g = .error e) : g.isExplicit ∧ e.isInput := by
  induction s generalizing g with
  | nil => cases h
  | cons p s ih =>
    rw [inputs] at h
    cases hp : p.input sizes g with
    | error e' =>
      rw [hp] at h
      cases h
      exact (Parameter.failure_of_input hp).2 e rfl
    | ok r =>
      obtain ⟨a, g₁⟩ := r
      rw [hp] at h
      cases hrest : inputs sizes s g₁ with
      | error e' =>
        simp only [hrest] at h
        cases h
        rw [← (Parameter.failure_of_input hp).1 a g₁ rfl]
        exact ih hrest
      | ok rest =>
        simp only [hrest] at h
        cases h

end Signature

end KernelDiff
