import KernelDiff.Proofs.Execution.Frame
import KernelDiff.Proofs.Matrix.Classification

namespace KernelDiff

/-!
# Kernels that can write nothing

A kernel without a writable parameter leaves all that can be observed of its arguments alone, on
any device. So its two checked executions agree, also with the reference, and all that is left to
say of a configuration is that there is no output.

* `Signature.IsReadOnly` — no parameter is writable;
* `Drive.observations_outputs`, `Drive.observations_of_completed` — what executions show then;
* `Drive.step_of_isReadOnly` — a step whose executions succeed;
* `KernelHandle.run_framed` — the frame of every execution, and what follows for a whole run.
-/

variable {σ : Type}

/-- Kernels write none of the parameters. -/
def Signature.IsReadOnly (s : Signature) : Prop := ∀ p ∈ s, p.isWritable = false

namespace Drive

section ReadOnly

variable {x : Drive σ} (hconstant : ∀ p ∈ x.signature, p.space = .constant → p.isConst)
variable (hreadOnly : x.signature.IsReadOnly)

include hconstant hreadOnly

/-- The outputs of an execution are its inputs. -/
theorem observations_outputs {sizes : LaunchSizes} {source : InputSource} {b b' : Bench σ}
    {e : Execution} (h : (x.execution sizes source).on b = (.ok e, b')) :
    e.outputs.observations = e.inputs.observations := by
  rw [← Arguments.same_iff]
  by_contra hdiffer
  -- There is no place where they could differ.
  obtain ⟨n, p, a, r, hp, hwritable, -, -, -⟩ :=
    (Execution.framed hconstant h).differ_iff.1 (by simpa using hdiffer)
  have hnot := hreadOnly p (List.mem_of_getElem? hp)
  simp [hwritable] at hnot

/-- The outputs of completed executions over one number of work items are the same, whenever they
    were made, and they are the inputs. -/
theorem observations_of_completed {c c' : Checkpoint σ} {sizes sizes' : LaunchSizes}
    {first second first' second' : Execution}
    (hglobal : sizes'.globalSize = sizes.globalSize)
    (h : x.trial c sizes = .completed first second)
    (h' : x.trial c' sizes' = .completed first' second') :
    first.outputs.observations = first.inputs.observations ∧
      second.outputs.observations = first.outputs.observations ∧
      first'.outputs.observations = first.outputs.observations := by
  obtain ⟨b, hfirst, hsecond⟩ := x.executions_of_trial h
  obtain ⟨b', hfirst', -⟩ := x.executions_of_trial h'
  have hown := observations_outputs hconstant hreadOnly hfirst
  have hinputs := Arguments.observations_of_alike (Execution.alike_inputs rfl hsecond hfirst)
  have hinputs' := Arguments.observations_of_alike (Execution.alike_inputs hglobal hfirst' hfirst)
  refine ⟨hown, ?_, ?_⟩
  · rw [observations_outputs hconstant hreadOnly hsecond, hinputs, hown]
  · rw [observations_outputs hconstant hreadOnly hfirst', hinputs', hown]

/-- A configuration whose executions succeed has no output, if its reference is what a
    configuration of the same number of work items agreed on. -/
theorem step_of_isReadOnly {c : Checkpoint σ} {sizes : LaunchSizes} {first second : Execution}
    (ht : x.trial c sizes = .completed first second)
    (hreferences : ∀ r, c.references.find? sizes.globalSize = some r →
      ∃ c' sizes', sizes'.globalSize = sizes.globalSize ∧ (x.trial c' sizes').agreed? = some r) :
    (x.step c sizes).1 = .ofOutcome sizes .noOutput := by
  obtain ⟨hinputs, hsecond, -⟩ := observations_of_completed hconstant hreadOnly rfl ht ht
  rcases x.run_of_completed ht with ⟨-, hdiffer⟩ | ⟨-, -, r, hr, hdiffer⟩ | ⟨hrun, -, -⟩
  · have hsame := Arguments.same_iff.2 hsecond.symm
    simp [hdiffer] at hsame
  · obtain ⟨c', sizes', hglobal, hagreed⟩ := hreferences r hr
    obtain ⟨first', second', ht', -, rfl⟩ := Trial.agreed?_eq_some_iff.1 hagreed
    have hsame := Arguments.same_iff.2
      (observations_of_completed hconstant hreadOnly hglobal ht ht').2.2
    simp [hdiffer] at hsame
  · rw [hrun]
    unfold conclusion finding
    rw [if_pos (Arguments.same_iff.2 hinputs)]

end ReadOnly

end Drive

namespace KernelHandle

variable {d : Device σ} {k : KernelHandle}

/-- **Inputs and outputs stay aligned, and only writable buffers change.** Take a signature as it is
    read from a device. Whenever an execution of it succeeds, on whatever device, there is one
    input and one output for each parameter, of one kind, type and number of elements, and what
    kernels cannot write is the same. So if there is nothing that they can write, every
    configuration whose two executions succeed has no output. -/
theorem run_framed {b b₁ : Bench σ} {s : Signature}
    (hsignature : (k.signature d).on b = (.ok s, b₁)) :
    (∀ {τ : Type} (d' : Device τ) (kernel : Nat) (sizes : LaunchSizes) (source : InputSource)
      (c c' : Bench τ) (e : Execution),
      (s.execute d' kernel sizes source).on c = (.ok e, c') → s.Framed e) ∧
    (s.IsReadOnly → ∀ (env : Environment) (i : Instance) (source : InputSource)
      (limits : GroupLimits) (b₂ : Bench σ), source? s i = .ok source →
      (k.limits d env).on b₁ = (.ok limits, b₂) →
      let x : Drive σ := ⟨d, k, s, limits, i, source⟩
      ∃ runs b', (k.run d env i).on b = (.ok runs, b') ∧ runs.length = i.matrix.length ∧
        ∀ n (hn : n < i.matrix.length) first second,
          x.trialAt (.start b₂) i.matrix n hn = .completed first second →
            runs[n]? = some (.ofOutcome i.matrix[n] .noOutput)) := by
  have hconstant := Signature.isConst_of_query hsignature
  constructor
  · intro τ d' kernel sizes source c c' e he
    exact Execution.framed hconstant he
  · intro hreadOnly env i source limits b₂ hsource hlimits x
    refine ⟨_, _, run_of_limits hsignature hsource hlimits, x.length_runs _ i.matrix, ?_⟩
    intro n hn first second ht
    rw [x.getElem?_runs _ hn, Drive.step_of_isReadOnly hconstant hreadOnly ht]
    intro r hr
    obtain ⟨j, -, href⟩ := (x.find?_after_take rfl (Nat.le_of_lt hn) _ r).1 hr
    exact ⟨_, _, href.size, href.agreed⟩

/-- A kernel that adds to a buffer that it should not write, and takes a scalar and work-group
    memory besides. -/
def rudeBench : Bench Simulator.State :=
  scriptedBench
    [⟨"uchar*", .global, true, none⟩, ⟨"uchar", .workItem, false, none⟩,
      ⟨"int*", .workGroup, false, none⟩]
    [plainStep .add {}] []

def rudeInstance : Instance where
  source := ""
  matrix := [⟨4, 2⟩, ⟨4, 3⟩, ⟨4, 1⟩]

def rudeSignature : Signature :=
  [⟨0, "uchar*", .scalar .uchar, .global, true, true⟩,
    ⟨1, "uchar", .scalar .uchar, .workItem, false, false⟩,
    ⟨2, "int*", .scalar .int, .workGroup, true, false⟩]

set_option maxRecDepth 10000 in
/-- The device changes the buffer, and nothing of that is read back. -/
theorem run_framed_rude :
    ∃ b₁ e c', ((mk 0 "k").signature Simulator.device).on rudeBench = (.ok rudeSignature, b₁) ∧
      (rudeSignature.execute Simulator.device 0 ⟨4, 2⟩ (.generated .standard)).on rudeBench =
        (.ok e, c') ∧
      c'.device.buffers = #[[2, 2, 2, 2]] ∧ e.inputs.same e.outputs ∧ rudeSignature.Framed e ∧
      ∃ runs b', ((mk 0 "k").run Simulator.device ⟨0, ""⟩ rudeInstance).on rudeBench =
          (.ok runs, b') ∧
        runs[2]? = some (.ofOutcome ⟨4, 1⟩ .noOutput) := by
  have hsignature := Session.on_eq_of_toOption
    (show (((mk 0 "k").signature Simulator.device).on rudeBench).1.toOption =
      some rudeSignature by decide +kernel)
  have hlimits := Session.on_eq_of_toOption
    (show (((mk 0 "k").limits Simulator.device ⟨0, ""⟩).on
      (((mk 0 "k").signature Simulator.device).on rudeBench).2).1.toOption =
        some ⟨256, none⟩ by decide +kernel)
  obtain ⟨e, he, hsame⟩ := Option.map_eq_some_iff.1
    (show ((rudeSignature.execute Simulator.device 0 ⟨4, 2⟩ (.generated .standard)).on
      rudeBench).1.toOption.map (fun e => e.inputs.same e.outputs) = some true by decide +kernel)
  have hexecution := Session.on_eq_of_toOption he
  obtain ⟨hframed, hrun⟩ := run_framed hsignature
  have hreadOnly : rudeSignature.IsReadOnly := by
    unfold Signature.IsReadOnly
    decide
  obtain ⟨runs, b', hruns, -, hnoOutput⟩ :=
    hrun hreadOnly ⟨0, ""⟩ rudeInstance (.generated .standard) _ _ rfl hlimits
  refine ⟨_, e, _, hsignature, hexecution, by decide +kernel, hsame,
    hframed _ _ _ _ _ _ e hexecution, runs, b', hruns, ?_⟩
  have hagreed : ((Drive.mk Simulator.device ⟨0, "k"⟩ rudeSignature ⟨256, none⟩ rudeInstance
      (.generated .standard)).trialAt (.start (((mk 0 "k").limits Simulator.device ⟨0, ""⟩).on
        (((mk 0 "k").signature Simulator.device).on rudeBench).2).2) rudeInstance.matrix 2
          (by decide)).agreed?.isSome := by decide +kernel
  obtain ⟨r, hr⟩ := Option.isSome_iff_exists.1 hagreed
  obtain ⟨first, second, ht, -, -⟩ := Trial.agreed?_eq_some_iff.1 hr
  exact hnoOutput 2 (by decide) first second ht

end KernelHandle

end KernelDiff
