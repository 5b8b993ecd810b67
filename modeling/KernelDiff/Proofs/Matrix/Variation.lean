import KernelDiff.Proofs.Execution.Variation
import KernelDiff.Proofs.Matrix.Sensitivity

namespace KernelDiff

/-!
# Whether the other inputs are other inputs

The rerun takes its inputs from the alternate policy, and these are other inputs only if some lane
tells a seed of the policy from the one of its alternate. Lanes that hold little of their seeds,
and arguments that are made of few of them, may not. Then insensitivity is found although both
executions were on the same inputs.

* `Drive.same_inputs_of_rerun` — the checked execution and the rerun of a configuration;
* `Signature.alternate_differs_iff` — when the alternate policy makes other inputs, and when
  insensitivity is found on other inputs.
-/

variable {σ : Type}

/-- The checked execution of a configuration and its rerun are on other inputs exactly where some
    element shows it. -/
theorem Drive.same_inputs_of_rerun {x : Drive σ} {c : Checkpoint σ} {sizes : LaunchSizes}
    {first second other : Execution} (hsource : x.source = .generated x.inst.policy)
    (htrial : x.trial c sizes = .completed first second) (hrerun : x.rerun c sizes = .ok other) :
    first.inputs.same other.inputs = false ↔ x.signature.Varies sizes x.inst.policy := by
  obtain ⟨b, hfirst, -⟩ := x.executions_of_trial htrial
  obtain ⟨b', hother⟩ := Drive.execution_of_rerun hrerun
  rw [hsource] at hfirst
  exact Signature.same_inputs_iff hfirst hother

namespace Signature

/-- **The alternate policy makes other inputs** exactly where some element tells the seeds of the
    two policies apart. What is found insensitive without inputs of a caller was found so on other
    inputs exactly then. -/
theorem alternate_differs_iff (s : Signature) (sizes : LaunchSizes) (p : ValuePolicy) :
    (∃ args args', inputs sizes s (.ofPolicy p) = .ok args ∧
      inputs sizes s (.ofPolicy p.alternate) = .ok args' ∧
      (args.same args' = false ↔ s.Varies sizes p)) ∧
    ∀ {σ : Type} {d : Device σ} {k : KernelHandle} {env : Environment} {i : Instance}
      {b b₁ b₂ b' : Bench σ} {limits : GroupLimits} {runs : List KernelRun} {run : KernelRun}
      {n : Nat} (hn : n < i.matrix.length),
      (k.signature d).on b = (.ok s, b₁) → i.inputs = none → i.policy = p →
      (k.limits d env).on b₁ = (.ok limits, b₂) → (k.run d env i).on b = (.ok runs, b') →
      i.matrix[n] = sizes → runs[n]? = some run → run.outcome = .inputInsensitive →
      ∃ first second other,
        Drive.trialAt ⟨d, k, s, limits, i, .generated p⟩ (.start b₂) i.matrix n hn =
          .completed first second ∧
        Drive.rerunAt ⟨d, k, s, limits, i, .generated p⟩ (.start b₂) i.matrix n hn = .ok other ∧
        other.outputs.same first.outputs ∧
        (first.inputs.same other.inputs = false ↔ s.Varies sizes p) := by
  constructor
  · exact ⟨_, _, inputs_ofPolicy s sizes p, inputs_ofPolicy s sizes p.alternate,
      same_synthesized_iff s sizes p⟩
  · intro σ d k env i b b₁ b₂ b' limits runs run n hn hsignature hinputs hpolicy hlimits hruns
      hsizes hrun houtcome
    subst hpolicy hsizes
    have hsource : KernelHandle.source? s i = .ok (.generated i.policy) := by
      simp [KernelHandle.source?, hinputs]
    rw [KernelHandle.run_of_limits hsignature hsource hlimits] at hruns
    cases hruns
    rw [Drive.getElem?_runs _ _ hn, Option.some.injEq] at hrun
    subst hrun
    have hlaw := Drive.classified_step ⟨d, k, s, limits, i, .generated i.policy⟩
      (Drive.after ⟨d, k, s, limits, i, .generated i.policy⟩ (.start b₂) (i.matrix.take n))
      i.matrix[n]
    obtain ⟨first, second, other, htrial, -, -, -, -, hrerun, hsame⟩ :=
      hlaw.inputInsensitive.1 houtcome
    exact ⟨first, second, other, htrial, hrerun, hsame,
      Drive.same_inputs_of_rerun rfl htrial hrerun⟩

/-! ### A kernel with one buffer -/

/-- The signature of a kernel whose only parameter is a buffer of scalars. -/
def single (typeName : String) (k : ScalarKind) : Signature :=
  [⟨0, typeName, .scalar k, .global, true, false⟩]

/-- A bench with a kernel on one buffer that makes one step. -/
def singleBench (typeName : String) (action : Simulator.Action) : Bench Simulator.State :=
  KernelHandle.scriptedBench [⟨typeName, .global, false, none⟩]
    [KernelHandle.plainStep action {}] []

def singleInstance (p : ValuePolicy) : Instance where
  source := ""
  matrix := [⟨2, 1⟩]
  policy := p

/-- The bench once the signature is known. -/
def singleAsked (typeName : String) (action : Simulator.Action) : Bench Simulator.State :=
  (((KernelHandle.mk 0 "k").signature Simulator.device).on (singleBench typeName action)).2

/-- A kernel that sets its buffer to ones was found insensitive on other inputs: the constant is no
    draw that the alternate hands out first. -/
theorem alternate_differs_iff_set :
    ∃ b b', (((KernelHandle.mk 0 "k").limits Simulator.device ⟨0, ""⟩).on
        (singleAsked "uchar*" .set)) = (.ok ⟨256, none⟩, b) ∧
      (((KernelHandle.mk 0 "k").run Simulator.device ⟨0, ""⟩ (singleInstance (.constant 3))).on
        (singleBench "uchar*" .set)) = (.ok [.ofOutcome ⟨2, 1⟩ .inputInsensitive], b') ∧
      ∃ first second other,
        Drive.trialAt ⟨Simulator.device, ⟨0, "k"⟩, single "uchar*" .uchar, ⟨256, none⟩,
            singleInstance (.constant 3), .generated (.constant 3)⟩ (.start b) [⟨2, 1⟩] 0
            (by decide) = .completed first second ∧
        Drive.rerunAt ⟨Simulator.device, ⟨0, "k"⟩, single "uchar*" .uchar, ⟨256, none⟩,
            singleInstance (.constant 3), .generated (.constant 3)⟩ (.start b) [⟨2, 1⟩] 0
            (by decide) = .ok other ∧
        other.outputs.same first.outputs ∧ first.inputs.same other.inputs = false := by
  have hsignature := Session.on_eq_of_toOption
    (show (((KernelHandle.mk 0 "k").signature Simulator.device).on
      (singleBench "uchar*" .set)).1.toOption = some (single "uchar*" .uchar) by decide +kernel)
  have hlimits := Session.on_eq_of_toOption
    (show (((KernelHandle.mk 0 "k").limits Simulator.device ⟨0, ""⟩).on
      (singleAsked "uchar*" .set)).1.toOption = some ⟨256, none⟩ by decide +kernel)
  have hrun := Session.on_eq_of_toOption
    (show (((KernelHandle.mk 0 "k").run Simulator.device ⟨0, ""⟩
      (singleInstance (.constant 3))).on (singleBench "uchar*" .set)).1.toOption =
        some [.ofOutcome ⟨2, 1⟩ .inputInsensitive] by decide +kernel)
  have hvaries : (single "uchar*" .uchar).Varies ⟨2, 1⟩ (.constant 3) := by
    refine ⟨0, .scalar .uchar, rfl, ?_⟩
    show ¬(3 : Int64).toInt % 2 ^ Lane.bits .uchar = _ % 2 ^ Lane.bits .uchar
    decide +kernel
  refine ⟨_, _, hlimits, hrun, ?_⟩
  obtain ⟨first, second, other, htrial, hrerun, hsame, hdiffers⟩ :=
    (alternate_differs_iff (single "uchar*" .uchar) ⟨2, 1⟩ (.constant 3)).2 (Nat.zero_lt_one)
      hsignature rfl rfl hlimits hrun rfl rfl rfl
  exact ⟨first, second, other, htrial, hrerun, hsame, hdiffers.2 hvaries⟩

/-- A buffer of truth values that were ones. -/
def ones (handle : Nat) : Execution where
  inputs := [.buffer ⟨.scalar .bool, [1, 0, 0, 0, 1, 0, 0, 0], some handle, false⟩]
  outputs := [.buffer ⟨.scalar .bool, [2, 1, 1, 1, 2, 1, 1, 1], none, false⟩]

/-- Truth values do not tell a draw from one, so the alternate makes the inputs that the policy
    makes, and a kernel that adds to them is found insensitive. -/
theorem not_alternate_differs_bool :
    (∃ x ∈ single "bool*" .bool, x.takesInput) ∧
    (GroupLimits.mk 256 none).problem? ⟨2, 1⟩ = none ∧
    (∃ args args', inputs ⟨2, 1⟩ (single "bool*" .bool) (.ofPolicy .standard) = .ok args ∧
      inputs ⟨2, 1⟩ (single "bool*" .bool) (.ofPolicy ValuePolicy.standard.alternate) = .ok args' ∧
      args.same args') ∧
    ∃ b b', (((KernelHandle.mk 0 "k").limits Simulator.device ⟨0, ""⟩).on
        (singleAsked "bool*" .add)) = (.ok ⟨256, none⟩, b) ∧
      (((KernelHandle.mk 0 "k").run Simulator.device ⟨0, ""⟩ (singleInstance .standard)).on
        (singleBench "bool*" .add)) = (.ok [.ofOutcome ⟨2, 1⟩ .inputInsensitive], b') ∧
      Drive.trialAt ⟨Simulator.device, ⟨0, "k"⟩, single "bool*" .bool, ⟨256, none⟩,
          singleInstance .standard, .generated .standard⟩ (.start b) [⟨2, 1⟩] 0 (by decide) =
        .completed (ones 0) (ones 1) ∧
      Drive.rerunAt ⟨Simulator.device, ⟨0, "k"⟩, single "bool*" .bool, ⟨256, none⟩,
          singleInstance .standard, .generated .standard⟩ (.start b) [⟨2, 1⟩] 0 (by decide) =
        .ok (ones 2) ∧
      (ones 0).inputs.same (ones 2).inputs := by
  have hlimits := Session.on_eq_of_toOption
    (show (((KernelHandle.mk 0 "k").limits Simulator.device ⟨0, ""⟩).on
      (singleAsked "bool*" .add)).1.toOption = some ⟨256, none⟩ by decide +kernel)
  have hrun := Session.on_eq_of_toOption
    (show (((KernelHandle.mk 0 "k").run Simulator.device ⟨0, ""⟩
      (singleInstance .standard)).on (singleBench "bool*" .add)).1.toOption =
        some [.ofOutcome ⟨2, 1⟩ .inputInsensitive] by decide +kernel)
  refine ⟨by decide, by decide, ?_, _, _, hlimits, hrun, by decide +kernel, ?_, by decide⟩
  · exact ⟨_, _, inputs_ofPolicy _ _ _, inputs_ofPolicy _ _ _, by decide +kernel⟩
  · refine congrArg Prod.fst (Session.on_eq_of_toOption ?_)
    decide +kernel

end Signature

end KernelDiff
