import KernelDiff.Proofs.Execution.Outputs
import KernelDiff.Proofs.Matrix.Classification

namespace KernelDiff

/-!
# What the rerun on other inputs can find

A kernel that ignores its inputs writes the same bytes on other inputs. But the rerun compares all
that is read back, and scalars and buffers that kernels cannot write are carried over from inputs
that differ on purpose. So a kernel that ignores them is found insensitive only where the other
inputs happen to be the same in these places.

* `Drive.Classified.inputInsensitive_iff_same` — the comparison that is made;
* `run_inputInsensitive_iff` — what it comes to: the bytes that were written, and the inputs that
  were carried over.
-/

variable {σ : Type}

namespace Drive

variable {x : Drive σ}

/-- Of a configuration that no comparison found fault with, the rerun decides. -/
theorem Classified.inputInsensitive_iff_same {c : Checkpoint σ} {sizes : LaunchSizes}
    {IsReference : Arguments → Prop} {run : KernelRun}
    (h : x.Classified c sizes IsReference run) {first second other : Execution}
    (htrial : x.trial c sizes = .completed first second)
    (hagree : first.outputs.same second.outputs) (hdivergent : run.outcome ≠ .divergent)
    (hmodified : first.outputs.same first.inputs = false) (hcheck : x.inst.checkSensitivity)
    (hrerun : x.rerun c sizes = .ok other) :
    run.outcome = .inputInsensitive ↔ other.outputs.same first.outputs := by
  have href : ∀ r, IsReference r → r.same first.outputs := by
    intro r hr
    cases hsame : r.same first.outputs with
    | true => rfl
    | false => exact absurd (h.divergent.2 ⟨first, second, htrial, hagree, r, hr, hsame⟩) hdivergent
  rw [h.inputInsensitive]
  constructor
  · rintro ⟨first', second', other', htrial', -, -, -, -, hrerun', hsame⟩
    rw [htrial] at htrial'
    rw [hrerun] at hrerun'
    cases htrial'
    cases hrerun'
    exact hsame
  · intro hsame
    exact ⟨first, second, other, htrial, hagree, href, hmodified, hcheck, hrerun, hsame⟩

/-- The rerun is an execution on the bench that the checked executions have left. -/
theorem execution_of_rerun {c : Checkpoint σ} {sizes : LaunchSizes} {other : Execution}
    (h : x.rerun c sizes = .ok other) :
    ∃ b', (x.execution sizes (.generated x.inst.policy.alternate)).on (x.benchAfterTrial c sizes) =
      (.ok other, b') :=
  ⟨_, Prod.ext h rfl⟩

end Drive

namespace KernelHandle

variable {d : Device σ} {k : KernelHandle} {env : Environment} {i : Instance}

/-- **What insensitivity comes to.** Take a configuration whose checked executions agree, that is
    not divergent and did modify an argument, with a rerun that succeeds. It is found insensitive
    exactly when the rerun writes the same bytes and its scalars and other buffers are those of
    the checked execution. So the verdict tells whether the same bytes are written exactly where
    this implies that nothing else differed. -/
theorem run_inputInsensitive_iff {b b₁ b₂ b' : Bench σ} {s : Signature} {source : InputSource}
    {limits : GroupLimits} {runs : List KernelRun} {run : KernelRun}
    (hsignature : (k.signature d).on b = (.ok s, b₁)) (hsource : source? s i = .ok source)
    (hlimits : (k.limits d env).on b₁ = (.ok limits, b₂))
    (hruns : (k.run d env i).on b = (.ok runs, b')) {n : Nat} (hn : n < i.matrix.length)
    (hrun : runs[n]? = some run) {first second other : Execution}
    (htrial : Drive.trialAt ⟨d, k, s, limits, i, source⟩ (.start b₂) i.matrix n hn =
      .completed first second)
    (hagree : first.outputs.same second.outputs) (hdivergent : run.outcome ≠ .divergent)
    (hmodified : first.outputs.same first.inputs = false) (hcheck : i.checkSensitivity)
    (hrerun : Drive.rerunAt ⟨d, k, s, limits, i, source⟩ (.start b₂) i.matrix n hn = .ok other) :
    (run.outcome = .inputInsensitive ↔
      s.SameWritten other.outputs first.outputs ∧ s.SameCarried other.inputs first.inputs) ∧
    ((run.outcome = .inputInsensitive ↔ s.SameWritten other.outputs first.outputs) ↔
      (s.SameWritten other.outputs first.outputs → s.SameCarried other.inputs first.inputs)) := by
  have hiff : run.outcome = .inputInsensitive ↔
      s.SameWritten other.outputs first.outputs ∧ s.SameCarried other.inputs first.inputs := by
    rw [run_of_limits hsignature hsource hlimits] at hruns
    cases hruns
    rw [Drive.getElem?_runs _ _ hn, Option.some.injEq] at hrun
    subst hrun
    have hlaw := Drive.classified_step ⟨d, k, s, limits, i, source⟩
      (Drive.after ⟨d, k, s, limits, i, source⟩ (.start b₂) (i.matrix.take n)) i.matrix[n]
    -- The rerun decides by comparing all outputs, and this is two comparisons in one.
    rw [hlaw.inputInsensitive_iff_same htrial hagree hdivergent hmodified hcheck hrerun]
    obtain ⟨b₃, hfirst, -⟩ := Drive.executions_of_trial _ htrial
    obtain ⟨b₄, hother⟩ := Drive.execution_of_rerun hrerun
    exact Execution.same_outputs_iff (Signature.isConst_of_query hsignature) hother hfirst
  refine ⟨hiff, ?_⟩
  rw [hiff]
  constructor
  · intro h hwritten
    exact (h.2 hwritten).2
  · intro h
    exact ⟨fun hboth => hboth.1, fun hwritten => ⟨hwritten, h hwritten⟩⟩

/-! ### A kernel that ignores its inputs and is not found out -/

def deafSignature : Signature :=
  [⟨0, "uchar*", .scalar .uchar, .global, true, false⟩,
    ⟨1, "uchar", .scalar .uchar, .workItem, false, false⟩]

/-- A kernel that sets its buffer to ones and does not look at its scalar. -/
def deafBench : Bench Simulator.State :=
  scriptedBench [⟨"uchar*", .global, false, none⟩, ⟨"uchar", .workItem, false, none⟩]
    [plainStep .set {}] []

def deafInstance : Instance where
  source := ""
  matrix := [⟨2, 1⟩]
  policy := .constant 3

def deafDrive : Drive Simulator.State :=
  ⟨Simulator.device, ⟨0, "k"⟩, deafSignature, ⟨256, none⟩, deafInstance,
    .generated (.constant 3)⟩

/-- The bench once the signature and the limits are known. -/
def deafStart : Bench Simulator.State :=
  (((mk 0 "k").limits Simulator.device ⟨0, ""⟩).on
    (((mk 0 "k").signature Simulator.device).on deafBench).2).2

/-- Whatever the inputs are, the outputs are ones and the scalar. -/
def deafExecution (handle : Nat) (contents : List UInt8) (x : UInt8) : Execution where
  inputs := [.buffer ⟨.scalar .uchar, contents, some handle, false⟩,
    .scalar ⟨.scalar .uchar, [x], rfl⟩]
  outputs := [.buffer ⟨.scalar .uchar, [1, 1], none, false⟩, .scalar ⟨.scalar .uchar, [x], rfl⟩]

theorem deaf_trial :
    deafDrive.trialAt (.start deafStart) deafInstance.matrix 0 (by decide) =
      .completed (deafExecution 0 [3, 3] 3) (deafExecution 1 [3, 3] 3) := by
  decide +kernel

theorem deaf_rerun :
    deafDrive.rerunAt (.start deafStart) deafInstance.matrix 0 (by decide) =
      .ok (deafExecution 2 [12, 45] 45) := by
  refine congrArg Prod.fst (Session.on_eq_of_toOption ?_)
  decide +kernel

theorem deaf_run :
    ∃ b', ((mk 0 "k").run Simulator.device ⟨0, ""⟩ deafInstance).on deafBench =
      (.ok [.ofOutcome ⟨2, 1⟩ .pass], b') := by
  refine ⟨_, Session.on_eq_of_toOption ?_⟩
  decide +kernel

theorem run_inputInsensitive_iff_deaf :
    let first := deafExecution 0 [3, 3] 3
    let other := deafExecution 2 [12, 45] 45
    let run := KernelRun.ofOutcome ⟨2, 1⟩ .pass
    (∃ b', ((mk 0 "k").run Simulator.device ⟨0, ""⟩ deafInstance).on deafBench =
      (.ok [run], b')) ∧
    (run.outcome = .inputInsensitive ↔
      deafSignature.SameWritten other.outputs first.outputs ∧
        deafSignature.SameCarried other.inputs first.inputs) ∧
    ((run.outcome = .inputInsensitive ↔
        deafSignature.SameWritten other.outputs first.outputs) ↔
      (deafSignature.SameWritten other.outputs first.outputs →
        deafSignature.SameCarried other.inputs first.inputs)) := by
  intro first other run
  obtain ⟨b', hrun⟩ := deaf_run
  have hsignature := Session.on_eq_of_toOption
    (show (((mk 0 "k").signature Simulator.device).on deafBench).1.toOption =
      some deafSignature by decide +kernel)
  have hlimits := Session.on_eq_of_toOption
    (show (((mk 0 "k").limits Simulator.device ⟨0, ""⟩).on
      (((mk 0 "k").signature Simulator.device).on deafBench).2).1.toOption =
        some ⟨256, none⟩ by decide +kernel)
  refine ⟨⟨b', hrun⟩, ?_⟩
  exact run_inputInsensitive_iff hsignature rfl hlimits hrun (by decide) rfl deaf_trial
    (by decide) (by decide) (by decide) rfl deaf_rerun

/-- All bytes that are written are the same on other inputs, but the verdict is not that. -/
theorem deaf_not_inputInsensitive :
    let first := deafExecution 0 [3, 3] 3
    let second := deafExecution 1 [3, 3] 3
    let other := deafExecution 2 [12, 45] 45
    ∃ run b', ((mk 0 "k").run Simulator.device ⟨0, ""⟩ deafInstance).on deafBench =
        (.ok [run], b') ∧
      deafDrive.trialAt (.start deafStart) deafInstance.matrix 0 (by decide) =
        .completed first second ∧
      first.outputs.same second.outputs ∧ run.outcome ≠ .divergent ∧
      first.outputs.same first.inputs = false ∧ deafInstance.checkSensitivity ∧
      deafDrive.rerunAt (.start deafStart) deafInstance.matrix 0 (by decide) = .ok other ∧
      ¬ (run.outcome = .inputInsensitive ↔
        deafSignature.SameWritten other.outputs first.outputs) := by
  intro first second other
  obtain ⟨b', hrun⟩ := deaf_run
  refine ⟨_, b', hrun, deaf_trial, by decide, by decide, by decide, rfl, deaf_rerun, ?_⟩
  intro h
  have hwritten : deafSignature.SameWritten other.outputs first.outputs := by
    intro n p x y hp hwritable hx hy
    -- The only writable place is the first, and both executions fill it with ones.
    match n with
    | 0 =>
      cases hx
      cases hy
      rfl
    | 1 => cases hx
    | n + 2 => cases hx
  cases h.2 hwritten

end KernelHandle

end KernelDiff
