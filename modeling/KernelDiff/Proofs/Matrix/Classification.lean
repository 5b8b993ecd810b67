import KernelDiff.Proofs.Execution.Failures
import KernelDiff.Proofs.Matrix.History
import KernelDiff.Simulator.Machine

namespace KernelDiff

/-!
# The outcome of every configuration

The outcome of a configuration is a function of its limits, of its two checked executions, of
the reference of its number of work items and of the rerun on other inputs.

* `Drive.Classified` — the law, one field for each outcome;
* `Drive.classified_step` — every step obeys it;
* `run_classified` — so does every configuration of every run, where the reference is what the
  earliest configuration of the same number of work items agreed on.
-/

variable {σ : Type}

/-! ### Failures and outcomes -/

namespace Outcome

/-- A failure is an outcome of its own sort: nothing that an execution shows. -/
theorem ofFailure_cases (e : Failure) :
    ofFailure e = .invalidSizes ∨ ofFailure e = .unsupportedArguments ∨
      ofFailure e = .runtimeFailure := by
  cases e <;> simp [ofFailure]

end Outcome

namespace Drive

variable (x : Drive σ)

/-- No execution fails for its sizes: they were checked before. -/
theorem ofFailure_of_stopped {c : Checkpoint σ} {sizes : LaunchSizes} {e : Failure}
    (h : x.trial c sizes = .stopped e) : Outcome.ofFailure e ≠ .invalidSizes := by
  have hsteady : (x.execution sizes x.source).Steady (fun _ => True)
      (fun e => Outcome.ofFailure e ≠ .invalidSizes) := by
    refine Signature.steady_execute (fun _ _ _ => trivial) (by simp [Outcome.ofFailure])
      (by simp [Outcome.ofFailure]) _ _ _ fun _ e he => ?_
    cases e <;> simp_all [Outcome.ofFailure, Failure.isInput]
  have hp := x.launchable_of_trial h (by simp)
  rw [trial, hp] at h
  rcases hfirst : (x.execution sizes x.source).on c.bench with ⟨⟨e₁⟩ | ⟨first⟩, b⟩
  · simp only [hfirst] at h
    cases h
    exact hsteady.failure hfirst trivial
  · rcases hsecond : (x.execution sizes x.source).on b with ⟨⟨e₂⟩ | ⟨second⟩, b₂⟩
    · simp only [hfirst, hsecond] at h
      cases h
      exact hsteady.failure hsecond trivial
    · simp only [hfirst, hsecond] at h
      cases h

/-- A rerun takes no entries, so only the device can stop it. -/
theorem ofFailure_of_rerun {c : Checkpoint σ} {sizes : LaunchSizes} {e : Failure}
    (h : x.rerun c sizes = .error e) : Outcome.ofFailure e = .runtimeFailure := by
  have hsteady : (x.execution sizes (.generated x.inst.policy.alternate)).Steady
      (fun _ => True) (fun e => Outcome.ofFailure e = .runtimeFailure) := by
    refine Signature.steady_execute (fun _ _ _ => trivial) (by simp [Outcome.ofFailure])
      (by simp [Outcome.ofFailure]) _ _ _ fun hexplicit => ?_
    cases hexplicit
  exact hsteady.failure (Prod.ext h rfl) trivial

/-! ### The law -/

/-- What a configuration is classified by: its checked executions and its rerun at a checkpoint,
    and what it is compared with. -/
structure Classified (c : Checkpoint σ) (sizes : LaunchSizes) (IsReference : Arguments → Prop)
    (run : KernelRun) : Prop where
  sizes_eq : run.sizes = sizes
  /-- Skipped exactly for sizes that cannot be launched. -/
  rejected : run.outcome = .invalidSizes ↔ ∃ p, x.limits.problem? sizes = some p
  /-- The first failure of the checked executions is the outcome. -/
  stopped : ∀ e, x.trial c sizes = .stopped e → run = .stopped sizes e
  nondeterministic : run.outcome = .nondeterministic ↔
    ∃ first second, x.trial c sizes = .completed first second ∧
      first.outputs.same second.outputs = false
  divergent : run.outcome = .divergent ↔
    ∃ first second, x.trial c sizes = .completed first second ∧
      first.outputs.same second.outputs ∧ ∃ r, IsReference r ∧ r.same first.outputs = false
  noOutput : run.outcome = .noOutput ↔
    ∃ first second, x.trial c sizes = .completed first second ∧
      first.outputs.same second.outputs ∧ (∀ r, IsReference r → r.same first.outputs) ∧
      first.outputs.same first.inputs
  inputInsensitive : run.outcome = .inputInsensitive ↔
    ∃ first second other, x.trial c sizes = .completed first second ∧
      first.outputs.same second.outputs ∧ (∀ r, IsReference r → r.same first.outputs) ∧
      first.outputs.same first.inputs = false ∧ x.inst.checkSensitivity ∧
      x.rerun c sizes = .ok other ∧ other.outputs.same first.outputs
  pass : run.outcome = .pass ↔
    ∃ first second, x.trial c sizes = .completed first second ∧
      first.outputs.same second.outputs ∧ (∀ r, IsReference r → r.same first.outputs) ∧
      first.outputs.same first.inputs = false ∧
      (x.inst.checkSensitivity →
        ∃ other, x.rerun c sizes = .ok other ∧ other.outputs.same first.outputs = false)
  /-- A failure of the rerun is the outcome where the rerun is made. -/
  rerunStopped : ∀ first second e, x.trial c sizes = .completed first second →
    first.outputs.same second.outputs → (∀ r, IsReference r → r.same first.outputs) →
    first.outputs.same first.inputs = false → x.inst.checkSensitivity →
    x.rerun c sizes = .error e → run = .stopped sizes e

theorem classified_of_rejected {c : Checkpoint σ} {sizes : LaunchSizes} {p : SizeProblem}
    (ht : x.trial c sizes = .rejected p) (IsReference : Arguments → Prop) :
    x.Classified c sizes IsReference (x.step c sizes).1 := by
  have hp := x.trial_eq_rejected_iff.1 ht
  rw [x.step_of_problem hp]
  constructor <;> simp [ht, hp, KernelRun.explained]

theorem classified_of_stopped {c : Checkpoint σ} {sizes : LaunchSizes} {e : Failure}
    (ht : x.trial c sizes = .stopped e) (IsReference : Arguments → Prop) :
    x.Classified c sizes IsReference (x.step c sizes).1 := by
  have hp := x.launchable_of_trial ht (by simp)
  have hsizes := x.ofFailure_of_stopped ht
  rw [(x.step_of_stopped ht).1]
  -- The sizes were checked before, so two sorts of failure remain.
  rcases Outcome.ofFailure_cases e with h | h | h
  · exact absurd h hsizes
  · constructor <;> simp [ht, hp, KernelRun.stopped, KernelRun.explained, h]
  · constructor <;> simp [ht, hp, KernelRun.stopped, KernelRun.explained, h]

/-- Two executions that disagree are compared with nothing else. -/
theorem classified_of_nondeterministic {c : Checkpoint σ} {sizes : LaunchSizes}
    {first second : Execution} (ht : x.trial c sizes = .completed first second)
    (hsame : first.outputs.same second.outputs = false) (IsReference : Arguments → Prop) :
    x.Classified c sizes IsReference (.ofOutcome sizes .nondeterministic) := by
  have hp := x.launchable_of_trial ht (by simp)
  constructor
  case rerunStopped =>
    intro first' second' e ht' hsame'
    rw [ht] at ht'
    cases ht'
    -- The rerun is made only where the executions agree.
    simp [hsame] at hsame'
  all_goals simp [ht, hp, KernelRun.ofOutcome, hsame]

/-- Executions that agree with each other but not with the reference are found divergent,
    whatever else they do. -/
theorem classified_of_divergent {c : Checkpoint σ} {sizes : LaunchSizes}
    {first second : Execution} (ht : x.trial c sizes = .completed first second)
    (hsame : first.outputs.same second.outputs) {IsReference : Arguments → Prop} {r : Arguments}
    (hr : IsReference r) (hdiffer : r.same first.outputs = false) :
    x.Classified c sizes IsReference (.ofOutcome sizes .divergent) := by
  have hp := x.launchable_of_trial ht (by simp)
  have hnot : ¬ ∀ r, IsReference r → r.same first.outputs := by
    intro h
    have := h r hr
    simp [hdiffer] at this
  constructor
  case rerunStopped =>
    intro first' second' e ht' _ hall
    rw [ht] at ht'
    cases ht'
    exact absurd hall hnot
  case divergent =>
    simp only [ht, KernelRun.ofOutcome, true_iff]
    exact ⟨first, second, rfl, hsame, r, hr, hdiffer⟩
  all_goals simp [ht, hp, KernelRun.ofOutcome, hsame, hnot]

/-- Executions that agree, also with the reference, are told apart by what they did and by the
    rerun. -/
theorem classified_of_agreement {c : Checkpoint σ} {sizes : LaunchSizes}
    {first second : Execution} (ht : x.trial c sizes = .completed first second)
    (hsame : first.outputs.same second.outputs) {IsReference : Arguments → Prop}
    (href : ∀ r, IsReference r → r.same first.outputs) :
    x.Classified c sizes IsReference (x.conclusion c sizes first) := by
  have hp := x.launchable_of_trial ht (by simp)
  unfold conclusion finding
  -- The three questions, in the order in which they are asked: were the arguments changed, is the
  -- rerun asked for, and what did it show.
  cases hinputs : first.outputs.same first.inputs with
  | true =>
    constructor
    case rerunStopped =>
      intro first' second' e ht' _ _ hinputs'
      rw [ht] at ht'
      cases ht'
      simp [hinputs] at hinputs'
    all_goals simp +contextual [ht, hp, KernelRun.ofOutcome, hsame, href, hinputs]
  | false =>
    cases hcheck : x.inst.checkSensitivity with
    | false =>
      constructor <;> simp +contextual [ht, hp, KernelRun.ofOutcome, hsame, href, hinputs, hcheck]
    | true =>
      cases hrerun : x.rerun c sizes with
      | error e =>
        have ho := x.ofFailure_of_rerun hrerun
        constructor
        case rerunStopped =>
          intro first' second' e' _ _ _ _ _ he
          rw [hrerun] at he
          cases he
          rfl
        all_goals simp +contextual [ht, hp, KernelRun.stopped, KernelRun.explained, ho, hsame,
          href, hinputs, hcheck, hrerun, Except.map]
      | ok other =>
        constructor
        case rerunStopped =>
          intro first' second' e' _ _ _ _ _ he
          rw [hrerun] at he
          cases he
        all_goals
          cases hother : other.outputs.same first.outputs <;>
            simp +contextual [ht, hp, KernelRun.ofOutcome, hsame, href, hinputs, hcheck, hrerun,
              Except.map, hother]

/-- Every step obeys the law, with the reference that was made before it. -/
theorem classified_step (c : Checkpoint σ) (sizes : LaunchSizes) :
    x.Classified c sizes (fun r => c.references.find? sizes.globalSize = some r)
      (x.step c sizes).1 := by
  cases ht : x.trial c sizes with
  | rejected p => exact x.classified_of_rejected ht _
  | stopped e => exact x.classified_of_stopped ht _
  | completed first second =>
    rcases x.run_of_completed ht with
      ⟨hrun, hdiffer⟩ | ⟨hrun, hsame, r, hr, hdiffer⟩ | ⟨hrun, hsame, href⟩
    · rw [hrun]
      exact x.classified_of_nondeterministic ht hdiffer _
    · rw [hrun]
      exact x.classified_of_divergent ht hsame hr hdiffer
    · rw [hrun]
      exact x.classified_of_agreement ht hsame href

end Drive

/-! ### The whole matrix -/

namespace KernelHandle

variable {d : Device σ} {k : KernelHandle} {env : Environment} {i : Instance}

/-- **The outcome of every configuration.** Take a kernel whose signature can be read and an
    instance with as many input entries as the kernel takes. Without limits nothing is run at
    all. With limits every configuration is classified by its own executions and by what the
    earliest agreeing configuration of its number of work items agreed on. That reference
    stays once it is made, and a configuration whose executions did not both succeed and agree
    makes none. -/
theorem run_classified {b b₁ : Bench σ} {s : Signature} {source : InputSource}
    (hsignature : (k.signature d).on b = (.ok s, b₁)) (hsource : source? s i = .ok source) :
    (∀ e b₂, (k.limits d env).on b₁ = (.error e, b₂) → (k.run d env i).on b = (.error e, b₂)) ∧
    ∀ limits b₂, (k.limits d env).on b₁ = (.ok limits, b₂) →
      let x : Drive σ := ⟨d, k, s, limits, i, source⟩
      let m := i.matrix
      let before (n : Nat) : Checkpoint σ := x.after (.start b₂) (m.take n)
      ∃ runs b', (k.run d env i).on b = (.ok runs, b') ∧ runs.length = m.length ∧
        ∀ n (hn : n < m.length),
          (∃ run, runs[n]? = some run ∧ x.Classified (before n) m[n]
            (fun r => ∃ j, j < n ∧ x.IsReference (.start b₂) m m[n].globalSize j r) run) ∧
          (∀ g r, (before n).references.find? g = some r →
            (before (n + 1)).references.find? g = some r) ∧
          ((x.trial (before n) m[n]).agreed? = none →
            (before (n + 1)).references = (before n).references) := by
  constructor
  · intro e b₂ hlimits
    show k.run d env i b = _
    unfold run
    simp only [hsignature, hsource, hlimits]
  intro limits b₂ hlimits x m before
  refine ⟨_, _, run_of_limits hsignature hsource hlimits, x.length_runs _ m, ?_⟩
  intro n hn
  have hsucc : before (n + 1) = (x.step (before n) m[n]).2 := x.after_take_succ _ hn
  refine ⟨⟨_, x.getElem?_runs _ hn, ?_⟩, ?_, ?_⟩
  · -- The references that a step finds are those that the configurations before it agreed on.
    have href : (fun r => (before n).references.find? m[n].globalSize = some r) =
        fun r => ∃ j, j < n ∧ x.IsReference (.start b₂) m m[n].globalSize j r := by
      funext r
      exact propext (x.find?_after_take rfl (Nat.le_of_lt hn) m[n].globalSize r)
    rw [← href]
    exact x.classified_step (before n) m[n]
  · intro g r hr
    rw [hsucc, x.find?_step, hr, Option.some_or]
  · intro hagreed
    rw [hsucc]
    exact x.references_step hagreed

def scriptedKernel (parameters : List Simulator.ParameterScript) (body : List Simulator.Step) :
    Simulator.KernelScript :=
  { name := "k", parameters, groupSize := 256, compiledGroupSize := (0, 0, 0), createError := none
    countError := none, limitsError := none, body }

/-- The standard platforms with one kernel created, and some calls that are to fail. -/
def scriptedBench (parameters : List Simulator.ParameterScript) (body : List Simulator.Step)
    (faults : List Simulator.Fault) : Bench Simulator.State where
  device :=
    { wording := .plain
      devices := Simulator.standardPlatforms.flatten
      faults
      kernels := #[{ script := scriptedKernel parameters body }] }
  profile := .empty

/-- A step on the first parameter that reads nothing. -/
def plainStep (action : Simulator.Action) (condition : Simulator.Condition) : Simulator.Step :=
  { action, target := 0, source := 0, constant := 1, position := none, condition, code := 0 }

/-- A kernel that counts its launches in groups of four and looks at the size of groups of one,
    on a device that refuses the ninth launch. -/
def moodyBench : Bench Simulator.State :=
  scriptedBench [⟨"uchar*", .global, false, none⟩]
    [plainStep .add {}, plainStep .addLaunch { localSize := some 4 },
      plainStep .addLocalSize { localSize := some 1 }]
    [⟨.launch, 8, -5⟩]

/-- Of eight work items the first groups disagree, so the second become the reference. -/
def moodyInstance : Instance where
  source := ""
  matrix := [⟨8, 4⟩, ⟨8, 2⟩, ⟨8, 1⟩, ⟨8, 3⟩, ⟨4, 2⟩, ⟨8, 8⟩]
  policy := .constant 3

set_option maxRecDepth 10000 in
theorem run_classified_moody :
    ∃ s b₁ limits b₂,
      ((mk 0 "k").signature Simulator.device).on moodyBench = (.ok s, b₁) ∧
      source? s moodyInstance = .ok (.generated (.constant 3)) ∧
      ((mk 0 "k").limits Simulator.device ⟨0, ""⟩).on b₁ = (.ok limits, b₂) ∧
      let x : Drive Simulator.State :=
        ⟨Simulator.device, ⟨0, "k"⟩, s, limits, moodyInstance, .generated (.constant 3)⟩
      ∃ runs b', ((mk 0 "k").run Simulator.device ⟨0, ""⟩ moodyInstance).on moodyBench =
          (.ok runs, b') ∧
        runs.map (·.outcome) = [.nondeterministic, .pass, .divergent, .invalidSizes,
          .runtimeFailure, .pass] ∧
        ∃ run, runs[2]? = some run ∧
          x.Classified (x.after (.start b₂) (moodyInstance.matrix.take 2)) ⟨8, 1⟩
            (fun r => ∃ j, j < 2 ∧ x.IsReference (.start b₂) moodyInstance.matrix 8 j r) run := by
  have hsignature := Session.on_eq_of_toOption
    (show (((mk 0 "k").signature Simulator.device).on moodyBench).1.toOption =
      some [⟨0, "uchar*", .scalar .uchar, .global, true, false⟩] by decide +kernel)
  have hsource : source? [⟨0, "uchar*", .scalar .uchar, .global, true, false⟩] moodyInstance =
      .ok (.generated (.constant 3)) := rfl
  have hlimits := Session.on_eq_of_toOption
    (show (((mk 0 "k").limits Simulator.device ⟨0, ""⟩).on
      (((mk 0 "k").signature Simulator.device).on moodyBench).2).1.toOption =
        some ⟨256, none⟩ by decide +kernel)
  have houtcomes : (((mk 0 "k").run Simulator.device ⟨0, ""⟩ moodyInstance).on
      moodyBench).1.toOption.map (·.map (·.outcome)) =
        some [.nondeterministic, .pass, .divergent, .invalidSizes, .runtimeFailure, .pass] := by
    decide +kernel
  refine ⟨_, _, _, _, hsignature, hsource, hlimits, ?_⟩
  obtain ⟨runs, b', hrun, -, hlaw⟩ := (run_classified hsignature hsource).2 _ _ hlimits
  rw [hrun] at houtcomes
  exact ⟨runs, b', hrun, Option.some.inj houtcomes, (hlaw 2 (by decide)).1⟩

end KernelHandle

end KernelDiff
