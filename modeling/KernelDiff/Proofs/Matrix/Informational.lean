import KernelDiff.Proofs.Matrix.Classification
import KernelDiff.Proofs.Matrix.Reports

namespace KernelDiff

/-!
# The rerun on other inputs is informational

The rerun comes after all comparisons of a configuration, and references are made before it. So
where it can be foretold which launches a device refuses, the rerun has no say in what is compared:
with it or without it, the same configurations disagree and the same leave their arguments alone.
Only what passes without the rerun may be found insensitive by it, or be stopped by it. But a rerun
is a launch, and a device may report something else of what it refuses later.

* `KernelRun.Informs` — what the rerun can make of a run;
* `Forecast.informs_run` — it makes nothing else of the run of a configuration;
* `KernelHandle.run_informs` — nor of any run of a matrix, up to reports of the device;
* `KernelHandle.reports_not_informed` — of reports it does, on some devices.
-/

namespace KernelRun

/-- What the rerun can make of a run: the same, or of one that passes, one that is insensitive or
    that was stopped. -/
def Informs (Same : KernelRun → KernelRun → Prop) (on off : KernelRun) : Prop :=
  Same on off ∨
    (off.outcome = .pass ∧ on.sizes = off.sizes ∧
      (on.outcome = .inputInsensitive ∨ on.outcome = .runtimeFailure))

variable {on on' off off' : KernelRun}

/-- With other reports it is what the rerun can make of the run up to reports. -/
theorem Informs.of_sameButReport (hon : on.SameButReport on') (h : on'.Informs Eq off) :
    on.Informs SameButReport off := by
  rcases h with rfl | ⟨hpass, hsizes, houtcome⟩
  · exact .inl hon
  · exact .inr ⟨hpass, hon.sizes.trans hsizes, by rwa [hon.outcome]⟩

/-- So it is of a run with other reports. -/
theorem Informs.trans_sameButReport (h : on.Informs SameButReport off)
    (hoff : off.SameButReport off') : on.Informs SameButReport off' := by
  rcases h with hsame | ⟨hpass, hsizes, houtcome⟩
  · exact .inl (hsame.trans hoff)
  · exact .inr ⟨hoff.outcome.symm.trans hpass, hsizes.trans hoff.sizes, houtcome⟩

/-- Any other outcome is there with the rerun and without it. -/
theorem Informs.outcome_eq_iff (h : on.Informs SameButReport off) {o : Outcome}
    (ho : o ≠ .pass ∧ o ≠ .inputInsensitive ∧ o ≠ .runtimeFailure) :
    on.outcome = o ↔ off.outcome = o := by
  rcases h with hsame | ⟨hoff, -, hon | hon⟩
  · rw [hsame.outcome]
  · rw [hoff, hon]
    exact iff_of_false ho.2.1.symm ho.1.symm
  · rw [hoff, hon]
    exact iff_of_false ho.2.2.symm ho.1.symm

/-- So it is in all places of a list of runs. -/
theorem getElem?_outcome_iff {on off : List KernelRun}
    (h : List.Forall₂ (Informs SameButReport) on off) {o : Outcome}
    (ho : o ≠ .pass ∧ o ≠ .inputInsensitive ∧ o ≠ .runtimeFailure) (n : Nat) :
    on[n]?.map (·.outcome) = some o ↔ off[n]?.map (·.outcome) = some o := by
  induction h generalizing n with
  | nil => rfl
  | cons head tail ih =>
    cases n with
    | zero => exact Option.some_inj.trans ((head.outcome_eq_iff ho).trans Option.some_inj.symm)
    | succ n => exact ih n

end KernelRun

namespace Forecast

variable {f : Forecast}

@[simp] theorem limits_withCheck (check : Bool) : (f.withCheck check).limits = f.limits := rfl

@[simp] theorem checked_withCheck (check : Bool) : (f.withCheck check).checked = f.checked := rfl

/-- What configurations offer does not depend on the rerun, and so the references do not. -/
@[simp] theorem reference_withCheck (check : Bool) (m : List LaunchSizes) (g : UInt64) :
    (f.withCheck check).reference m g = f.reference m g := rfl

/-- A rerun decides between insensitivity and a pass, where it is not stopped. -/
theorem informs_conclusion (hother : ∀ sizes e, f.other sizes = .error e →
      Outcome.ofFailure e = .runtimeFailure) (sizes : LaunchSizes) (e : Execution) :
    ((f.withCheck true).conclusion sizes e).Informs Eq
      ((f.withCheck false).conclusion sizes e) := by
  unfold conclusion finding withCheck
  by_cases hinputs : e.outputs.same e.inputs
  · simp only [hinputs, if_true]
    exact .inl rfl
  · -- Without the rerun this is a pass, and with it what the rerun makes of it.
    simp only [hinputs, if_true, if_false, Bool.false_eq_true]
    cases hrerun : f.other sizes with
    | error failure => exact .inr ⟨rfl, rfl, .inr (hother sizes failure hrerun)⟩
    | ok other =>
      simp only [Except.map]
      by_cases hsame : other.outputs.same e.outputs
      · rw [if_pos hsame]
        exact .inr ⟨rfl, rfl, .inl rfl⟩
      · rw [if_neg hsame]
        exact .inl rfl

/-- The rerun has no say in what a configuration is compared with, nor in what comes of it. -/
theorem informs_run (hother : ∀ sizes e, f.other sizes = .error e →
      Outcome.ofFailure e = .runtimeFailure) (reference : Option Arguments)
    (sizes : LaunchSizes) :
    ((f.withCheck true).run reference sizes).Informs Eq
      ((f.withCheck false).run reference sizes) := by
  have hconclusion := informs_conclusion hother sizes
  unfold run
  simp only [limits_withCheck, checked_withCheck]
  cases f.limits.problem? sizes with
  | some p => exact .inl rfl
  | none =>
    cases f.checked sizes with
    | error e => exact .inl rfl
    | ok e =>
      simp only
      cases disagreement? e.outputs e.outputs reference with
      | some o => exact .inl rfl
      | none => exact hconclusion e

theorem informs_runs (hother : ∀ sizes e, f.other sizes = .error e →
      Outcome.ofFailure e = .runtimeFailure) (m : List LaunchSizes) :
    List.Forall₂ (KernelRun.Informs Eq) ((f.withCheck true).runs m)
      ((f.withCheck false).runs m) := by
  unfold runs
  rw [List.forall₂_map_left_iff, List.forall₂_map_right_iff, List.forall₂_same]
  intro sizes hsizes
  rw [reference_withCheck, reference_withCheck]
  exact informs_run hother (f.reference m sizes.globalSize) sizes

end Forecast

/-- Nothing but a refused launch stops a rerun. -/
theorem Signature.ofFailure_of_prediction {s : Signature} {k : Behaviour} {sizes : LaunchSizes}
    {policy : ValuePolicy} {e : Failure}
    (h : s.prediction k sizes (.generated policy) = .error e) :
    Outcome.ofFailure e = .runtimeFailure := by
  unfold prediction at h
  cases hinputs : s.inputs sizes (InputSource.generated policy).generator with
  | error e' =>
    have hexplicit := (failure_of_inputs hinputs).1
    cases hexplicit
  | ok args =>
    rw [hinputs] at h
    simp only at h
    split at h
    · cases h
      rfl
    · cases h

/-- With the rerun and without it a behaviour has runs that differ only where one passes without
    it. -/
theorem Behaviour.informs_runs (k : Behaviour) (i : Instance) :
    List.Forall₂ (KernelRun.Informs Eq) (k.runs { i with checkSensitivity := true })
      (k.runs { i with checkSensitivity := false }) := by
  rcases k.runs_cases i with ⟨e, hskipped⟩ | ⟨s, source, hdriven⟩
  · rw [hskipped i.matrix true, hskipped i.matrix false]
    exact List.forall₂_same.2 fun _ _ => .inl rfl
  · rw [hdriven i.matrix true, hdriven i.matrix false]
    exact Forecast.informs_runs (fun _ _ h => Signature.ofFailure_of_prediction h) i.matrix

namespace KernelHandle

variable {σ : Type} {d : Device σ} {kh : KernelHandle} {env : Environment} {v : View σ}
variable {k : Behaviour}

/-- **The rerun is informational.** Where it can be foretold which launches the device refuses, a
    kernel has the same run in every place with the rerun and without it, up to reports of the
    device, except that what passes without it may be found insensitive with it or may be stopped.
    No other outcome appears or disappears. Where the reports can be foretold too, they are the
    same. -/
theorem run_informs (hd : Predictable d.quiet env.device kh.kernel v k) (i : Instance)
    {b c : Bench σ} (hb : v.Valid b.device) (hc : v.Valid c.device) :
    ∃ on off b' c',
      (kh.run d env { i with checkSensitivity := true }).on b = (.ok on, b') ∧
      (kh.run d env { i with checkSensitivity := false }).on c = (.ok off, c') ∧
      List.Forall₂ (KernelRun.Informs KernelRun.SameButReport) on off ∧
      (∀ o, (o = .nondeterministic ∨ o = .divergent ∨ o = .noOutput) → ∀ n : Nat,
        on[n]?.map (·.outcome) = some o ↔ off[n]?.map (·.outcome) = some o) ∧
      ∀ refusal, Predictable d env.device kh.kernel v { k with refusal } →
        List.Forall₂ (KernelRun.Informs Eq) on off := by
  obtain ⟨on, b', hon, hsame⟩ :=
    run_sameButReport_forecast hd { i with checkSensitivity := true } hb
  obtain ⟨off, c', hoff, hsame'⟩ :=
    run_sameButReport_forecast hd { i with checkSensitivity := false } hc
  -- Both forecasts are in between: reports are exchanged first on one side, then on the other.
  have hforecast : List.Forall₂ (KernelRun.Informs KernelRun.SameButReport) on
      (k.runs { i with checkSensitivity := false }) :=
    KernelRun.forall₂_comp .of_sameButReport hsame (k.informs_runs i)
  have hinforms : List.Forall₂ (KernelRun.Informs KernelRun.SameButReport) on off :=
    KernelRun.forall₂_comp .trans_sameButReport hforecast
      (List.Forall₂.flip (hsame'.imp fun _ _ h => h.symm))
  refine ⟨on, off, b', c', hon, hoff, hinforms, fun o ho n => ?_, fun refusal hd => ?_⟩
  · have hother : o ≠ .pass ∧ o ≠ .inputInsensitive ∧ o ≠ .runtimeFailure := by
      rcases ho with rfl | rfl | rfl <;> decide
    exact KernelRun.getElem?_outcome_iff hinforms hother n
  -- The forecasts are now made for the device itself, and not for the quiet one.
  · rw [runs_eq_forecast hd hb hon, runs_eq_forecast hd hc hoff]
    exact Behaviour.informs_runs { k with refusal } i

/-- A kernel that does not look at its inputs, but does at groups of one. -/
def bluntScript : Simulator.KernelScript :=
  scriptedKernel [⟨"uchar*", .global, false, none⟩]
    [plainStep .set {}, plainStep .add { localSize := some 1 }]

def bluntInstance : Instance where
  source := ""
  matrix := [⟨4, 2⟩, ⟨4, 1⟩, ⟨4, 3⟩]
  policy := .constant 3

/-- The outcomes of an instance with that kernel. -/
def bluntOutcomes (i : Instance) : Option (List Outcome) :=
  (((mk 0 "k").run Simulator.calm ⟨0, ""⟩ i).on (Simulator.soloBench bluntScript)).1.toOption.map
    (·.map (·.outcome))

theorem run_informs_blunt :
    ∃ on off b' c',
      ((mk 0 "k").run Simulator.calm ⟨0, ""⟩ { bluntInstance with checkSensitivity := true }).on
        (Simulator.soloBench bluntScript) = (.ok on, b') ∧
      ((mk 0 "k").run Simulator.calm ⟨0, ""⟩ { bluntInstance with checkSensitivity := false }).on
        (Simulator.soloBench bluntScript) = (.ok off, c') ∧
      on.map (·.outcome) = [.inputInsensitive, .divergent, .invalidSizes] ∧
      off.map (·.outcome) = [.pass, .divergent, .invalidSizes] ∧
      List.Forall₂ (KernelRun.Informs Eq) on off := by
  have hcalm : bluntScript.IsCalm := by decide
  have hpredictable : Predictable Simulator.calm (Environment.device ⟨0, ""⟩) (mk 0 "k").kernel
      _ _ := Simulator.calm_predictable (Simulator.soloSite bluntScript) hcalm 0
  have hvalid := Simulator.valid_soloBench bluntScript
  obtain ⟨on, off, b', c', hon, hoff, -, -, hinforms⟩ :=
    run_informs hpredictable.quiet bluntInstance hvalid hvalid
  have houtcomes : bluntOutcomes { bluntInstance with checkSensitivity := true } =
      some [.inputInsensitive, .divergent, .invalidSizes] := by decide +kernel
  have houtcomes' : bluntOutcomes { bluntInstance with checkSensitivity := false } =
      some [.pass, .divergent, .invalidSizes] := by decide +kernel
  unfold bluntOutcomes at houtcomes houtcomes'
  rw [hon] at houtcomes
  rw [hoff] at houtcomes'
  exact ⟨on, off, b', c', hon, hoff, Option.some.inj houtcomes, Option.some.inj houtcomes',
    hinforms _ hpredictable⟩

/-- A kernel that refuses eight work items, and depends on its inputs with four. -/
def choosyScript : Simulator.KernelScript :=
  scriptedKernel [⟨"uchar*", .global, false, none⟩]
    [{ plainStep .fail { globalSize := some 8 } with code := -5 }, plainStep .add {}]

def choosyInstance : Instance where
  source := ""
  matrix := [⟨4, 1⟩, ⟨8, 1⟩]

/-- The runs of that kernel on the simulator that counts launches in its reports. -/
def choosyRuns (check : Bool) : Option (List KernelRun) :=
  (((mk 0 "k").run Simulator.chatty ⟨0, ""⟩
    { choosyInstance with checkSensitivity := check }).on
      (Simulator.soloBench choosyScript)).1.toOption

/-- A rerun may be told from a report: it is one launch more before the one that is refused. -/
theorem reports_not_informed :
    Predictable Simulator.chatty.quiet 0 0 ((Simulator.soloSite choosyScript).view choosyScript 0)
        (choosyScript.behaviour .plain 256).quiet ∧
      ((Simulator.soloSite choosyScript).view choosyScript 0).Valid
        (Simulator.soloBench choosyScript).device ∧
      choosyRuns true = some [⟨⟨4, 1⟩, .pass, none⟩,
        ⟨⟨8, 1⟩, .runtimeFailure, some "OpenCL error: 4"⟩] ∧
      choosyRuns false = some [⟨⟨4, 1⟩, .pass, none⟩,
        ⟨⟨8, 1⟩, .runtimeFailure, some "OpenCL error: 3"⟩] ∧
      ¬ KernelRun.Informs Eq ⟨⟨8, 1⟩, .runtimeFailure, some "OpenCL error: 4"⟩
        ⟨⟨8, 1⟩, .runtimeFailure, some "OpenCL error: 3"⟩ := by
  have hcalm : choosyScript.IsCalm := by decide
  refine ⟨Simulator.predictable_quiet_chatty hcalm, Simulator.valid_soloBench choosyScript,
    by decide +kernel, by decide +kernel, ?_⟩
  unfold KernelRun.Informs
  decide

end KernelHandle

end KernelDiff
