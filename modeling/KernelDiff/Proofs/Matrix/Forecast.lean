import KernelDiff.Proofs.Execution.Outputs
import KernelDiff.Proofs.Execution.Prediction
import KernelDiff.Proofs.Matrix.Agreement

namespace KernelDiff

/-!
# The runs of a matrix on a predictable device

On a predictable device all runs of a kernel can be told in advance. A `Forecast` knows what
executions come to, and makes the run of every configuration of it. The run of a configuration
depends on its sizes and on one thing more: the reference of its number of work items, which can be
looked up in the whole matrix, since a configuration agrees with itself.

* `Forecast.run`, `Forecast.reference`, `Forecast.runs` — what is foretold;
* `Forecast.run_reference_take` — later configurations do not matter;
* `Drive.step_eq_run`, `Drive.find?_after_eq_reference` — every step of a drive is foretold, and
  so are the references that it leaves;
* `KernelHandle.run_eq_forecast` — so are all runs of a kernel.
-/

/-- What there is to know of a kernel on a predictable device before it is driven through a
    matrix. -/
structure Forecast where
  limits : GroupLimits
  checkSensitivity : Bool
  /-- What every checked execution comes to. -/
  checked : LaunchSizes → Except Failure Execution
  /-- What an execution on other inputs comes to. -/
  other : LaunchSizes → Except Failure Execution

namespace Forecast

variable (f : Forecast)

/-- What is found out about an execution that agrees with all others. -/
def finding (sizes : LaunchSizes) (e : Execution) : Except Failure Outcome :=
  if e.outputs.same e.inputs then .ok .noOutput
  else if f.checkSensitivity then
    (f.other sizes).map fun other =>
      if other.outputs.same e.outputs then .inputInsensitive else .pass
  else .ok .pass

/-- The run of a configuration that no comparison found fault with. -/
def conclusion (sizes : LaunchSizes) (e : Execution) : KernelRun :=
  match f.finding sizes e with
  | .error failure => .stopped sizes failure
  | .ok o => .ofOutcome sizes o

/-- The run of a configuration that is compared with a reference. -/
def run (reference : Option Arguments) (sizes : LaunchSizes) : KernelRun :=
  match f.limits.problem? sizes with
  | some p => .explained sizes .invalidSizes (.invalidSizes p.message)
  | none =>
    match f.checked sizes with
    | .error e => .stopped sizes e
    | .ok e =>
      match disagreement? e.outputs e.outputs reference with
      | some o => .ofOutcome sizes o
      | none => f.conclusion sizes e

/-- The outputs that a configuration can give as a reference. -/
def offer (sizes : LaunchSizes) : Option Arguments :=
  match f.limits.problem? sizes with
  | some _ => none
  | none => (f.checked sizes).toOption.map (·.outputs)

/-- The reference of a number of work items: the first that is offered. -/
def reference (m : List LaunchSizes) (globalSize : UInt64) : Option Arguments :=
  m.findSome? fun sizes => if sizes.globalSize = globalSize then f.offer sizes else none

/-- The runs of a matrix. -/
def runs (m : List LaunchSizes) : List KernelRun :=
  m.map fun sizes => f.run (f.reference m sizes.globalSize) sizes

/-- The forecast where the rerun is asked for, or where it is not. -/
def withCheck (f : Forecast) (check : Bool) : Forecast :=
  { f with checkSensitivity := check }

variable {f}

/-- Only a comparison with the reference makes a difference to what a configuration comes to on its
    own, and the only difference that it can make is divergence. -/
theorem run_cases (reference : Option Arguments) (sizes : LaunchSizes) :
    (f.run reference sizes = f.run none sizes ∧
      ∀ r outputs, reference = some r → f.offer sizes = some outputs → r.same outputs) ∨
    (f.run reference sizes = .ofOutcome sizes .divergent ∧
      ∃ r outputs, reference = some r ∧ f.offer sizes = some outputs ∧
        r.same outputs = false) := by
  unfold run offer
  cases f.limits.problem? sizes with
  | some p => simp
  | none =>
    cases f.checked sizes with
    | error e => simp [Except.toOption]
    | ok e =>
      -- It agrees with itself, so there is only the reference to disagree with.
      have hself : e.outputs.same e.outputs := Arguments.same_iff.2 rfl
      rcases disagreement?_cases e.outputs e.outputs reference with
        ⟨-, hdiffer⟩ | ⟨hd, -, r, hr, hdiffer⟩ | ⟨hd, -, hsame⟩
      · simp [hself] at hdiffer
      · refine .inr ⟨by simp only [hd], r, e.outputs, hr, rfl, hdiffer⟩
      · refine .inl ⟨by simp only [hd, disagreement?_of_no_reference hself], ?_⟩
        intro r outputs hr houtputs
        cases houtputs
        exact hsame r hr

/-! ### References -/

@[simp] theorem reference_nil (g : UInt64) : f.reference [] g = none := rfl

theorem reference_cons (sizes : LaunchSizes) (m : List LaunchSizes) (g : UInt64) :
    f.reference (sizes :: m) g =
      (if sizes.globalSize = g then f.offer sizes else none).or (f.reference m g) := by
  unfold reference
  rw [List.findSome?_cons]
  cases (if sizes.globalSize = g then f.offer sizes else none) <;> rfl

theorem reference_append (m m' : List LaunchSizes) (g : UInt64) :
    f.reference (m ++ m') g = (f.reference m g).or (f.reference m' g) :=
  List.findSome?_append

/-- The reference is offered by a configuration of its number of work items. -/
theorem exists_of_reference {m : List LaunchSizes} {g : UInt64} {r : Arguments}
    (h : f.reference m g = some r) :
    ∃ sizes ∈ m, sizes.globalSize = g ∧ f.offer sizes = some r := by
  obtain ⟨sizes, hsizes, hoffer⟩ := List.exists_of_findSome?_eq_some h
  by_cases hg : sizes.globalSize = g
  · rw [if_pos hg] at hoffer
    exact ⟨sizes, hsizes, hg, hoffer⟩
  · rw [if_neg hg] at hoffer
    cases hoffer

/-- Where something is offered there is a reference. -/
theorem exists_reference {m : List LaunchSizes} {sizes : LaunchSizes} {outputs : Arguments}
    (hsizes : sizes ∈ m) (hoffer : f.offer sizes = some outputs) :
    ∃ r, f.reference m sizes.globalSize = some r := by
  rw [← Option.isSome_iff_exists, reference, List.findSome?_isSome_iff]
  exact ⟨sizes, hsizes, by rw [if_pos rfl, hoffer, Option.isSome_some]⟩

/-- Without an offer the reference does not matter, and an offer agrees with itself. -/
theorem run_own_offer (sizes : LaunchSizes) :
    f.run (f.offer sizes) sizes = f.run none sizes := by
  rcases f.run_cases (f.offer sizes) sizes with ⟨h, -⟩ | ⟨-, r, outputs, hr, houtputs, hdiffer⟩
  · exact h
  · obtain rfl : r = outputs := Option.some.inj (hr.symm.trans houtputs)
    have hself : r.same r := Arguments.same_iff.2 rfl
    simp [hself] at hdiffer

/-- **Later configurations do not matter.** A configuration is compared with the reference that
    there is before it, which may as well be looked up in the whole matrix. -/
theorem run_reference_take {m : List LaunchSizes} {n : Nat} (hn : n < m.length) :
    f.run (f.reference (m.take n) m[n].globalSize) m[n] =
      f.run (f.reference m m[n].globalSize) m[n] := by
  have hsplit : ∀ g, f.reference m g = (f.reference (m.take n) g).or
      ((if m[n].globalSize = g then f.offer m[n] else none).or
        (f.reference (m.drop (n + 1)) g)) := by
    intro g
    rw [← reference_cons, ← List.drop_eq_getElem_cons hn, ← reference_append,
      List.take_append_drop]
  rw [hsplit, if_pos rfl]
  cases f.reference (m.take n) m[n].globalSize with
  | some r => rfl
  | none =>
    rw [Option.none_or]
    cases hoffer : f.offer m[n] with
    | some outputs => rw [Option.some_or, ← hoffer, run_own_offer]
    | none =>
      -- A configuration that offers nothing is compared with nothing.
      rcases f.run_cases (f.reference (m.drop (n + 1)) m[n].globalSize) m[n] with
        ⟨h, -⟩ | ⟨-, r, outputs, -, houtputs, -⟩
      · rw [Option.none_or, h]
      · rw [hoffer] at houtputs
        cases houtputs

@[simp] theorem length_runs (m : List LaunchSizes) : (f.runs m).length = m.length :=
  List.length_map _

theorem getElem_runs {m : List LaunchSizes} {n : Nat} (h : n < (f.runs m).length)
    (hn : n < m.length) : (f.runs m)[n] = f.run (f.reference m m[n].globalSize) m[n] :=
  List.getElem_map _

end Forecast

/-! ### Drives -/

namespace Behaviour

variable (k : Behaviour)

/-- What there is to know of a kernel with that behaviour before it is driven through a matrix. -/
def forecast (s : Signature) (i : Instance) (source : InputSource) : Forecast where
  limits := k.limits
  checkSensitivity := i.checkSensitivity
  checked sizes := s.prediction k sizes source
  other sizes := s.prediction k sizes (.generated i.policy.alternate)

/-- The runs of a kernel with that behaviour in every configuration of an instance. -/
def runs (i : Instance) : List KernelRun :=
  match k.signature with
  | .error e => KernelHandle.skipAll i e
  | .ok s =>
    match KernelHandle.source? s i with
    | .error e => KernelHandle.skipAll i e
    | .ok source => (k.forecast s i source).runs i.matrix

/-- Whether all configurations are skipped for one reason does not depend on the matrix, nor on
    whether the rerun is asked for, and if they are not, the forecast depends on the latter only. -/
theorem runs_cases (i : Instance) :
    (∃ e, ∀ m check, k.runs { i with matrix := m, checkSensitivity := check } =
        m.map fun sizes => .explained sizes .unsupportedArguments e) ∨
      ∃ s source, ∀ m check, k.runs { i with matrix := m, checkSensitivity := check } =
        ((k.forecast s i source).withCheck check).runs m := by
  unfold runs
  cases k.signature with
  | error e => exact .inl ⟨e, fun _ _ => rfl⟩
  | ok s =>
    have hsource (m : List LaunchSizes) (check : Bool) :
        KernelHandle.source? s { i with matrix := m, checkSensitivity := check } =
          KernelHandle.source? s i := rfl
    simp only [hsource]
    cases KernelHandle.source? s i with
    | error e => exact .inl ⟨e, fun _ _ => rfl⟩
    | ok source => exact .inr ⟨s, source, fun _ _ => rfl⟩

end Behaviour

variable {σ : Type}

namespace Execution

@[simp] theorem outputs_detached (e : Execution) : e.detached.outputs = e.outputs := rfl

theorem outputs_congr {e e' : Execution} (h : e.detached = e'.detached) :
    e.outputs = e'.outputs := by
  rw [← outputs_detached e, h, outputs_detached]

end Execution

/-- What a result is up to a function, it is up to that function only. -/
theorem exists_of_map_eq_ok {α β ε : Type} {f : α → β} {x : Except ε α} {r : β}
    (h : x.map f = .ok r) : ∃ a, x = .ok a ∧ f a = r := by
  cases x with
  | error e => cases h
  | ok a =>
    cases h
    exact ⟨a, rfl, rfl⟩

theorem eq_error_of_map {α β ε : Type} {f : α → β} {x : Except ε α} {e : ε}
    (h : x.map f = .error e) : x = .error e := by
  cases x with
  | error e' =>
    cases h
    rfl
  | ok a => cases h

namespace Drive

variable {x : Drive σ} {device : Nat} {v : View σ} {k : Behaviour}
variable {c : Checkpoint σ} {sizes : LaunchSizes}

/-- The forecast of a drive of a kernel with that behaviour. -/
def forecast (x : Drive σ) (k : Behaviour) : Forecast :=
  k.forecast x.signature x.inst x.source

section Predictable

variable (hd : Predictable x.device device x.kernel.kernel v k)
variable (hs : k.signature = .ok x.signature)

include hd hs

/-- Every execution comes to what is foretold. -/
theorem execution_eq_prediction (source : InputSource) {b : Bench σ} (hb : v.Valid b.device) :
    ((x.execution sizes source).on b).1.map Execution.detached =
      x.signature.prediction k sizes source :=
  Signature.execute_eq_prediction hd hs hb

theorem trial_of_prediction_error (hc : v.Valid c.bench.device)
    (hp : x.limits.problem? sizes = none) {e : Failure}
    (h : (x.forecast k).checked sizes = .error e) : x.trial c sizes = .stopped e := by
  have hfirst := eq_error_of_map
    ((execution_eq_prediction hd hs x.source hc).trans h)
  rw [trial, hp]
  rcases hon : (x.execution sizes x.source).on c.bench with ⟨r, b⟩
  rw [hon] at hfirst
  cases hfirst
  rfl

/-- The two executions come to the same, and only their buffers are in different places. -/
theorem trial_of_prediction_ok (hc : v.Valid c.bench.device)
    (hp : x.limits.problem? sizes = none) {e : Execution}
    (h : (x.forecast k).checked sizes = .ok e) :
    ∃ first second, x.trial c sizes = .completed first second ∧ first.detached = e ∧
      second.detached = e := by
  obtain ⟨first, hfirst, hfirst'⟩ := exists_of_map_eq_ok
    ((execution_eq_prediction hd hs x.source hc).trans h)
  rw [trial, hp]
  rcases hon : (x.execution sizes x.source).on c.bench with ⟨r, b⟩
  rw [hon] at hfirst
  cases hfirst
  have hb : v.Valid b.device := (Signature.keeps_execute hd.valid _ _ _ _).keeps hon hc
  obtain ⟨second, hsecond, hsecond'⟩ := exists_of_map_eq_ok
    ((execution_eq_prediction hd hs x.source hb).trans h)
  rcases hon' : (x.execution sizes x.source).on b with ⟨r, b'⟩
  rw [hon'] at hsecond
  cases hsecond
  refine ⟨first, second, ?_, hfirst', hsecond'⟩
  simp only [hon']

/-- The rerun comes to what is foretold, whatever was executed before it. -/
theorem rerun_eq_prediction (hc : v.Valid c.bench.device) :
    (x.rerun c sizes).map Execution.detached = (x.forecast k).other sizes :=
  execution_eq_prediction hd hs _ ((KernelHandle.keeps_executeTwice hd.valid _ _ _ _).keeps rfl hc)

theorem conclusion_eq (hc : v.Valid c.bench.device) (e : Execution) :
    x.conclusion c sizes e = (x.forecast k).conclusion sizes e.detached := by
  have hinputs : e.outputs.same e.inputs = e.outputs.same e.detached.inputs :=
    Arguments.same_congr rfl e.observations_inputs_detached.symm
  have hfinding : x.finding c sizes e = (x.forecast k).finding sizes e.detached := by
    unfold finding Forecast.finding
    rw [← rerun_eq_prediction hd hs hc, hinputs]
    cases x.rerun c sizes <;> rfl
  unfold conclusion Forecast.conclusion
  cases hfound : (x.forecast k).finding sizes e.detached <;> simp only [hfinding, hfound]

variable (hlimits : x.limits = k.limits)

include hlimits

omit hd hs in
/-- The sizes that are foretold to be rejected are those that are. -/
theorem problem?_forecast (sizes : LaunchSizes) :
    (x.forecast k).limits.problem? sizes = x.limits.problem? sizes := by
  rw [hlimits]
  rfl

/-- **Every step is foretold.** The run of a configuration depends on its sizes and on the reference
    of its number of work items only. -/
theorem step_eq_run (hc : v.Valid c.bench.device) :
    (x.step c sizes).1 =
      (x.forecast k).run (c.references.find? sizes.globalSize) sizes := by
  unfold Forecast.run
  cases hp : x.limits.problem? sizes with
  | some p =>
    rw [x.step_of_problem hp, problem?_forecast hlimits, hp]
  | none =>
    rw [problem?_forecast hlimits, hp]
    cases hchecked : (x.forecast k).checked sizes with
    | error e => exact (x.step_of_stopped (trial_of_prediction_error hd hs hc hp hchecked)).1
    | ok e =>
      obtain ⟨first, second, ht, rfl, hsecond⟩ := trial_of_prediction_ok hd hs hc hp hchecked
      have houtputs : second.outputs = first.outputs := Execution.outputs_congr hsecond
      -- It does not matter which of the two executions is compared with the reference.
      have hstep := x.step_of_completed ht
      rw [houtputs] at hstep
      simp only [Execution.outputs_detached]
      cases hdisagreement : disagreement? first.outputs first.outputs
          (c.references.find? sizes.globalSize) with
      | some o =>
        rw [hdisagreement] at hstep
        exact hstep.1
      | none =>
        rw [hdisagreement] at hstep
        exact hstep.1.trans (conclusion_eq hd hs hc first)

/-- What a configuration agrees on is what it is foretold to offer. -/
theorem agreed?_eq_offer (hc : v.Valid c.bench.device) :
    (x.trial c sizes).agreed? = (x.forecast k).offer sizes := by
  unfold Forecast.offer
  rw [problem?_forecast hlimits]
  cases hp : x.limits.problem? sizes with
  | some p =>
    rw [x.trial_eq_rejected_iff.2 hp]
    rfl
  | none =>
    cases hchecked : (x.forecast k).checked sizes with
    | error e =>
      rw [trial_of_prediction_error hd hs hc hp hchecked]
      rfl
    | ok e =>
      obtain ⟨first, second, ht, rfl, hsecond⟩ := trial_of_prediction_ok hd hs hc hp hchecked
      have houtputs : second.outputs = first.outputs := Execution.outputs_congr hsecond
      have hsame : first.outputs.same first.outputs := Arguments.same_iff.2 rfl
      rw [ht, Trial.agreed?, houtputs, if_pos hsame]
      rfl

/-- The references that a drive leaves are foretold. -/
theorem find?_after_eq_reference (hc : v.Valid c.bench.device) (m : List LaunchSizes)
    (g : UInt64) :
    (x.after c m).references.find? g =
      (c.references.find? g).or ((x.forecast k).reference m g) := by
  induction m generalizing c with
  | nil => rw [after_nil, Forecast.reference_nil, Option.or_none]
  | cons sizes m ih =>
    -- A step adds its offer behind the references that there are, where the reference looks for it.
    rw [after_cons, ih (x.keeps_step hd.valid hc sizes), find?_step,
      agreed?_eq_offer hd hs hlimits hc, Forecast.reference_cons, Option.or_assoc]

/-- **All runs of a matrix are foretold.** -/
theorem runs_eq_forecast {b : Bench σ} (hb : v.Valid b.device) (m : List LaunchSizes) :
    x.runs (.start b) m = (x.forecast k).runs m := by
  refine List.ext_getElem (by rw [x.length_runs, Forecast.length_runs]) fun n hn hn' => ?_
  have hlt : n < m.length := by rwa [x.length_runs] at hn
  have hvalid : v.Valid (x.after (.start b) (m.take n)).bench.device := x.keeps_after hd.valid hb _
  have hrun := x.getElem?_runs (.start b) hlt
  rw [List.getElem?_eq_getElem hn, Option.some.injEq] at hrun
  have hreference : (x.after (.start b) (m.take n)).references.find? m[n].globalSize =
      (x.forecast k).reference (m.take n) m[n].globalSize := by
    rw [find?_after_eq_reference hd hs hlimits hb]
    rfl
  rw [hrun, step_eq_run hd hs hlimits hvalid, hreference, Forecast.run_reference_take hlt,
    Forecast.getElem_runs hn' hlt]

end Predictable

end Drive

/-! ### The whole run of a kernel -/

namespace KernelHandle

variable {d : Device σ} {kh : KernelHandle} {env : Environment} {v : View σ} {k : Behaviour}

/-- The limits of the kernel are always the same. -/
theorem on_limits (hd : Predictable d env.device kh.kernel v k) {b : Bench σ}
    (hb : v.Valid b.device) :
    ∃ b', (kh.limits d env).on b = (.ok k.limits, b') ∧ v.Valid b'.device := by
  obtain ⟨b₁, hkernel, hb₁⟩ := hd.on_call hb (hd.tells_kernelGroupSize hb)
  obtain ⟨b₂, hcompiled, hb₂⟩ := hd.on_call hb₁ (hd.tells_compiledGroupSize hb₁)
  obtain ⟨b₃, hdevice, hb₃⟩ := hd.on_call hb₂ (hd.tells_deviceGroupSize hb₂)
  refine ⟨b₃, ?_, hb₃⟩
  unfold limits
  simp only [Session.on_bind, hkernel, hcompiled, hdevice]
  rfl

/-- **All runs of a kernel are foretold.** Whatever was done before, a kernel on a predictable
    device has the runs of its behaviour. -/
theorem run_eq_forecast (hd : Predictable d env.device kh.kernel v k) (i : Instance) {b : Bench σ}
    (hb : v.Valid b.device) :
    ∃ b', (kh.run d env i).on b = (.ok (k.runs i), b') ∧ v.Valid b'.device := by
  obtain ⟨b₁, hsignature, hb₁⟩ := hd.on_query hb
  obtain ⟨b₂, hlimits, hb₂⟩ := on_limits hd hb₁
  change (kh.signature d).on b = _ at hsignature
  unfold Behaviour.runs
  cases hs : k.signature with
  | error e =>
    rw [hs] at hsignature
    obtain ⟨index, typeName, rfl⟩ := Behaviour.failure_of_signature hs
    exact ⟨b₁, run_of_unsupported hsignature, hb₁⟩
  | ok s =>
    rw [hs] at hsignature
    simp only
    cases hsource : source? s i with
    | error e => exact ⟨b₁, run_of_source_error hsignature hsource, hb₁⟩
    | ok source =>
      let x : Drive σ := ⟨d, kh, s, k.limits, i, source⟩
      have hafter := x.keeps_after hd.valid (c := .start b₂) hb₂ i.matrix
      refine ⟨_, ?_, hafter⟩
      rw [run_of_limits hsignature hsource hlimits, Drive.runs_eq_forecast (x := x) hd hs rfl hb₂]
      rfl

end KernelHandle

end KernelDiff
