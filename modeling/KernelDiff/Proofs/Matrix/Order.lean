import KernelDiff.Proofs.Matrix.Forecast

namespace KernelDiff

/-!
# The order of a matrix

Which configuration is the reference of a number of work items depends on the order of the matrix,
and so does which configurations are divergent and which get as far as the rerun. Whether there is
trouble at all does not: where all configurations of a number of work items offer the same outputs,
each of them comes to what it comes to on its own, and where two do not, one of them differs from
the reference, whatever that is.

* `KernelRun.IsTrouble` — what counts against a program;
* `Forecast.Conflict` — two configurations that offer different outputs;
* `Forecast.trouble_iff` — trouble is a conflict, or a configuration that fails on its own;
* `Behaviour.trouble_perm` — so it does not depend on the order of the matrix.
-/

/-- The run counts against the program: the device failed, or runs were found to disagree. -/
def KernelRun.IsTrouble (r : KernelRun) : Prop :=
  r.outcome.isFailure ∨ r.outcome.isDivergence

/-- A failure is not a disagreement. -/
theorem Outcome.isDivergence_ofFailure (e : Failure) : (ofFailure e).isDivergence = false := by
  cases e <;> rfl

namespace Forecast

variable {f : Forecast} {m m' : List LaunchSizes}

/-- Two configurations of one number of work items offer different outputs. -/
def Conflict (f : Forecast) (m : List LaunchSizes) : Prop :=
  ∃ sizes ∈ m, ∃ sizes' ∈ m, sizes.globalSize = sizes'.globalSize ∧
    ∃ outputs outputs', f.offer sizes = some outputs ∧ f.offer sizes' = some outputs' ∧
      outputs.same outputs' = false

/-- What no comparison found fault with is not found to disagree afterwards. -/
theorem isDivergence_conclusion (sizes : LaunchSizes) (e : Execution) :
    (f.conclusion sizes e).outcome.isDivergence = false := by
  unfold conclusion finding
  by_cases hinputs : e.outputs.same e.inputs
  · rw [if_pos hinputs]
    rfl
  · rw [if_neg hinputs]
    by_cases hcheck : f.checkSensitivity
    · rw [if_pos hcheck]
      cases f.other sizes with
      | error failure => exact Outcome.isDivergence_ofFailure failure
      | ok other =>
        simp only [Except.map]
        by_cases hother : other.outputs.same e.outputs
        · rw [if_pos hother]
          rfl
        · rw [if_neg hother]
          rfl
    · rw [if_neg hcheck]
      rfl

/-- On its own no configuration is found to disagree with anything. -/
theorem isDivergence_run_none (sizes : LaunchSizes) :
    (f.run none sizes).outcome.isDivergence = false := by
  unfold run
  cases f.limits.problem? sizes with
  | some p => rfl
  | none =>
    cases f.checked sizes with
    | error e => exact Outcome.isDivergence_ofFailure e
    | ok e =>
      have hself : e.outputs.same e.outputs := Arguments.same_iff.2 rfl
      simp only [disagreement?_of_no_reference hself]
      exact isDivergence_conclusion sizes e

/-- A configuration that is found to differ from its reference is in conflict with the one that
    offered it. -/
theorem trouble_of_run {sizes : LaunchSizes} (hsizes : sizes ∈ m)
    (h : (f.run (f.reference m sizes.globalSize) sizes).IsTrouble) :
    f.Conflict m ∨ ∃ sizes ∈ m, (f.run none sizes).outcome.isFailure := by
  rcases f.run_cases (f.reference m sizes.globalSize) sizes with
    ⟨halone, -⟩ | ⟨-, r, outputs, hr, houtputs, hdiffer⟩
  · rw [halone] at h
    rcases h with hfailure | hdivergence
    · exact .inr ⟨sizes, hsizes, hfailure⟩
    · rw [isDivergence_run_none] at hdivergence
      cases hdivergence
  · obtain ⟨sizes', hsizes', hg, hoffer⟩ := exists_of_reference hr
    exact .inl ⟨sizes', hsizes', sizes, hsizes, hg, r, outputs, hoffer, houtputs, hdiffer⟩

/-- Of two configurations that offer different outputs one differs from the reference. -/
theorem exists_trouble_of_conflict (h : f.Conflict m) :
    ∃ sizes ∈ m, (f.run (f.reference m sizes.globalSize) sizes).IsTrouble := by
  obtain ⟨sizes, hsizes, sizes', hsizes', hg, outputs, outputs', hoffer, hoffer', hdiffer⟩ := h
  obtain ⟨r, hr⟩ := exists_reference hsizes hoffer
  rcases f.run_cases (f.reference m sizes.globalSize) sizes with ⟨-, hsame⟩ | ⟨hdivergent, -⟩
  · rcases f.run_cases (f.reference m sizes'.globalSize) sizes' with ⟨-, hsame'⟩ | ⟨hdivergent, -⟩
    · -- If neither differed from it, they would not differ from each other.
      have houtputs := Arguments.same_iff.1 (hsame r outputs hr hoffer)
      have houtputs' := Arguments.same_iff.1 (hsame' r outputs' (hg ▸ hr) hoffer')
      have heq : outputs.same outputs' := Arguments.same_iff.2 (houtputs.symm.trans houtputs')
      simp [hdiffer] at heq
    · exact ⟨sizes', hsizes', .inr (by rw [hdivergent]; rfl)⟩
  · exact ⟨sizes, hsizes, .inr (by rw [hdivergent]; rfl)⟩

/-- **What trouble comes of.** Some run of a matrix counts against the program exactly when two
    configurations offer different outputs or some configuration fails on its own. -/
theorem trouble_iff :
    (∃ run ∈ f.runs m, run.IsTrouble) ↔
      f.Conflict m ∨ ∃ sizes ∈ m, (f.run none sizes).outcome.isFailure := by
  unfold runs
  simp only [List.mem_map, exists_exists_and_eq_and]
  constructor
  · rintro ⟨sizes, hsizes, htrouble⟩
    exact trouble_of_run hsizes htrouble
  · rintro (hconflict | ⟨sizes, hsizes, hfailure⟩)
    · exact exists_trouble_of_conflict hconflict
    · -- What fails on its own fails here too, unless it is found divergent before.
      rcases f.run_cases (f.reference m sizes.globalSize) sizes with ⟨halone, -⟩ | ⟨hdivergent, -⟩
      · exact ⟨sizes, hsizes, .inl (by rwa [halone])⟩
      · exact ⟨sizes, hsizes, .inr (by rw [hdivergent]; rfl)⟩

theorem trouble_perm (h : m.Perm m') :
    (∃ run ∈ f.runs m, run.IsTrouble) ↔ ∃ run ∈ f.runs m', run.IsTrouble := by
  rw [trouble_iff, trouble_iff]
  unfold Conflict
  simp only [h.mem_iff]

end Forecast

/-- **Trouble does not depend on the order of a matrix.** -/
theorem Behaviour.trouble_perm {k : Behaviour} {i : Instance} {m : List LaunchSizes}
    (h : i.matrix.Perm m) :
    (∃ run ∈ k.runs i, run.IsTrouble) ↔ ∃ run ∈ k.runs { i with matrix := m }, run.IsTrouble := by
  have hi : k.runs i = k.runs { i with matrix := i.matrix } := rfl
  rcases k.runs_cases i with ⟨e, hskipped⟩ | ⟨s, source, hdriven⟩
  · rw [hi, hskipped i.matrix i.checkSensitivity, hskipped m i.checkSensitivity]
    simp only [List.mem_map, exists_exists_and_eq_and, h.mem_iff]
  · rw [hi, hdriven i.matrix i.checkSensitivity, hdriven m i.checkSensitivity]
    exact Forecast.trouble_perm h

end KernelDiff
