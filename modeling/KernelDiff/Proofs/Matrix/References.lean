import KernelDiff.Proofs.Matrix.Classification

namespace KernelDiff

/-!
# What configurations are compared with

The reference of a number of work items is stored in the middle of a configuration: its checked
executions have completed and agree, and only the rerun on other inputs may still fail. So a
reference need not be a configuration that passed. This file says exactly what it can be.

* `Drive.Settled` — the ways in which a configuration can end once it has become a reference;
* `Drive.IsReference.settled` — every reference ends in one of them;
* `run_references` — every divergent configuration comes after the reference that it differs from;
* `OnlyPassingReferences` — that such a reference has passed, which the rerun can prevent.
-/

variable {σ : Type}

namespace Drive

variable (x : Drive σ)

/-- A run that nothing was found against, except that the rerun on other inputs may have failed. -/
def Settled (c : Checkpoint σ) (sizes : LaunchSizes) (run : KernelRun) : Prop :=
  run.outcome = .pass ∨ run.outcome = .noOutput ∨ run.outcome = .inputInsensitive ∨
    (run.outcome = .runtimeFailure ∧ x.inst.checkSensitivity ∧
      ∃ e, x.rerun c sizes = .error e ∧ run = .stopped sizes e)

/-- A configuration that no comparison found fault with is settled. -/
theorem settled_conclusion (c : Checkpoint σ) (sizes : LaunchSizes) (e : Execution) :
    x.Settled c sizes (x.conclusion c sizes e) := by
  -- The ways to end, in the order in which they are looked for.
  unfold conclusion finding
  by_cases hinputs : e.outputs.same e.inputs
  · rw [if_pos hinputs]
    exact .inr (.inl rfl)
  · rw [if_neg hinputs]
    by_cases hcheck : x.inst.checkSensitivity
    · rw [if_pos hcheck]
      cases hrerun : x.rerun c sizes with
      | error failure =>
        refine .inr (.inr (.inr ⟨?_, hcheck, failure, hrerun, rfl⟩))
        exact x.ofFailure_of_rerun hrerun
      | ok other =>
        simp only [Except.map]
        by_cases hother : other.outputs.same e.outputs
        · rw [if_pos hother]
          exact .inr (.inr (.inl rfl))
        · rw [if_neg hother]
          exact .inl rfl
    · rw [if_neg hcheck]
      exact .inl rfl

/-- The first configuration whose executions agree has nothing to be compared with. -/
theorem IsReference.settled {x : Drive σ} {c : Checkpoint σ} (hc : c.references = [])
    {m : List LaunchSizes} {g : UInt64} {j : Nat} {r : Arguments} (h : x.IsReference c m g j r)
    (hj : j < m.length) :
    ∃ run, (x.runs c m)[j]? = some run ∧ run.sizes.globalSize = g ∧
      x.Settled (x.after c (m.take j)) m[j] run := by
  have hnone := (x.find?_after_take_eq_none_iff hc (Nat.le_of_lt hj) g).2 h.first
  have hagreed := h.agreed
  have hsizes : m[j].globalSize = g := h.size
  refine ⟨_, x.getElem?_runs c hj, ?_, ?_⟩
  · rw [(x.classified_step _ m[j]).sizes_eq, hsizes]
  · obtain ⟨first, second, ht, hsame, -⟩ := Trial.agreed?_eq_some_iff.1 hagreed
    have hstep := x.step_of_completed ht
    -- There was nothing to compare it with but itself.
    rw [hsizes, hnone, disagreement?_of_no_reference hsame] at hstep
    rw [hstep.1]
    exact x.settled_conclusion _ _ first

end Drive

namespace KernelHandle

variable {d : Device σ} {k : KernelHandle} {env : Environment} {i : Instance}

/-- **What configurations are compared with.** Whatever the device answers, either no arguments
    can be made and all configurations are skipped, or the matrix is run. Then every divergent
    run comes after the reference of its number of work items, which is settled and has other
    outputs. And whatever is at hand to compare a configuration with comes from an earlier one
    that is settled: its checked executions completed and agree, and at most its rerun on other
    inputs has failed. -/
theorem run_references {b b' : Bench σ} {runs : List KernelRun}
    (h : (k.run d env i).on b = (.ok runs, b')) :
    (∀ run ∈ runs, run.outcome = .unsupportedArguments) ∨
    ∃ s b₁ source limits b₂, (k.signature d).on b = (.ok s, b₁) ∧ source? s i = .ok source ∧
      (k.limits d env).on b₁ = (.ok limits, b₂) ∧
      let x : Drive σ := ⟨d, k, s, limits, i, source⟩
      let c : Checkpoint σ := .start b₂
      let m := i.matrix
      (∀ n run, runs[n]? = some run → run.outcome = .divergent →
        ∃ (hn : n < m.length) (j : Nat) (hj : j < n) (reference : KernelRun),
          runs[j]? = some reference ∧ reference.sizes.globalSize = run.sizes.globalSize ∧
          x.Settled (x.after c (m.take j)) m[j] reference ∧
          ∃ r first second, x.IsReference c m run.sizes.globalSize j r ∧
            x.trialAt c m n hn = .completed first second ∧ r.same first.outputs = false) ∧
      ∀ n (hn : n ≤ m.length) g r, (x.after c (m.take n)).references.find? g = some r →
        ∃ (j : Nat) (hj : j < n) (reference : KernelRun), x.IsReference c m g j r ∧
          runs[j]? = some reference ∧ reference.sizes.globalSize = g ∧
          x.Settled (x.after c (m.take j)) m[j] reference := by
  rcases run_cases h with ⟨e, rfl⟩ | ⟨s, b₁, source, limits, b₂, hs, hsource, hlimits, rfl⟩
  · left
    intro run hrun
    obtain ⟨sizes, -, rfl⟩ := List.mem_map.1 hrun
    rfl
  right
  refine ⟨s, b₁, source, limits, b₂, hs, hsource, hlimits, ?_, ?_⟩
  · intro n run hrun hdivergent
    have hn : n < i.matrix.length := by
      obtain ⟨hlt, -⟩ := List.getElem?_eq_some_iff.1 hrun
      rwa [Drive.length_runs] at hlt
    rw [Drive.getElem?_runs _ _ hn, Option.some.injEq] at hrun
    subst hrun
    have hlaw := Drive.classified_step ⟨d, k, s, limits, i, source⟩
      (Drive.after ⟨d, k, s, limits, i, source⟩ (.start b₂) (i.matrix.take n)) i.matrix[n]
    obtain ⟨first, second, ht, -, r, hr, hdiffer⟩ := hlaw.divergent.1 hdivergent
    obtain ⟨j, hj, href⟩ := (Drive.find?_after_take _ rfl (Nat.le_of_lt hn) _ r).1 hr
    obtain ⟨reference, hreference, hsize, hsettled⟩ := href.settled rfl href.lt
    rw [hlaw.sizes_eq]
    exact ⟨hn, j, hj, reference, hreference, hsize, hsettled, r, first, second, href, ht, hdiffer⟩
  · intro n hn g r hr
    obtain ⟨j, hj, href⟩ := (Drive.find?_after_take _ rfl hn g r).1 hr
    obtain ⟨reference, hreference, hsize, hsettled⟩ := href.settled rfl href.lt
    exact ⟨j, hj, reference, href, hreference, hsize, hsettled⟩

/-- Every divergent run comes after a run of as many work items that ended without a failure. -/
def OnlyPassingReferences (runs : List KernelRun) : Prop :=
  ∀ (n : Nat) (run : KernelRun), runs[n]? = some run → run.outcome = .divergent →
    ∃ (j : Nat) (reference : KernelRun), j < n ∧ runs[j]? = some reference ∧
      reference.sizes.globalSize = run.sizes.globalSize ∧
      (reference.outcome = .pass ∨ reference.outcome = .noOutput ∨
        reference.outcome = .inputInsensitive)

/-! ### A reference that fails afterwards -/

/-- A kernel whose effect depends on the group size, on a device that refuses the third launch. -/
def brittleBench : Bench Simulator.State :=
  scriptedBench [⟨"uchar*", .global, false, none⟩] [plainStep .addLocalSize {}]
    [⟨.launch, 2, -5⟩]

/-- The third launch is the rerun of the first configuration. -/
def brittleInstance : Instance where
  source := ""
  matrix := [⟨4, 2⟩, ⟨4, 4⟩]

def brittleRuns : List KernelRun :=
  [.stopped ⟨4, 2⟩ (.device (brittleBench.device.failure "clEnqueueNDRangeKernel" "(\"k\")" (-5))),
    .ofOutcome ⟨4, 4⟩ .divergent]

set_option maxRecDepth 10000 in
theorem run_brittle :
    ∃ b', ((mk 0 "k").run Simulator.device ⟨0, ""⟩ brittleInstance).on brittleBench =
      (.ok brittleRuns, b') := by
  refine ⟨_, Session.on_eq_of_toOption ?_⟩
  decide +kernel

/-- The first configuration fails after it has become the reference, and the second differs. -/
theorem run_references_brittle :
    ∃ b', ((mk 0 "k").run Simulator.device ⟨0, ""⟩ brittleInstance).on brittleBench =
        (.ok brittleRuns, b') ∧
      ∃ (x : Drive Simulator.State) (b : Bench Simulator.State) (r : Arguments),
        x.IsReference (.start b) brittleInstance.matrix 4 0 r ∧
        x.Settled (.start b) ⟨4, 2⟩ brittleRuns[0] := by
  obtain ⟨b', hrun⟩ := run_brittle
  refine ⟨b', hrun, ?_⟩
  rcases run_references hrun with hskipped | ⟨s, b₁, source, limits, b₂, -, -, -, hafter, -⟩
  · have := hskipped (.ofOutcome ⟨4, 4⟩ .divergent) (by simp [brittleRuns])
    cases this
  obtain ⟨hn, j, hj, reference, hreference, -, hsettled, r, -, -, href, -⟩ := hafter 1 _ rfl rfl
  obtain rfl : j = 0 := by omega
  obtain ⟨hlt, rfl⟩ := List.getElem?_eq_some_iff.1 hreference
  exact ⟨_, b₂, r, href, hsettled⟩

theorem not_onlyPassingReferences_brittle :
    ∃ runs b', ((mk 0 "k").run Simulator.device ⟨0, ""⟩ brittleInstance).on brittleBench =
      (.ok runs, b') ∧ ¬ OnlyPassingReferences runs := by
  obtain ⟨b', hrun⟩ := run_brittle
  refine ⟨brittleRuns, b', hrun, fun h => ?_⟩
  obtain ⟨j, reference, hj, hreference, -, houtcome⟩ := h 1 _ rfl rfl
  obtain rfl : j = 0 := by omega
  cases hreference
  rcases houtcome with hpass | hnoOutput | hinsensitive
  · cases hpass
  · cases hnoOutput
  · cases hinsensitive

end KernelHandle

end KernelDiff
