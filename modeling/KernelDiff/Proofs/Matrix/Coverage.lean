import KernelDiff.Proofs.Matrix.History

namespace KernelDiff

/-!
# Every configuration is told of once

A kernel comes to its runs in several ways: it is driven through the matrix, it is skipped as a
whole, or it fails as a whole. In each of them there is one run for every configuration, in the
order of the matrix, and every run that does not pass says why.

* `KernelRun.IsExplained` — a run says why it does not pass, and only then;
* `Covers` — the runs tell of a matrix, each configuration once;
* `Drive.covers_runs` — those of a drive do, by what one step adds to them;
* `driveKernel_cases`, `covers_driveKernel` — so do those of a kernel, whatever becomes of it.
-/

variable {σ : Type}

/-- A failure is never a pass. -/
theorem Outcome.ofFailure_ne_pass (e : Failure) : ofFailure e ≠ .pass := by
  cases e <;> simp [ofFailure]

namespace KernelRun

/-- The run has a message exactly where it does not pass. -/
def IsExplained (r : KernelRun) : Prop := r.message.isSome ↔ r.outcome ≠ .pass

theorem isExplained_explained (sizes : LaunchSizes) {o : Outcome} (ho : o ≠ .pass)
    (e : Failure) : (explained sizes o e).IsExplained :=
  iff_of_true rfl ho

theorem isExplained_stopped (sizes : LaunchSizes) (e : Failure) :
    (stopped sizes e).IsExplained :=
  isExplained_explained sizes (Outcome.ofFailure_ne_pass e) e

/-- Outcomes that no failure leads to have a remark, unless they are a pass. -/
theorem isExplained_ofOutcome (sizes : LaunchSizes) {o : Outcome} (hskip : o.isSkip = false)
    (hfailure : o.isFailure = false) : (ofOutcome sizes o).IsExplained := by
  show o.remark.isSome ↔ o ≠ .pass
  cases o with
  | invalidSizes | unsupportedArguments => cases hskip
  | runtimeFailure => cases hfailure
  | _ => decide

end KernelRun

/-- There is one run for each configuration, in the same order, and each is explained. -/
structure Covers (m : List LaunchSizes) (runs : List KernelRun) : Prop where
  sizes_eq : runs.map (·.sizes) = m
  explained : ∀ run ∈ runs, run.IsExplained

namespace Covers

theorem nil : Covers [] [] := ⟨rfl, by simp⟩

/-- One more configuration in front is one more run in front. -/
theorem cons {sizes : LaunchSizes} {m : List LaunchSizes} {run : KernelRun}
    {runs : List KernelRun} (h : Covers m runs) (hsizes : run.sizes = sizes)
    (hrun : run.IsExplained) : Covers (sizes :: m) (run :: runs) := by
  constructor
  · rw [List.map_cons, hsizes, h.sizes_eq]
  · intro other hother
    rcases List.mem_cons.1 hother with rfl | hmem
    · exact hrun
    · exact h.explained other hmem

/-- One failure may be the reason for all configurations. -/
theorem of_failure (m : List LaunchSizes) {o : Outcome} (ho : o ≠ .pass) (e : Failure) :
    Covers m (m.map fun sizes => .explained sizes o e) := by
  induction m with
  | nil => exact nil
  | cons sizes m ih => exact ih.cons rfl (KernelRun.isExplained_explained sizes ho e)

end Covers

/-! ### Drives -/

namespace Drive

variable (x : Drive σ)

/-- What is found out about a configuration is that nothing was written, that other inputs do not
    matter, or nothing. -/
theorem finding_eq_ok {c : Checkpoint σ} {sizes : LaunchSizes} {e : Execution} {o : Outcome}
    (h : x.finding c sizes e = .ok o) : o = .noOutput ∨ o = .inputInsensitive ∨ o = .pass := by
  unfold finding at h
  by_cases hinputs : e.outputs.same e.inputs
  · rw [if_pos hinputs] at h
    cases h
    exact .inl rfl
  rw [if_neg hinputs] at h
  by_cases hcheck : x.inst.checkSensitivity
  · rw [if_pos hcheck] at h
    cases hrerun : x.rerun c sizes with
    | error failure =>
      rw [hrerun] at h
      cases h
    | ok other =>
      rw [hrerun] at h
      cases h
      by_cases hother : other.outputs.same e.outputs
      · exact .inr (.inl (if_pos hother))
      · exact .inr (.inr (if_neg hother))
  · rw [if_neg hcheck] at h
    cases h
    exact .inr (.inr rfl)

theorem isExplained_conclusion (c : Checkpoint σ) (sizes : LaunchSizes) (e : Execution) :
    (x.conclusion c sizes e).IsExplained := by
  unfold conclusion
  cases hfinding : x.finding c sizes e with
  | error failure => exact KernelRun.isExplained_stopped sizes failure
  | ok o =>
    rcases x.finding_eq_ok hfinding with rfl | rfl | rfl <;>
      exact KernelRun.isExplained_ofOutcome sizes rfl rfl

theorem sizes_conclusion (c : Checkpoint σ) (sizes : LaunchSizes) (e : Execution) :
    (x.conclusion c sizes e).sizes = sizes := by
  unfold conclusion
  cases x.finding c sizes e <;> rfl

/-- A step makes one run, of its own configuration, and the run is explained. -/
theorem explained_step (c : Checkpoint σ) (sizes : LaunchSizes) :
    (x.step c sizes).1.sizes = sizes ∧ (x.step c sizes).1.IsExplained := by
  cases ht : x.trial c sizes with
  | rejected p =>
    rw [x.step_of_problem (x.trial_eq_rejected_iff.1 ht)]
    exact ⟨rfl, KernelRun.isExplained_explained sizes (by simp) _⟩
  | stopped e =>
    rw [(x.step_of_stopped ht).1]
    exact ⟨rfl, KernelRun.isExplained_stopped sizes e⟩
  | completed first second =>
    -- Comparisons that find a fault name it, and the rest is found out afterwards.
    rcases x.run_of_completed ht with ⟨hrun, -⟩ | ⟨hrun, -⟩ | ⟨hrun, -⟩
    · rw [hrun]
      exact ⟨rfl, KernelRun.isExplained_ofOutcome sizes rfl rfl⟩
    · rw [hrun]
      exact ⟨rfl, KernelRun.isExplained_ofOutcome sizes rfl rfl⟩
    · rw [hrun]
      exact ⟨x.sizes_conclusion c sizes first, x.isExplained_conclusion c sizes first⟩

/-- The runs of a drive tell of every configuration once. -/
theorem covers_runs (c : Checkpoint σ) (m : List LaunchSizes) : Covers m (x.runs c m) := by
  induction m generalizing c with
  | nil => exact .nil
  | cons sizes m ih =>
    obtain ⟨hsizes, hexplained⟩ := x.explained_step c sizes
    exact (ih (x.step c sizes).2).cons hsizes hexplained

end Drive

/-! ### Kernels -/

/-- A kernel is created and then has runs, or there is a failure that keeps it from being driven.
    Then it fails in every configuration, and nothing that was measured is kept. -/
theorem driveKernel_cases (d : Device σ) (env : Environment) (i : Instance) (program : Nat)
    (name : String) (s : σ) :
    (∃ k b runs b', (KernelHandle.create d program name).on ⟨s, .empty⟩ = (.ok k, b) ∧
      (k.run d env i).on b = (.ok runs, b') ∧
      driveKernel d env i program name s = (⟨name, runs, b'.profile⟩, b'.device)) ∨
    ∃ e s', driveKernel d env i program name s =
      (⟨name, i.matrix.map fun sizes => .explained sizes .runtimeFailure e, .empty⟩, s') := by
  unfold driveKernel
  simp only [Session.on_bind]
  rcases hcreate : (KernelHandle.create d program name).on ⟨s, .empty⟩ with ⟨⟨e⟩ | ⟨k⟩, b⟩
  · exact .inr ⟨e, b.device, rfl⟩
  · rcases hrun : (k.run d env i).on b with ⟨⟨e⟩ | ⟨runs⟩, b'⟩
    · right
      simp only [hrun]
      exact ⟨e, b'.device, rfl⟩
    · left
      simp only [hrun]
      exact ⟨k, b, runs, b', rfl, hrun, rfl⟩

theorem name_driveKernel (d : Device σ) (env : Environment) (i : Instance) (program : Nat)
    (name : String) (s : σ) : (driveKernel d env i program name s).1.name = name := by
  rcases driveKernel_cases d env i program name s with ⟨k, b, runs, b', -, -, h⟩ | ⟨e, s', h⟩
  · rw [h]
  · rw [h]

/-- **Every configuration is told of once**, whatever becomes of the kernel: it is driven, it is
    skipped for its parameters or for the entries of the caller, or it cannot be driven at all. -/
theorem covers_driveKernel (d : Device σ) (env : Environment) (i : Instance) (program : Nat)
    (name : String) (s : σ) :
    Covers i.matrix (driveKernel d env i program name s).1.runs := by
  rcases driveKernel_cases d env i program name s with ⟨k, b, runs, b', -, hrun, h⟩ | ⟨e, s', h⟩
  · rw [h]
    rcases KernelHandle.run_cases hrun with
      ⟨e, rfl⟩ | ⟨sg, b₁, source, limits, b₂, -, -, -, rfl⟩
    · exact .of_failure i.matrix (by simp) e
    · exact Drive.covers_runs _ _ i.matrix
  · rw [h]
    exact .of_failure i.matrix (by simp) e

end KernelDiff
