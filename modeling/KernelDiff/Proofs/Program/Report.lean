import KernelDiff.Proofs.Matrix.Coverage
import KernelDiff.Proofs.Program.Verdict

namespace KernelDiff

/-!
# What is reported of a program

A run that comes to its end reports in one of three ways: on a program that cannot be built, on one
without kernels, or on kernels that were driven one after the other. In the last case result and
records grow kernel by kernel, and an invariant of this growth says that they tell of the same
runs.

* `Instance.run_cases` — the three ways;
* `Progress.Accounts` — what was recorded of the kernels driven so far, and the verdict on them;
* `Progress.accounts_drive`, `Progress.accounts_foldl` — one more kernel, and all of them;
* `Instance.run_records` — nothing is lost and nothing is reported twice;
* `Instance.run_verdict_iff` — what every verdict means.
-/

variable {σ : Type}

/-- What is known of the result of a computation says that there is one. -/
theorem exists_of_map_toOption {ε α β : Type} {x : Except ε α} {f : α → β} {b : β}
    (h : x.toOption.map f = some b) : ∃ a, x = .ok a ∧ f a = b := by
  cases x with
  | error e => cases h
  | ok a => exact ⟨a, rfl, Option.some.inj h⟩

/-- The names that are enumerated are the pieces between semicolons, trimmed, unless they are empty
    then. -/
theorem toList_splitNames (names : String) : (splitNames names).map String.toList =
    ((names.toList.splitOn ';').map Text.trim).filter (fun piece => !piece.isEmpty) := by
  unfold splitNames Text.trimmedPieces
  rw [List.map_map]
  have hid : String.toList ∘ String.ofList = id := by
    funext piece
    exact String.toList_ofList
  rw [hid, List.map_id]

/-- Some run of a kernel counts against the program, if its outcome is one of three. -/
theorem KernelRun.isTrouble_iff {r : KernelRun} : r.IsTrouble ↔
    r.outcome = .runtimeFailure ∨ r.outcome = .nondeterministic ∨ r.outcome = .divergent := by
  unfold IsTrouble
  cases r.outcome <;> decide

namespace Verdict

/-- Only a pass gives way to what comes after it. -/
theorem escalate_eq (v next : Verdict) : v.escalate next = if v ≠ .pass then v else next := by
  cases v <;> rfl

/-- Verdicts that are escalated one after the other come to the first that is not a pass. -/
theorem foldl_escalate (v : Verdict) (vs : List Verdict) : vs.foldl escalate v =
    if v ≠ .pass then v else (vs.find? (· ≠ .pass)).getD .pass := by
  induction vs generalizing v with
  | nil => cases v <;> rfl
  | cons next vs ih =>
    rw [List.foldl_cons, ih, escalate_eq]
    by_cases hv : v = .pass
    · subst hv
      by_cases hnext : next = .pass
      · simp [hnext]
      · simp [hnext]
    · simp [hv]

end Verdict

/-! ### Kernel by kernel -/

namespace Progress

/-- What was recorded and what was concluded tell of the same runs as the kernels' results. -/
structure Accounts (env : Environment) (i : Instance) (p : Progress σ) : Prop where
  covers : ∀ k ∈ p.kernels, Covers i.matrix k.runs
  records_eq : p.records = p.kernels.flatMap fun k => k.runs.map (Record.ofRun env.name k.name)
  verdict_eq : p.verdict =
    if p.kernels.any (fun k => hasTrouble k.runs) then .runtimeFailure else .pass

variable (d : Device σ) (env : Environment) (i : Instance) (program : Nat)

theorem kernels_drive (p : Progress σ) (name : String) : (p.drive d env i program name).kernels =
    p.kernels ++ [(driveKernel d env i program name p.device).1] := rfl

theorem records_drive (p : Progress σ) (name : String) : (p.drive d env i program name).records =
    p.records ++ (driveKernel d env i program name p.device).1.runs.map
      (Record.ofRun env.name (driveKernel d env i program name p.device).1.name) := rfl

/-- There is one result for each name. -/
theorem names_foldl (p : Progress σ) (names : List String) :
    (names.foldl (Progress.drive d env i program) p).kernels.map (·.name) =
      p.kernels.map (·.name) ++ names := by
  induction names generalizing p with
  | nil => simp
  | cons name names ih =>
    rw [List.foldl_cons, ih, kernels_drive, List.map_append, List.map_singleton, name_driveKernel,
      List.append_assoc, List.singleton_append]

variable {env i}

/-- One more kernel is told of as it was driven. -/
theorem accounts_drive {p : Progress σ} (hp : p.Accounts env i) (name : String) :
    (p.drive d env i program name).Accounts env i := by
  constructor
  · intro k hk
    rw [kernels_drive] at hk
    rcases List.mem_append.1 hk with hbefore | hlast
    · exact hp.covers k hbefore
    · rw [List.mem_singleton.1 hlast]
      exact covers_driveKernel d env i program name p.device
  · rw [records_drive, kernels_drive, hp.records_eq, List.flatMap_append, List.flatMap_singleton]
  · rw [verdict_drive, kernels_drive, hp.verdict_eq, List.any_append, List.any_cons, List.any_nil,
      Bool.or_false]
    -- Whether there was trouble before does not matter any more if there is now.
    cases hasTrouble (driveKernel d env i program name p.device).1.runs with
    | true =>
      rw [if_pos rfl, Bool.or_true, if_pos rfl]
      split <;> rfl
    | false => rw [if_neg Bool.false_ne_true, Bool.or_false]

theorem accounts_foldl {p : Progress σ} (hp : p.Accounts env i) (names : List String) :
    (names.foldl (Progress.drive d env i program) p).Accounts env i := by
  induction names generalizing p with
  | nil => exact hp
  | cons name names ih => exact ih (accounts_drive d program hp name)

variable (env i)

/-- All that was driven from the start on is told of. -/
theorem accounts_of_start (s : σ) (names : List String) :
    (names.foldl (Progress.drive d env i program) { device := s }).Accounts env i :=
  accounts_foldl d program ⟨by simp, rfl, rfl⟩ names

end Progress

namespace Instance

variable {d : Device σ} {env : Environment} {i : Instance} {seconds nanoseconds : Nat} {s : σ}
variable {r : ProgramResult}

/-- **The ends of a run.** The program could not be built, or it names no kernels, or it names some
    and they are driven. -/
theorem run_cases (h : (i.run d env seconds nanoseconds s).result = .ok r) :
    let profile := Profile.empty.recordDuration .compile seconds nanoseconds
    let records := (i.run d env seconds nanoseconds s).records
    (∃ e s', i.build d s = (.error e, s') ∧
      r = ⟨.compilationFailure, some e.text, [], profile⟩ ∧
      records = [.ofVerdict env.name .compilationFailure (some e.text)]) ∨
    ∃ program s₁ names s₂, i.build d s = (.ok program, s₁) ∧
      d.answer (.kernelNames program) s₁ = (.ok names, s₂) ∧
      ((splitNames names = [] ∧ r = ⟨.noKernels, none, [], profile⟩ ∧
          records = [.ofVerdict env.name .noKernels none]) ∨
        (splitNames names ≠ [] ∧
          let p := (splitNames names).foldl (Progress.drive d env i program) { device := s₂ }
          r = ⟨p.verdict, none, p.kernels, profile⟩ ∧ records = p.records)) := by
  intro profile records
  have hrecords : (i.run d env seconds nanoseconds s).records = records := rfl
  unfold run at h hrecords
  rcases hbuild : i.build d s with ⟨⟨e⟩ | ⟨program⟩, s₁⟩
  · simp only [hbuild] at h hrecords
    cases h
    exact .inl ⟨e, s₁, rfl, rfl, hrecords.symm⟩
  · simp only [hbuild] at h hrecords
    rcases hnames : d.answer (.kernelNames program) s₁ with ⟨⟨e⟩ | ⟨names⟩, s₂⟩
    · simp only [hnames] at h
      cases h
    · simp only [hnames] at h hrecords
      refine .inr ⟨program, s₁, names, s₂, rfl, hnames, ?_⟩
      cases hsplit : splitNames names with
      | nil =>
        simp only [hsplit] at h hrecords
        cases h
        exact .inl ⟨rfl, rfl, hrecords.symm⟩
      | cons name rest =>
        simp only [hsplit] at h hrecords
        cases h
        exact .inr ⟨by simp, rfl, hrecords.symm⟩

/-- **Nothing is lost and nothing is reported twice.** Take a run that comes to its end. Of a
    program that cannot be built, and of one that names no kernels, there is one record and no
    kernel. Otherwise there is one kernel for every name that is enumerated, in order, and each of
    them has one run for every configuration, in order, which has a message exactly where it does
    not pass. The records are these runs, kernel by kernel. -/
theorem run_records (h : (i.run d env seconds nanoseconds s).result = .ok r) :
    let records := (i.run d env seconds nanoseconds s).records
    (∃ e s', i.build d s = (.error e, s') ∧ r.verdict = .compilationFailure ∧
      r.buildLog = some e.text ∧ r.kernels = [] ∧
      records = [⟨env.name, none, none, r.verdict.name, r.buildLog⟩]) ∨
    ∃ program s₁ names s₂, i.build d s = (.ok program, s₁) ∧
      d.answer (.kernelNames program) s₁ = (.ok names, s₂) ∧ r.buildLog = none ∧
      let pieces := ((names.toList.splitOn ';').map Text.trim).filter fun piece => !piece.isEmpty
      (pieces = [] ∧ r.verdict = .noKernels ∧ r.kernels = [] ∧
          records = [⟨env.name, none, none, r.verdict.name, none⟩]) ∨
        (pieces ≠ [] ∧ r.kernels.map (fun k => k.name.toList) = pieces ∧
          (∀ k ∈ r.kernels, k.runs.map (·.sizes) = i.matrix ∧
            ∀ run ∈ k.runs, run.message.isSome ↔ run.outcome ≠ .pass) ∧
          records = r.kernels.flatMap fun k => k.runs.map fun run =>
            ⟨env.name, some k.name, some run.sizes, run.outcome.name, run.message⟩) := by
  intro records
  rcases run_cases h with ⟨e, s', hbuild, rfl, hrecords⟩ |
    ⟨program, s₁, names, s₂, hbuild, hnames, ⟨hsplit, rfl, hrecords⟩ | ⟨hsplit, hr, hrecords⟩⟩
  · exact .inl ⟨e, s', hbuild, rfl, rfl, rfl, hrecords⟩
  · refine .inr ⟨program, s₁, names, s₂, hbuild, hnames, rfl, ?_⟩
    have hpieces := toList_splitNames names
    rw [hsplit] at hpieces
    exact .inl ⟨hpieces.symm, rfl, rfl, hrecords⟩
  · have haccounts := Progress.accounts_of_start d env i program s₂ (splitNames names)
    refine .inr ⟨program, s₁, names, s₂, hbuild, hnames, by rw [hr], .inr ⟨?_, ?_, ?_, ?_⟩⟩
    · rw [← toList_splitNames]
      simpa using hsplit
    · have hkernels : r.kernels.map (·.name) = splitNames names := by
        rw [hr]
        exact (Progress.names_foldl d env i program _ _).trans (List.nil_append _)
      rw [← toList_splitNames, ← hkernels, List.map_map]
      rfl
    · intro k hk
      rw [hr] at hk
      have hcovers := haccounts.covers k hk
      exact ⟨hcovers.sizes_eq, hcovers.explained⟩
    · rw [hr]
      exact hrecords.trans haccounts.records_eq

/-- The simulator with a program that it builds from any source. -/
def loadedWith (p : Simulator.Script) : Device Simulator.State where
  answer
    | .build _ _, s => (.ok 0, { s with programs := #[p] })
    | c, s => Simulator.device.answer c s

/-- Two kernels and a list of four names. One name is that of no kernel, one kernel takes a
    parameter that no value can be made for, and the other looks at the size of its groups. -/
def mixedProgram : Simulator.Script where
  kernels := [
    { KernelHandle.scriptedKernel [⟨"uchar*", .global, false, none⟩]
        [KernelHandle.plainStep .addLocalSize {}] with name := "a" },
    { KernelHandle.scriptedKernel [⟨"image2d_t", .workItem, false, none⟩] [] with name := "b" }]
  names := some "b; a ;;c;a"

def mixedInstance : Instance where
  source := ""
  matrix := [⟨4, 2⟩, ⟨4, 1⟩, ⟨4, 3⟩]

/-- Every name has its three runs, also the one that comes twice and the one of no kernel. -/
theorem run_records_mixed :
    let report := mixedInstance.run (loadedWith mixedProgram) ⟨0, "cpu"⟩ 0 0 groupStart
    ∃ r, report.result = .ok r ∧
      r.kernels.map (fun k => (k.name, k.runs.map (·.outcome))) =
        [("b", [.unsupportedArguments, .unsupportedArguments, .unsupportedArguments]),
          ("a", [.pass, .divergent, .invalidSizes]),
          ("c", [.runtimeFailure, .runtimeFailure, .runtimeFailure]),
          ("a", [.pass, .divergent, .invalidSizes])] ∧
      (∀ k ∈ r.kernels, k.runs.map (·.sizes) = [⟨4, 2⟩, ⟨4, 1⟩, ⟨4, 3⟩] ∧
        ∀ run ∈ k.runs, run.message.isSome ↔ run.outcome ≠ .pass) ∧
      report.records = r.kernels.flatMap fun k => k.runs.map fun run =>
        ⟨"cpu", some k.name, some run.sizes, run.outcome.name, run.message⟩ := by
  have houtcomes : (mixedInstance.run (loadedWith mixedProgram) ⟨0, "cpu"⟩ 0 0
      groupStart).result.toOption.map
        (fun r => r.kernels.map (fun k => (k.name, k.runs.map (·.outcome)))) =
        some [("b", [.unsupportedArguments, .unsupportedArguments, .unsupportedArguments]),
          ("a", [.pass, .divergent, .invalidSizes]),
          ("c", [.runtimeFailure, .runtimeFailure, .runtimeFailure]),
          ("a", [.pass, .divergent, .invalidSizes])] := by decide +kernel
  obtain ⟨r, hr, hkernels⟩ := exists_of_map_toOption houtcomes
  refine ⟨r, hr, hkernels, ?_⟩
  rcases run_records hr with ⟨-, -, -, -, -, hnone, -⟩ |
    ⟨-, -, -, -, -, -, -, ⟨-, -, hnone, -⟩ | ⟨-, -, hruns, hrecords⟩⟩
  · simp [hnone] at hkernels
  · simp [hnone] at hkernels
  · exact ⟨hruns, hrecords⟩

/-- Trouble with a kernel is a run of it with one of three outcomes. -/
theorem any_hasTrouble_iff {kernels : List KernelResult} :
    kernels.any (fun k => hasTrouble k.runs) ↔ ∃ k ∈ kernels, ∃ run ∈ k.runs,
      run.outcome = .runtimeFailure ∨ run.outcome = .nondeterministic ∨
        run.outcome = .divergent := by
  rw [List.any_eq_true]
  simp only [hasTrouble_iff, KernelRun.isTrouble_iff]

/-- **What every verdict means.** A run that comes to its end tells whether the program could be
    built, whether it names kernels, and whether there is a run that failed or found a disagreement.
    Verdicts that are escalated one after the other come to the first of them that is not a
    pass. -/
theorem run_verdict_iff (h : (i.run d env seconds nanoseconds s).result = .ok r) :
    let Names (names : List String) : Prop := ∃ program s₁ text s₂,
      i.build d s = (.ok program, s₁) ∧ d.answer (.kernelNames program) s₁ = (.ok text, s₂) ∧
        splitNames text = names
    let Trouble : Prop := ∃ k ∈ r.kernels, ∃ run ∈ k.runs,
      run.outcome = .runtimeFailure ∨ run.outcome = .nondeterministic ∨ run.outcome = .divergent
    ((r.verdict = .compilationFailure ↔ ∃ e s', i.build d s = (.error e, s')) ∧
      (r.verdict = .noKernels ↔ Names []) ∧
      (r.verdict = .runtimeFailure ↔ (∃ names ≠ [], Names names) ∧ Trouble) ∧
      (r.verdict = .pass ↔ (∃ names ≠ [], Names names) ∧ ¬ Trouble)) ∧
    ∀ (v : Verdict) (vs : List Verdict), vs.foldl Verdict.escalate v =
      if v ≠ .pass then v else (vs.find? (· ≠ .pass)).getD .pass := by
  intro Names Trouble
  refine ⟨?_, Verdict.foldl_escalate⟩
  rcases run_cases h with ⟨e, s', hbuild, rfl, -⟩ |
    ⟨program, s₁, text, s₂, hbuild, htext, hend⟩
  · have hnames (names : List String) : ¬ Names names := by
      rintro ⟨program, s₁, text, s₂, hbuilt, -⟩
      rw [hbuild] at hbuilt
      cases hbuilt
    simp [hnames, hbuild]
  · have hnames (names : List String) : Names names ↔ splitNames text = names := by
      constructor
      · rintro ⟨program', s₁', text', s₂', hbuild', htext', hsplit⟩
        rw [hbuild] at hbuild'
        cases hbuild'
        rw [htext] at htext'
        cases htext'
        exact hsplit
      · intro hsplit
        exact ⟨program, s₁, text, s₂, hbuild, htext, hsplit⟩
    rcases hend with ⟨hsplit, rfl, -⟩ | ⟨hsplit, rfl, -⟩
    · simp [hnames, hbuild, hsplit]
    · have hverdict :=
        (Progress.accounts_of_start d env i program s₂ (splitNames text)).verdict_eq
      have htrouble : _ ↔ Trouble := any_hasTrouble_iff
      rw [hverdict]
      by_cases ht : Trouble
      · rw [if_pos (htrouble.2 ht)]
        simp [hnames, hbuild, hsplit, ht]
      · rw [if_neg (mt htrouble.1 ht)]
        simp [hnames, hbuild, hsplit, ht]

/-- The one configuration that is divergent makes the verdict. -/
theorem run_verdict_iff_group :
    ∃ r, (groupInstance.run Simulator.device ⟨0, ""⟩ 0 0 groupStart).result = .ok r ∧
      outcomes r = [(⟨4, 2⟩, .pass), (⟨4, 1⟩, .divergent)] ∧
      (∃ k ∈ r.kernels, ∃ run ∈ k.runs, run.outcome = .runtimeFailure ∨
        run.outcome = .nondeterministic ∨ run.outcome = .divergent) ∧
      r.verdict = .runtimeFailure ∧
      [Verdict.pass, .noKernels, .runtimeFailure].foldl Verdict.escalate .pass = .noKernels := by
  have hfacts : (groupInstance.run Simulator.device ⟨0, ""⟩ 0 0 groupStart).result.toOption.map
      (fun r => (outcomes r, r.verdict)) =
        some ([(⟨4, 2⟩, .pass), (⟨4, 1⟩, .divergent)], .runtimeFailure) := by decide +kernel
  obtain ⟨r, hr, hr'⟩ := exists_of_map_toOption hfacts
  obtain ⟨houtcomes, hverdict⟩ := Prod.mk.inj hr'
  obtain ⟨⟨-, -, htrouble, -⟩, hfold⟩ := run_verdict_iff hr
  exact ⟨r, hr, houtcomes, (htrouble.1 hverdict).2, hverdict, hfold _ _⟩

end Instance

end KernelDiff
