import KernelDiff.Proofs.Matrix.Order
import KernelDiff.Proofs.Simulator.Predictable

namespace KernelDiff

/-!
# The verdict does not depend on the order of the matrix

A program is driven kernel by kernel, and its verdict is known from whether there is trouble with
any of them. On a device that lets nothing fail but launches, and whose launches depend on what the
kernel is given and on the sizes only, this does not depend on the order of the matrix. It does not
matter what the device reports of launches that it refuses: a `quiet` device says nothing of them,
and the verdict is the same.

* `Instance.alike_run` — devices in step lead to the same verdict;
* `Instance.verdict`, `Serves.verdict_eq` — the verdict as a function, and that it is the verdict;
* `Instance.run_verdict_perm` — it is the same for every order of the matrix.
-/

variable {σ τ : Type}

/-! ### Trouble -/

/-- Some run counts against the program. -/
def hasTrouble (runs : List KernelRun) : Bool :=
  runs.any (·.outcome.isFailure) || runs.any (·.outcome.isDivergence)

theorem hasTrouble_iff {runs : List KernelRun} : hasTrouble runs ↔ ∃ run ∈ runs, run.IsTrouble := by
  unfold hasTrouble KernelRun.IsTrouble
  rw [Bool.or_eq_true, List.any_eq_true, List.any_eq_true, ← exists_or]
  simp only [and_or_left]

theorem hasTrouble_eq_of_alike {D : DeviceError → DeviceError → Prop} {runs runs' : List KernelRun}
    (h : List.Forall₂ (KernelRun.Alike D) runs runs') : hasTrouble runs = hasTrouble runs' := by
  have hany (f : Outcome → Bool) : runs.any (fun r => f r.outcome) =
      runs'.any (fun r => f r.outcome) := by
    induction h with
    | nil => rfl
    | cons hhead _ ih => rw [List.any_cons, List.any_cons, hhead.outcome_eq, ih]
  unfold hasTrouble
  rw [hany Outcome.isFailure, hany Outcome.isDivergence]

theorem Progress.verdict_drive (d : Device σ) (env : Environment) (i : Instance) (program : Nat)
    (p : Progress σ) (name : String) :
    (p.drive d env i program name).verdict =
      if hasTrouble (driveKernel d env i program name p.device).1.runs then
        p.verdict.escalate .runtimeFailure
      else p.verdict := by
  unfold Progress.drive
  generalize driveKernel d env i program name p.device = driven
  rfl

/-! ### Programs on devices in step -/

section InStep

variable {R : σ → τ → Prop} {D : DeviceError → DeviceError → Prop}
variable {d : Device σ} {d' : Device τ} (hd : d.InStep R D d')

include hd

theorem alike_driveKernel (env : Environment) (i : Instance) (program : Nat) (name : String)
    {s : σ} {t : τ} (h : R s t) :
    List.Forall₂ (KernelRun.Alike D) (driveKernel d env i program name s).1.runs
        (driveKernel d' env i program name t).1.runs ∧
      R (driveKernel d env i program name s).2 (driveKernel d' env i program name t).2 := by
  have hfailed {e e' : Failure} (h : e.Alike D e') : List.Forall₂ (KernelRun.Alike D)
      (i.matrix.map fun sizes => .explained sizes .runtimeFailure e)
      (i.matrix.map fun sizes => .explained sizes .runtimeFailure e') := by
    rw [List.forall₂_map_left_iff, List.forall₂_map_right_iff, List.forall₂_same]
    exact fun sizes _ => KernelRun.alike_explained sizes h
  have hcreate : Session.InStep R D (KernelHandle.create d program name)
      (KernelHandle.create d' program name) := by
    refine (Session.inStep_ofExcept _).bind fun _ => ?_
    exact (Device.inStep_call hd _).bind fun kernel => Session.inStep_pure _
  have hstart : Bench.InStep R ⟨s, .empty⟩ ⟨t, .empty⟩ := ⟨h, rfl⟩
  unfold driveKernel
  simp only [Session.on_bind]
  rcases hcreate.cases hstart with
    ⟨k, b, c, hkernel, hkernel', hbench⟩ | ⟨e, e', b, c, hkernel, hkernel', alike, hbench⟩
  · simp only [hkernel, hkernel']
    -- The runs are not equal but alike, so they are compared by their cases.
    obtain ⟨hruns, hbench⟩ := KernelHandle.alike_run hd k env i hbench
    generalize (k.run d env i).on b = x at hruns hbench ⊢
    generalize (k.run d' env i).on c = y at hruns hbench ⊢
    obtain ⟨r, b⟩ := x
    obtain ⟨r', c⟩ := y
    cases hruns with
    | error alike => exact ⟨hfailed alike, hbench.1⟩
    | ok alike => exact ⟨alike, hbench.1⟩
  · simp only [hkernel, hkernel']
    exact ⟨hfailed alike, hbench.1⟩

theorem Progress.alike_foldl (env : Environment) (i : Instance) (program : Nat)
    (names : List String) {p : Progress σ} {p' : Progress τ} (hverdict : p.verdict = p'.verdict)
    (h : R p.device p'.device) :
    (names.foldl (Progress.drive d env i program) p).verdict =
      (names.foldl (Progress.drive d' env i program) p').verdict := by
  induction names generalizing p p' with
  | nil => exact hverdict
  | cons name names ih =>
    obtain ⟨hruns, hdevice⟩ := alike_driveKernel hd env i program name h
    rw [List.foldl_cons, List.foldl_cons]
    refine ih ?_ hdevice
    rw [verdict_drive, verdict_drive, hasTrouble_eq_of_alike hruns, hverdict]

namespace Instance

/-- The program is the same, or it cannot be built on either device. -/
theorem build_cases (i : Instance) {s : σ} {t : τ} (h : R s t) :
    (∃ program s' t', i.build d s = (.ok program, s') ∧ i.build d' t = (.ok program, t') ∧
        R s' t') ∨
      ∃ e e' s' t', i.build d s = (.error e, s') ∧ i.build d' t = (.error e', t') := by
  unfold build
  cases cString i.source with
  | error e => exact .inr ⟨e, e, s, t, rfl, rfl⟩
  | ok _ =>
    cases cString i.fullBuildOptions with
    | error e => exact .inr ⟨e, e, s, t, rfl, rfl⟩
    | ok _ =>
      rcases hd.cases (.build i.source i.fullBuildOptions) h with
        hbuilt | ⟨e, e', s', t', hs, ht, -, -⟩
      · exact .inl hbuilt
      · exact .inr ⟨e, e', s', t', hs, ht⟩

/-- **Devices in step lead to the same verdict.** -/
theorem alike_run (i : Instance) (env : Environment) (seconds nanoseconds : Nat) {s : σ} {t : τ}
    (h : R s t) :
    ResultsAlike (fun r r' => r.verdict = r'.verdict) (Failure.Alike D)
      (i.run d env seconds nanoseconds s).result (i.run d' env seconds nanoseconds t).result := by
  unfold run
  rcases build_cases hd i h with ⟨program, s₁, t₁, hbuild, hbuild', hstate⟩ |
    ⟨e, e', s₁, t₁, hbuild, hbuild'⟩
  · simp only [hbuild, hbuild']
    rcases hd.cases (.kernelNames program) hstate with
      ⟨names, s₂, t₂, hnames, hnames', hstate⟩ | ⟨e, e', s₂, t₂, hnames, hnames', alike, -⟩
    · simp only [hnames, hnames']
      cases splitNames names with
      | nil => exact .ok rfl
      | cons name rest =>
        exact .ok (Progress.alike_foldl hd env i program (name :: rest) rfl hstate)
    · simp only [hnames, hnames']
      exact .error (.device alike)
  · -- The verdict on a program that cannot be built is one and the same, whatever is reported.
    simp only [hbuild, hbuild']
    exact .ok rfl

end Instance

end InStep

/-! ### The verdict foretold -/

namespace Instance

/-- The runs of a kernel with that behaviour and of that name. A name that cannot go to the device
    fails in every configuration. -/
def kernelRuns (i : Instance) (k : Behaviour) (name : String) : List KernelRun :=
  match cString name with
  | .error e => i.matrix.map fun sizes => .explained sizes .runtimeFailure (.device e)
  | .ok () => k.runs i

/-- The verdict when some kernels have been driven. -/
def verdictAfter (i : Instance) (k : String → Behaviour) (names : List String) (v : Verdict) :
    Verdict :=
  names.foldl (fun v name =>
    if hasTrouble (i.kernelRuns (k name) name) then v.escalate .runtimeFailure else v) v

/-- The verdict on a program with kernels of those names and behaviours. -/
def verdict (i : Instance) (names : String) (k : String → Behaviour) : Verdict :=
  match cString i.source, cString i.fullBuildOptions with
  | .ok (), .ok () =>
    match splitNames names with
    | [] => .noKernels
    | name :: rest => i.verdictAfter k (name :: rest) .pass
  | _, _ => .compilationFailure

end Instance

section Hosts

variable {d : Device σ} {env : Environment} {names : String} {k : String → Behaviour}

/-- Every kernel has the runs of its behaviour. -/
theorem Hosts.runs_driveKernel {program : Nat} {Ready : σ → Prop}
    (hd : Hosts d env.device program names k Ready) (i : Instance) {name : String}
    (hname : name ∈ splitNames names) {s : σ} (hs : Ready s) :
    (driveKernel d env i program name s).1.runs = i.kernelRuns (k name) name ∧
      Ready (driveKernel d env i program name s).2 := by
  unfold driveKernel KernelHandle.create Instance.kernelRuns Device.passText
  simp only [Session.on_bind, Session.on_ofExcept]
  cases cString name with
  | error e => exact ⟨rfl, hs⟩
  | ok _ =>
    obtain ⟨kernel, s', v, hanswer, hpredictable, hvalid, hready⟩ :=
      hd.createKernel_succeeds hs hname
    have hcall : (d.call (.createKernel program name)).on ⟨s, .empty⟩ =
        (.ok kernel, ⟨s', .empty⟩) := d.call_eq_ok.2 ⟨s', hanswer, rfl⟩
    have hpredictable : Predictable d env.device (KernelHandle.mk kernel name).kernel v (k name) :=
      hpredictable
    obtain ⟨b, hrun, hb⟩ := KernelHandle.run_eq_forecast hpredictable i (b := ⟨s', .empty⟩) hvalid
    simp only [Except.mapError, hcall, Session.on_pure, hrun]
    exact ⟨trivial, hready _ hb⟩

theorem Hosts.verdict_foldl {program : Nat} {Ready : σ → Prop}
    (hd : Hosts d env.device program names k Ready) (i : Instance) {ns : List String}
    (hns : ∀ name ∈ ns, name ∈ splitNames names) {p : Progress σ} (hp : Ready p.device) :
    (ns.foldl (Progress.drive d env i program) p).verdict = i.verdictAfter k ns p.verdict := by
  induction ns generalizing p with
  | nil => rfl
  | cons name ns ih =>
    -- Every kernel leaves the device as the next one needs it.
    obtain ⟨hruns, hready⟩ := hd.runs_driveKernel i (hns name (by simp)) hp
    rw [List.foldl_cons, ih (fun other hother => hns other (by simp [hother])) hready,
      Progress.verdict_drive, hruns]
    rfl

/-- **The verdict is foretold.** It depends on the instance and on the kernels' names and behaviours
    only. -/
theorem Serves.verdict_eq {i : Instance} {Fresh : σ → Prop}
    (hd : Serves d env.device i.source i.fullBuildOptions names k Fresh) (seconds nanoseconds : Nat)
    {s : σ} (hs : Fresh s) :
    ∃ r, (i.run d env seconds nanoseconds s).result = .ok r ∧ r.verdict = i.verdict names k := by
  unfold Instance.run Instance.build Instance.verdict
  cases cString i.source with
  | error e => exact ⟨_, rfl, rfl⟩
  | ok _ =>
    cases cString i.fullBuildOptions with
    | error e => exact ⟨_, rfl, rfl⟩
    | ok _ =>
      obtain ⟨program, s₁, Ready, hbuild, hready, hhosts⟩ := hd.build_succeeds hs
      obtain ⟨s₂, hnames, hready⟩ := hhosts.kernelNames_succeeds hready
      simp only [hbuild, hnames]
      have hfold := hhosts.verdict_foldl i (fun _ hname => hname) (p := { device := s₂ }) hready
      cases hsplit : splitNames names with
      | nil => exact ⟨_, rfl, rfl⟩
      | cons name rest =>
        rw [hsplit] at hfold
        exact ⟨_, rfl, hfold⟩

end Hosts

/-! ### The order of the matrix -/

namespace Instance

variable {i : Instance} {m : List LaunchSizes}

/-- Whether there is trouble with a kernel does not depend on the order of the matrix. -/
theorem hasTrouble_kernelRuns_perm (h : i.matrix.Perm m) (k : Behaviour) (name : String) :
    hasTrouble (i.kernelRuns k name) = hasTrouble ({ i with matrix := m }.kernelRuns k name) := by
  rw [Bool.eq_iff_iff, hasTrouble_iff, hasTrouble_iff]
  unfold kernelRuns
  cases cString name with
  | error e => simp only [List.mem_map, exists_exists_and_eq_and, h.mem_iff]
  | ok _ => exact Behaviour.trouble_perm h

theorem verdict_eq_of_perm (h : i.matrix.Perm m) (names : String) (k : String → Behaviour) :
    i.verdict names k = { i with matrix := m }.verdict names k := by
  have hafter (ns : List String) (v : Verdict) :
      i.verdictAfter k ns v = { i with matrix := m }.verdictAfter k ns v := by
    unfold verdictAfter
    simp only [hasTrouble_kernelRuns_perm h]
  unfold verdict
  simp only [hafter]
  rfl

/-- **The verdict does not depend on the order of the matrix.** Take a device that lets nothing fail
    but launches, and refuses launches only for what the kernel is given and for the sizes; what it
    reports then does not matter. In any two states in which it can build the program, the runs of
    an instance and of the instance with another order of its matrix come to the same verdict. -/
theorem run_verdict_perm {d : Device σ} {env : Environment} {names : String}
    {k : String → Behaviour} {Fresh : σ → Prop}
    (hd : Serves d.quiet env.device i.source i.fullBuildOptions names k Fresh)
    (hm : i.matrix.Perm m) (seconds nanoseconds seconds' nanoseconds' : Nat) {s t : σ}
    (hs : Fresh s) (ht : Fresh t) :
    ∃ r r', (i.run d env seconds nanoseconds s).result = .ok r ∧
      ({ i with matrix := m }.run d env seconds' nanoseconds' t).result = .ok r' ∧
      r.verdict = r'.verdict := by
  -- On the quiet device both verdicts are foretold, and the device itself comes to the same.
  have hquiet (i : Instance) (seconds nanoseconds : Nat) (s : σ) {q : ProgramResult}
      (hq : (i.run d.quiet env seconds nanoseconds s).result = .ok q) :
      ∃ r, (i.run d env seconds nanoseconds s).result = .ok r ∧ r.verdict = q.verdict := by
    have halike := alike_run d.inStep_quiet i env seconds nanoseconds (s := s) rfl
    rw [hq] at halike
    cases hr : (i.run d env seconds nanoseconds s).result with
    | error e =>
      rw [hr] at halike
      cases halike
    | ok r =>
      rw [hr] at halike
      cases halike with
      | ok alike => exact ⟨r, rfl, alike⟩
  obtain ⟨q, hq, hverdict⟩ := hd.verdict_eq seconds nanoseconds hs
  obtain ⟨q', hq', hverdict'⟩ := Serves.verdict_eq (i := { i with matrix := m }) hd seconds'
    nanoseconds' ht
  obtain ⟨r, hr, hrq⟩ := hquiet i seconds nanoseconds s hq
  obtain ⟨r', hr', hrq'⟩ := hquiet { i with matrix := m } seconds' nanoseconds' t hq'
  refine ⟨r, r', hr, hr', ?_⟩
  rw [hrq, hrq', hverdict, hverdict', verdict_eq_of_perm hm]

/-- A program with a kernel that looks at the size of its groups. -/
def groupProgram : Simulator.Script where
  kernels := [KernelHandle.scriptedKernel [⟨"uchar*", .global, false, none⟩]
    [KernelHandle.plainStep .addLocalSize {}]]

/-- The instance for that program. -/
def groupInstance : Instance where
  source :=
    "\x7b\"kernels\": [\x7b\"name\": \"k\", \"args\": [\x7b\"type\": \"uchar*\", " ++
      "\"space\": \"global\"\x7d], \"body\": [\x7b\"do\": \"local\", \"k\": 1\x7d]\x7d]\x7d"
  matrix := [⟨4, 2⟩, ⟨4, 1⟩]

def groupStart : Simulator.State :=
  Simulator.start .plain Simulator.standardPlatforms

/-- The sizes of all runs, with the outcomes. -/
def outcomes (r : ProgramResult) : List (LaunchSizes × Outcome) :=
  r.kernels.flatMap fun k => k.runs.map fun run => (run.sizes, run.outcome)

/-- The first configuration passes and the second diverges from it, whichever is the first. -/
theorem run_verdict_perm_group :
    let other : Instance := { groupInstance with matrix := [⟨4, 1⟩, ⟨4, 2⟩] }
    ∃ r r', (groupInstance.run Simulator.calm ⟨0, ""⟩ 0 0 groupStart).result = .ok r ∧
      (other.run Simulator.calm ⟨0, ""⟩ 0 0 groupStart).result = .ok r' ∧
      r.verdict = r'.verdict ∧ outcomes r = [(⟨4, 2⟩, .pass), (⟨4, 1⟩, .divergent)] ∧
      outcomes r' = [(⟨4, 1⟩, .pass), (⟨4, 2⟩, .divergent)] := by
  intro other
  have hparse : Simulator.Script.parse? groupInstance.source = some groupProgram := by
    decide +kernel
  have hserves : Serves Simulator.calm.quiet (Environment.device ⟨0, ""⟩) _ _ _ _ _ :=
    (Simulator.calm_serves hparse (by decide +kernel) .plain 0 256
      groupInstance.fullBuildOptions).quiet
  have hm : groupInstance.matrix.Perm [⟨4, 1⟩, ⟨4, 2⟩] := List.Perm.swap _ _ []
  obtain ⟨r, r', hr, hr', hverdict⟩ := run_verdict_perm hserves hm 0 0 0 0 (s := groupStart)
    (t := groupStart) ⟨rfl, rfl⟩ ⟨rfl, rfl⟩
  have hfirst : (groupInstance.run Simulator.calm ⟨0, ""⟩ 0 0 groupStart).result.toOption.map
      outcomes = some [(⟨4, 2⟩, .pass), (⟨4, 1⟩, .divergent)] := by decide +kernel
  have hsecond : (other.run Simulator.calm ⟨0, ""⟩ 0 0 groupStart).result.toOption.map
      outcomes = some [(⟨4, 1⟩, .pass), (⟨4, 2⟩, .divergent)] := by decide +kernel
  rw [hr] at hfirst
  rw [hr'] at hsecond
  exact ⟨r, r', hr, hr', hverdict, Option.some.inj hfirst, Option.some.inj hsecond⟩

end Instance

end KernelDiff
