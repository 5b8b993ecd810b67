import KernelDiff.Proofs.Matrix.Accounting
import KernelDiff.Proofs.Program.Report

namespace KernelDiff

/-!
# The profiles of a program

Each kernel of a program is driven on the device as the kernels before it have left it, with a
profile of its own. The program itself keeps the measurement of its build.

* `Progress.exists_of_mem_kernels` — which drive a kernel's result comes from;
* `Instance.run_profiles` — what every profile of a run holds.
-/

variable {σ : Type}

/-- Every result is that of a name, on the device as it was when its turn came. -/
theorem Progress.exists_of_mem_kernels (d : Device σ) (env : Environment) (i : Instance)
    (program : Nat) {p : Progress σ} {names : List String} {kernel : KernelResult}
    (h : kernel ∈ (names.foldl (Progress.drive d env i program) p).kernels) :
    kernel ∈ p.kernels ∨ ∃ before name after, names = before ++ name :: after ∧
      kernel = (driveKernel d env i program name
        (before.foldl (Progress.drive d env i program) p).device).1 := by
  induction names generalizing p with
  | nil => exact .inl h
  | cons name names ih =>
    rcases ih h with hbefore | ⟨before, other, after, rfl, hkernel⟩
    · rw [kernels_drive] at hbefore
      rcases List.mem_append.1 hbefore with hold | hnew
      · exact .inl hold
      · exact .inr ⟨[], name, names, rfl, List.mem_singleton.1 hnew⟩
    · exact .inr ⟨name :: before, other, after, rfl, hkernel⟩

namespace Instance

variable {d : Device σ} {env : Environment} {i : Instance} {seconds nanoseconds : Nat} {s : σ}
variable {r : ProgramResult}

/-- **Profiles account for every execution.** A run that comes to its end has measured one build. If
    the device fails in no run of a kernel, the outcomes tell how often the kernel was executed, and
    its profile holds that many launches, as many copies to the device for each of its buffers, and
    as many back for each of those that it can write. -/
theorem run_profiles (h : (i.run d env seconds nanoseconds s).result = .ok r) :
    (r.profile.compile.length = 1 ∧ r.profile.execution = [] ∧ r.profile.transferIn = [] ∧
      r.profile.transferOut = []) ∧
    ∀ kernel ∈ r.kernels, (∀ run ∈ kernel.runs, run.outcome ≠ .runtimeFailure) →
      ∃ program s₁ text s₂ before after, i.build d s = (.ok program, s₁) ∧
        d.answer (.kernelNames program) s₁ = (.ok text, s₂) ∧
        splitNames text = before ++ kernel.name :: after ∧
        let state := (before.foldl (Progress.drive d env i program) { device := s₂ }).device
        let count := (kernel.runs.map fun run => run.outcome.executions i.checkSensitivity).sum
        kernel = (driveKernel d env i program kernel.name state).1 ∧
        (∀ sg, drivenSignature d program kernel.name state = .ok sg →
          let isBuffer (p : Parameter) : Bool := p.space == .global || p.space == .constant
          kernel.profile.execution.length = count ∧
          kernel.profile.transferIn.length = count * sg.countP isBuffer ∧
          kernel.profile.transferOut.length =
            count * sg.countP (fun p => isBuffer p && !p.isConst) ∧
          kernel.profile.compile = []) ∧
        ∀ e, drivenSignature d program kernel.name state = .error e →
          count = 0 ∧ kernel.profile = .empty := by
  rcases run_cases h with ⟨e, s', hbuild, rfl, -⟩ |
    ⟨program, s₁, text, s₂, hbuild, htext, ⟨hsplit, rfl, -⟩ | ⟨hsplit, rfl, -⟩⟩
  · exact ⟨⟨rfl, rfl, rfl, rfl⟩, fun kernel hkernel => absurd hkernel List.not_mem_nil⟩
  · exact ⟨⟨rfl, rfl, rfl, rfl⟩, fun kernel hkernel => absurd hkernel List.not_mem_nil⟩
  · refine ⟨⟨rfl, rfl, rfl, rfl⟩, ?_⟩
    intro kernel hkernel hruns
    rcases Progress.exists_of_mem_kernels d env i program hkernel with
      hnone | ⟨before, name, after, hnames, hdriven⟩
    · simp at hnone
    have hname : kernel.name = name := by
      rw [hdriven, name_driveKernel]
    subst hname
    obtain ⟨hread, hunread⟩ := driveKernel_accounted (Prod.ext hdriven.symm rfl) hruns
    refine ⟨program, s₁, text, s₂, before, after, hbuild, htext, hnames, hdriven, ?_, ?_⟩
    · intro sg hsg
      exact Profile.samples_of_tally (hread sg hsg)
    · intro e he
      exact (hunread e he).symm

/-- A kernel with a buffer that it adds the size of its groups to, one that it cannot write, and a
    scalar. -/
def measuredProgram : Simulator.Script where
  kernels := [KernelHandle.scriptedKernel
    [⟨"uchar*", .global, false, none⟩, ⟨"uchar*", .constant, false, none⟩,
      ⟨"uchar", .workItem, false, none⟩]
    [KernelHandle.plainStep .addLocalSize {}]]

def measuredInstance : Instance where
  source := ""
  matrix := [⟨4, 2⟩, ⟨4, 1⟩, ⟨4, 3⟩]

/-- The state in which that program has been built. -/
def measuredState : Simulator.State := { groupStart with programs := #[measuredProgram] }

def measuredSignature : Signature :=
  [⟨0, "uchar*", .scalar .uchar, .global, true, false⟩,
    ⟨1, "uchar*", .scalar .uchar, .constant, true, true⟩,
    ⟨2, "uchar", .scalar .uchar, .workItem, false, false⟩]

/-- The first configuration takes three executions, the second two and the third none. Each copies
    two buffers in and one out. -/
theorem run_profiles_measured :
    ∃ r kernel, (measuredInstance.run (loadedWith measuredProgram) ⟨0, ""⟩ 0 0
        groupStart).result = .ok r ∧
      kernel ∈ r.kernels ∧ kernel.runs.map (·.outcome) = [.pass, .divergent, .invalidSizes] ∧
      r.profile.compile.length = 1 ∧ kernel.profile.execution.length = 5 ∧
      kernel.profile.transferIn.length = 10 ∧ kernel.profile.transferOut.length = 5 ∧
      kernel.profile.compile = [] := by
  have hbuilt : measuredInstance.build (loadedWith measuredProgram) groupStart =
      (.ok 0, measuredState) := by
    have hsource : cString measuredInstance.source = .ok () := rfl
    have hoptions : cString measuredInstance.fullBuildOptions = .ok () := by decide +kernel
    unfold build
    rw [hsource, hoptions]
    rfl
  have hnamed : (loadedWith measuredProgram).answer (.kernelNames 0) measuredState =
      (.ok "k", measuredState) := rfl
  have hkernels : (measuredInstance.run (loadedWith measuredProgram) ⟨0, ""⟩ 0 0
      groupStart).result.toOption.map
        (fun r => r.kernels.map fun k => (k.name, k.runs.map (·.outcome))) =
          some [("k", [.pass, .divergent, .invalidSizes])] := by
    unfold run
    rw [hbuilt]
    decide +kernel
  obtain ⟨r, hr, hkernels⟩ := exists_of_map_toOption hkernels
  obtain ⟨kernel, hlist, hkernel⟩ := List.map_eq_singleton_iff.1 hkernels
  obtain ⟨hname, houtcomes⟩ := Prod.mk.inj hkernel
  have hmem : kernel ∈ r.kernels := by
    rw [hlist]
    simp
  have hunfailing : ∀ run ∈ kernel.runs, run.outcome ≠ .runtimeFailure := by
    intro run hrun hfailure
    have hmem := List.mem_map_of_mem (f := KernelRun.outcome) hrun
    rw [houtcomes, hfailure] at hmem
    exact absurd hmem (by decide)
  obtain ⟨⟨hcompile, -⟩, haccounted⟩ := run_profiles hr
  obtain ⟨program, s₁, text, s₂, before, after, hbuild, htext, hnames, -, hread, -⟩ :=
    haccounted kernel hmem hunfailing
  -- The kernel is the first one, so it is driven in the state that the build has left.
  rw [hbuilt] at hbuild
  cases hbuild
  rw [hnamed] at htext
  cases htext
  have hbefore : before = [] := by
    have hlength := congrArg List.length hnames
    have hsplit : (splitNames "k").length = 1 := by decide +kernel
    rw [hsplit, List.length_append, List.length_cons] at hlength
    exact List.eq_nil_of_length_eq_zero (by omega)
  subst hbefore
  have hsignature : (drivenSignature (loadedWith measuredProgram) 0 kernel.name
      measuredState).toOption.map id = some measuredSignature := by
    rw [hname]
    decide +kernel
  obtain ⟨sg, hsg, rfl⟩ := exists_of_map_toOption hsignature
  have hcount : (kernel.runs.map fun run =>
      run.outcome.executions measuredInstance.checkSensitivity).sum = 5 := by
    have hmap := congrArg (List.map (Outcome.executions measuredInstance.checkSensitivity))
      houtcomes
    rw [List.map_map] at hmap
    exact congrArg List.sum hmap
  obtain ⟨hexecution, htransferIn, htransferOut, hnone⟩ := hread _ hsg
  rw [hcount] at hexecution htransferIn htransferOut
  exact ⟨r, kernel, hr, hmem, houtcomes, hcompile, hexecution, htransferIn, htransferOut, hnone⟩

end Instance

end KernelDiff
