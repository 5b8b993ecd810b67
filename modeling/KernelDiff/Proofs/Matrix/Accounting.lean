import KernelDiff.Proofs.Execution.Measurement
import KernelDiff.Proofs.Matrix.Coverage

namespace KernelDiff

/-!
# The measurements of a matrix

The outcome of a configuration tells how many executions it has taken, unless the device failed in
the middle of one. Every execution measures the same, so the outcomes of a matrix and the signature
of the kernel account for the whole profile.

* `Outcome.executions`, `executions` — the executions behind an outcome, and behind some runs;
* `KernelHandle.tally_runConfiguration` — one configuration;
* `KernelHandle.tally_runMatrix` — all of them, by induction on the matrix;
* `KernelHandle.tally_run`, `driveKernel_accounted` — a kernel, whatever becomes of it.
-/

variable {σ : Type}

/-- How many executions lead to an outcome. Configurations that are skipped take none, and where the
    device fails nothing is promised. -/
def Outcome.executions (checkSensitivity : Bool) : Outcome → Nat
  | pass => if checkSensitivity then 3 else 2
  | inputInsensitive => 3
  | noOutput | nondeterministic | divergent => 2
  | invalidSizes | unsupportedArguments | runtimeFailure => 0

/-- How many executions lead to some runs. -/
def executions (checkSensitivity : Bool) (runs : List KernelRun) : Nat :=
  (runs.map fun run => run.outcome.executions checkSensitivity).sum

@[simp] theorem executions_nil (checkSensitivity : Bool) : executions checkSensitivity [] = 0 := rfl

theorem executions_cons (checkSensitivity : Bool) (run : KernelRun) (runs : List KernelRun) :
    executions checkSensitivity (run :: runs) =
      run.outcome.executions checkSensitivity + executions checkSensitivity runs := by
  unfold executions
  rw [List.map_cons, List.sum_cons]

/-- The device failed in none of the runs. -/
def Unfailing (runs : List KernelRun) : Prop := ∀ run ∈ runs, run.outcome ≠ .runtimeFailure

theorem unfailing_cons {run : KernelRun} {runs : List KernelRun} :
    Unfailing (run :: runs) ↔ run.outcome ≠ .runtimeFailure ∧ Unfailing runs :=
  List.forall_mem_cons

/-- A failure that is not one of the device has taken no executions. -/
theorem Outcome.executions_ofFailure (checkSensitivity : Bool) (e : Failure) :
    (ofFailure e).executions checkSensitivity = 0 := by
  cases e <;> rfl

namespace KernelHandle

variable {d : Device σ} {k : KernelHandle} {s : Signature} {i : Instance} {source : InputSource}
variable {sizes : LaunchSizes} {b b' : Bench σ}

/-! ### One configuration -/

theorem adds_executeTwice (d : Device σ) (k : KernelHandle) (s : Signature) (sizes : LaunchSizes)
    (source : InputSource) : (k.executeTwice d s sizes source).Adds (2 • s.tally) := by
  rw [two_nsmul]
  refine (s.adds_execute d k.kernel sizes source).bind fun first => ?_
  exact (s.adds_execute d k.kernel sizes source).bind_silent fun second => Session.silent_pure _

/-- Only the first of the two executions can fail for its inputs. -/
theorem profile_of_executeTwice_error {e : Failure}
    (h : (k.executeTwice d s sizes source).on b = (.error e, b'))
    (he : Outcome.ofFailure e ≠ .runtimeFailure) : b'.profile = b.profile := by
  rcases Session.on_bind_eq_error.1 h with hfirst | ⟨first, b₁, hfirst, h⟩
  · exact (Execution.profile_of_error hfirst he).1
  · rcases Session.on_bind_eq_error.1 h with hsecond | ⟨second, b₂, -, hreturn⟩
    · exact absurd (Execution.failure_of_success hfirst hsecond) he
    · cases hreturn

/-- What is left to say takes one execution more, or none. -/
theorem tally_classify {e : Execution} {o : Outcome}
    (h : (k.classify d s sizes i e).on b = (.ok o, b')) :
    ∃ n, o.executions i.checkSensitivity = 2 + n ∧
      b'.profile.tally = b.profile.tally + n • s.tally := by
  unfold classify at h
  by_cases hsame : e.outputs.same e.inputs
  · rw [if_pos hsame] at h
    cases h
    exact ⟨0, rfl, by simp⟩
  rw [if_neg hsame] at h
  by_cases hcheck : i.checkSensitivity
  · rw [if_pos hcheck] at h
    obtain ⟨other, b₁, hother, hreturn⟩ := Session.on_bind_eq_ok.1 h
    cases hreturn
    refine ⟨1, ?_, by rw [(s.adds_execute d _ _ _).tally_eq hother, one_nsmul]⟩
    rw [hcheck]
    split <;> rfl
  · rw [if_neg hcheck] at h
    cases h
    refine ⟨0, ?_, by simp⟩
    rw [Bool.eq_false_iff.2 hcheck]
    rfl

/-- A rerun takes no entries, so only the device can stop it. -/
theorem ofFailure_of_classify {e : Execution} {failure : Failure}
    (h : (k.classify d s sizes i e).on b = (.error failure, b')) :
    Outcome.ofFailure failure = .runtimeFailure := by
  unfold classify at h
  by_cases hsame : e.outputs.same e.inputs
  · rw [if_pos hsame] at h
    cases h
  rw [if_neg hsame] at h
  by_cases hcheck : i.checkSensitivity
  · rw [if_pos hcheck] at h
    rcases Session.on_bind_eq_error.1 h with hother | ⟨other, b₁, -, hreturn⟩
    · by_contra hne
      have hinputs := (Execution.profile_of_error hother hne).2
      have hexplicit := (Signature.failure_of_inputs hinputs).1
      cases hexplicit
    · cases hreturn
  · rw [if_neg hcheck] at h
    cases h

/-- The outcome of a configuration tells what was measured in it. -/
theorem tally_runConfiguration {references references' : References} {run : KernelRun}
    (h : k.runConfiguration d s i source references sizes b = (run, references', b'))
    (hrun : run.outcome ≠ .runtimeFailure) : b'.profile.tally =
      b.profile.tally + run.outcome.executions i.checkSensitivity • s.tally := by
  unfold runConfiguration at h
  rcases htwice : (k.executeTwice d s sizes source).on b with ⟨⟨e⟩ | ⟨first, second⟩, b₁⟩
  · simp only [htwice] at h
    cases h
    have hnone : (KernelRun.stopped sizes e).outcome.executions i.checkSensitivity = 0 :=
      Outcome.executions_ofFailure _ e
    rw [hnone, profile_of_executeTwice_error htwice hrun, zero_nsmul, add_zero]
  simp only [htwice] at h
  have hboth := (adds_executeTwice d k s sizes source).tally_eq htwice
  rcases disagreement?_cases first.outputs second.outputs (references.find? sizes.globalSize) with
    ⟨hd, -⟩ | ⟨hd, -⟩ | ⟨hd, -⟩
  · rw [hd] at h
    cases h
    exact hboth
  · rw [hd] at h
    cases h
    exact hboth
  · rw [hd] at h
    simp only at h
    rcases hclassify : (k.classify d s sizes i
      (if (references.find? sizes.globalSize).isNone then second else first)).on b₁ with
      ⟨⟨e⟩ | ⟨o⟩, b₂⟩
    · simp only [hclassify] at h
      cases h
      exact absurd (ofFailure_of_classify hclassify) hrun
    · simp only [hclassify] at h
      cases h
      obtain ⟨n, hn, htally⟩ := tally_classify hclassify
      have houtcome : (KernelRun.ofOutcome sizes o).outcome = o := rfl
      rw [htally, hboth, houtcome, hn, add_nsmul, add_assoc]

/-! ### The whole matrix -/

/-- The outcomes of a matrix tell what was measured in it. -/
theorem tally_runMatrix {limits : GroupLimits} {m : List LaunchSizes} {references : References}
    {runs : List KernelRun}
    (h : k.runMatrix d s limits i source m references b = (runs, b'))
    (hruns : Unfailing runs) : b'.profile.tally =
      b.profile.tally + executions i.checkSensitivity runs • s.tally := by
  induction m generalizing references b runs with
  | nil =>
    cases h
    rw [executions_nil, zero_nsmul, add_zero]
  | cons sizes m ih =>
    unfold runMatrix at h
    cases hp : limits.problem? sizes with
    | some p =>
      simp only [hp] at h
      rcases hrest : k.runMatrix d s limits i source m references b with ⟨rest, b₁⟩
      rw [hrest] at h
      cases h
      have hnone : (KernelRun.explained sizes .invalidSizes
          (.invalidSizes p.message)).outcome.executions i.checkSensitivity = 0 := rfl
      rw [ih hrest (unfailing_cons.1 hruns).2, executions_cons, hnone, Nat.zero_add]
    | none =>
      simp only [hp] at h
      rcases hone : k.runConfiguration d s i source references sizes b with
        ⟨run, references₁, b₁⟩
      rcases hrest : k.runMatrix d s limits i source m references₁ b₁ with ⟨rest, b₂⟩
      simp only [hone, hrest] at h
      cases h
      obtain ⟨hrun, hothers⟩ := unfailing_cons.1 hruns
      rw [ih hrest hothers, tally_runConfiguration hone hrun, executions_cons, add_nsmul, add_assoc]

/-! ### Kernels -/

theorem silent_signature (d : Device σ) (k : KernelHandle) : (k.signature d).Silent := by
  refine (d.silent_call _).bind fun count => Session.silent_mapM (fun index => ?_) _
  refine (d.silent_call _).bind fun typeName => ?_
  refine (d.silent_call _).bind fun space => ?_
  refine (d.silent_call _).bind fun qualified => ?_
  exact (Session.silent_ofExcept _).bind fun p => Session.silent_pure _

theorem silent_limits (d : Device σ) (k : KernelHandle) (env : Environment) :
    (k.limits d env).Silent := by
  refine (d.silent_call _).bind fun kernelMax => ?_
  refine (d.silent_call _).bind fun compiled => ?_
  exact (d.silent_call _).bind fun deviceMax => Session.silent_pure _

theorem silent_create (d : Device σ) (program : Nat) (name : String) :
    (create d program name).Silent := by
  refine (Session.silent_ofExcept _).bind fun _ => ?_
  exact (d.silent_call _).bind fun kernel => Session.silent_pure _

/-- Configurations that are skipped as a whole take no executions. -/
theorem executions_skipAll (checkSensitivity : Bool) (i : Instance) (e : Failure) :
    executions checkSensitivity (skipAll i e) = 0 := by
  unfold skipAll
  induction i.matrix with
  | nil => rfl
  | cons sizes m ih =>
    rw [List.map_cons, executions_cons, ih]
    rfl

/-- What was measured of a kernel: as many executions as its outcomes tell, by its signature, or
    nothing at all. -/
theorem tally_run {env : Environment} {runs : List KernelRun}
    (h : (k.run d env i).on b = (.ok runs, b')) (hruns : Unfailing runs) :
    (∃ s b₁, (k.signature d).on b = (.ok s, b₁) ∧ b'.profile.tally =
      b.profile.tally + executions i.checkSensitivity runs • s.tally) ∨
    ∃ e b₁, (k.signature d).on b = (.error e, b₁) ∧ b'.profile = b.profile ∧
      executions i.checkSensitivity runs = 0 := by
  rcases hsignature : (k.signature d).on b with ⟨⟨e⟩ | ⟨s⟩, b₁⟩
  · have hprofile := (silent_signature d k).profile_eq hsignature
    rcases run_of_signature_error env i hsignature with hrun | hrun
    · rw [hrun] at h
      cases h
      exact .inr ⟨e, _, rfl, hprofile, executions_skipAll _ i e⟩
    · rw [hrun] at h
      cases h
  have hprofile := (silent_signature d k).profile_eq hsignature
  refine .inl ⟨s, b₁, rfl, ?_⟩
  cases hsource : source? s i with
  | error e =>
    rw [run_of_source_error hsignature hsource] at h
    cases h
    rw [hprofile, executions_skipAll, zero_nsmul, add_zero]
  | ok source =>
    rcases hlimits : (k.limits d env).on b₁ with ⟨⟨e⟩ | ⟨limits⟩, b₂⟩
    · rw [run_of_limits_error hsignature hsource hlimits] at h
      cases h
    · rw [run_of_limits hsignature hsource hlimits] at h
      have hmatrix := Drive.runMatrix_eq ⟨d, k, s, limits, i, source⟩ (.start b₂) i.matrix
      cases h
      rw [tally_runMatrix hmatrix hruns]
      show b₂.profile.tally + _ = _
      rw [(silent_limits d k env).profile_eq hlimits, hprofile]

end KernelHandle

/-- The signature with which a kernel of a program is driven. -/
def drivenSignature (d : Device σ) (program : Nat) (name : String) (s : σ) :
    Except Failure Signature :=
  let session : Session σ Signature := do
    let k ← KernelHandle.create d program name
    k.signature d
  (session.on ⟨s, .empty⟩).1

/-- **Every measurement of a kernel is accounted for.** If the device fails in none of its runs,
    there are as many executions as their outcomes tell, and each has measured what the signature
    tells. A kernel whose signature cannot be read is not executed, and nothing is measured. -/
theorem driveKernel_accounted {d : Device σ} {env : Environment} {i : Instance} {program : Nat}
    {name : String} {s s' : σ} {kernel : KernelResult}
    (h : driveKernel d env i program name s = (kernel, s')) (hruns : Unfailing kernel.runs) :
    (∀ sg, drivenSignature d program name s = .ok sg →
      kernel.profile.tally = executions i.checkSensitivity kernel.runs • sg.tally) ∧
    ∀ e, drivenSignature d program name s = .error e →
      kernel.profile = .empty ∧ executions i.checkSensitivity kernel.runs = 0 := by
  rcases driveKernel_cases d env i program name s with
    ⟨k, b, runs, b', hcreate, hrun, hkernel⟩ | ⟨e, s'', hkernel⟩
  · rw [hkernel] at h
    cases h
    have hprofile := (KernelHandle.silent_create d program name).profile_eq hcreate
    have hsignature : drivenSignature d program name s = ((k.signature d).on b).1 := by
      unfold drivenSignature
      simp only [Session.on_bind, hcreate]
    rw [hsignature]
    rcases KernelHandle.tally_run hrun hruns with ⟨sg, b₁, hsg, htally⟩ |
      ⟨e, b₁, he, hunchanged, hnone⟩
    · simp only [hsg]
      refine ⟨?_, by simp⟩
      rintro _ ⟨rfl⟩
      rw [htally, hprofile, Profile.tally_empty, zero_add]
    · simp only [he]
      refine ⟨by simp, ?_⟩
      rintro _ ⟨rfl⟩
      exact ⟨hunchanged.trans hprofile, hnone⟩
  · rw [hkernel] at h
    cases h
    -- A kernel that cannot be driven fails in every configuration, so there are none.
    have hmatrix : i.matrix = [] := by
      cases hm : i.matrix with
      | nil => rfl
      | cons sizes m =>
        rw [hm] at hruns
        exact absurd rfl (unfailing_cons.1 hruns).1
    simp [hmatrix]

/-- What a profile of so many executions holds, stage by stage. -/
theorem Profile.samples_of_tally {p : Profile} {n : Nat} {s : Signature}
    (h : p.tally = n • s.tally) :
    p.execution.length = n ∧ p.transferIn.length = n * s.bufferCount ∧
      p.transferOut.length = n * s.returnedCount ∧ p.compile = [] := by
  have hstage (stage : Stage) : (p.samples stage).length = n * s.tally stage := congrFun h stage
  have hcompile : p.compile.length = n * s.tally .compile := hstage .compile
  refine ⟨?_, ?_, ?_, ?_⟩
  · exact (hstage .execution).trans (by simp [Signature.tally])
  · exact (hstage .transferIn).trans (by simp [Signature.tally])
  · exact (hstage .transferOut).trans (by simp [Signature.tally])
  · exact List.eq_nil_of_length_eq_zero (hcompile.trans (by simp [Signature.tally]))

end KernelDiff
