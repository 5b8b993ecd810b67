import KernelDiff.Proofs.Execution.Allocation
import KernelDiff.Proofs.Matrix.Accounting
import KernelDiff.Proofs.Matrix.LaunchSafety

namespace KernelDiff

/-!
# Bad entries do not reach the device

The entries of a caller are looked at before anything is executed on them: their number before the
limits of the kernel are asked for, and their texts while the arguments of an execution are made.
So a kernel is never launched on entries that are not right, whatever the device answers, and
nothing is measured. All that such entries can lead to on the device is memory for the parameters in
front of the wrong one.

* `Session.Refuses` — a session that comes to an end like this;
* `Signature.refuses_execute` — so does every execution with an entry that cannot be read;
* `GroupLimits.refused` — what is recorded of a configuration then;
* `Drive.refused_step`, `Drive.refused_after` — one configuration, and a whole matrix;
* `KernelHandle.run_of_badInputs` — the run of a kernel on bad entries.
-/

variable {σ : Type} {d : Device σ}

namespace Session

variable {α β : Type} {e : Failure}

/-- The session fails, and all that it does before is to allocate buffers. It fails with `e` unless
    an allocation fails first. -/
def Refuses (e : Failure) (x : Session (Logged σ) α) : Prop :=
  ∀ b, ∃ failure b' log, x.on b = (.error failure, b') ∧ b'.profile = b.profile ∧
    b'.log = b.log ++ log ∧ (∀ entry ∈ log, entry.call.IsAllocation) ∧
    ((∀ entry ∈ log, entry.Succeeded) → failure = e)

/-- Nothing comes after a failure. -/
theorem Refuses.bind {x : Session (Logged σ) α} (hx : x.Refuses e)
    (f : α → Session (Logged σ) β) : (x >>= f).Refuses e := by
  intro b
  obtain ⟨failure, b', log, hon, hrest⟩ := hx b
  exact ⟨failure, b', log, by rw [on_bind, hon], hrest⟩

end Session

namespace Signature

variable {s : Signature} {sizes : LaunchSizes} {g : Generator} {e : Failure}

/-- Where there are no values for the parameters, no arguments are made. -/
theorem refuses_arguments (h : s.inputsFrom sizes g = .error e) :
    (s.arguments d.logged sizes g).Refuses e := by
  have hmade : (s.arguments d.logged sizes g).Allocates (List.map Argument.detached)
      (.error e) := by
    rw [arguments_eq_argumentsFrom, ← bind_pure_comp]
    refine (allocates_argumentsFrom s sizes g).bind (fun e' he' => ?_) fun r hr => ?_
    · rw [Except.error.inj (h.symm.trans he')]
    · cases h.symm.trans hr
  intro b
  rcases hon : (s.arguments d.logged sizes g).on b with ⟨r, b'⟩
  obtain ⟨log, hlog, hcalls, hr⟩ := hmade.exists_log hon
  have hprofile : b'.profile = b.profile := (silent_arguments s sizes g).profile_eq hon
  cases r with
  | ok args =>
    rcases hr with hr | ⟨⟨report, hreport⟩, -⟩
    · cases hr
    · cases hreport
  | error failure =>
    refine ⟨failure, b', log, rfl, hprofile, hlog, hcalls, fun hmemory => ?_⟩
    rcases hr with hr | ⟨-, entry, hentry, hfailed⟩
    · exact Except.error.inj hr
    · exact absurd (hmemory entry hentry) hfailed

/-- And nothing is executed. -/
theorem refuses_execute (kernel : Nat) {source : InputSource}
    (h : s.inputsFrom sizes source.generator = .error e) :
    (s.execute d.logged kernel sizes source).Refuses e :=
  (refuses_arguments h).bind _

end Signature

/-- What is recorded of a configuration with an entry that cannot be read: its sizes are looked at
    first. -/
def GroupLimits.refused (limits : GroupLimits) (text typeName : String) (sizes : LaunchSizes) :
    KernelRun :=
  match limits.problem? sizes with
  | some p => .explained sizes .invalidSizes (.invalidSizes p.message)
  | none => .explained sizes .unsupportedArguments (.unreadableValue text typeName)

namespace Drive

variable (x : Drive σ) {text typeName : String}

/-- One configuration with bad entries allocates buffers at most. It is recorded for its sizes or
    for the entries, unless there was no memory. -/
theorem refused_step (c : Checkpoint (Logged σ)) (sizes : LaunchSizes)
    (h : x.signature.inputsFrom sizes x.source.generator =
      .error (.unreadableValue text typeName)) :
    ∃ log, (x.logged.step c sizes).2.bench.profile = c.bench.profile ∧
      (x.logged.step c sizes).2.bench.log = c.bench.log ++ log ∧
      (∀ entry ∈ log, entry.call.IsAllocation) ∧
      ((∀ entry ∈ log, entry.Succeeded) →
        (x.logged.step c sizes).1 = x.limits.refused text typeName sizes) := by
  cases hp : x.limits.problem? sizes with
  | some p =>
    rw [step_of_problem (x := x.logged) hp, GroupLimits.refused, hp]
    exact ⟨[], rfl, (List.append_nil _).symm, by simp, fun _ => rfl⟩
  | none =>
    have htwice : (x.kernel.executeTwice x.device.logged x.signature sizes x.source).Refuses
        (.unreadableValue text typeName) := (Signature.refuses_execute x.kernel.kernel h).bind _
    obtain ⟨failure, b', log, hon, hprofile, hlog, hcalls, hfailure⟩ := htwice c.bench
    rw [step_of_launchable (x := x.logged) hp, GroupLimits.refused, hp]
    unfold KernelHandle.runConfiguration logged
    simp only [hon]
    refine ⟨log, hprofile, hlog, hcalls, fun hmemory => ?_⟩
    rw [hfailure hmemory]
    rfl

/-- So does a whole matrix. -/
theorem refused_after (c : Checkpoint (Logged σ)) (m : List LaunchSizes)
    (h : ∀ sizes, x.signature.inputsFrom sizes x.source.generator =
      .error (.unreadableValue text typeName)) :
    ∃ log, (x.logged.after c m).bench.profile = c.bench.profile ∧
      (x.logged.after c m).bench.log = c.bench.log ++ log ∧
      (∀ entry ∈ log, entry.call.IsAllocation) ∧
      ((∀ entry ∈ log, entry.Succeeded) →
        x.logged.runs c m = m.map (x.limits.refused text typeName)) := by
  induction m generalizing c with
  | nil => exact ⟨[], rfl, (List.append_nil _).symm, by simp, fun _ => rfl⟩
  | cons sizes m ih =>
    obtain ⟨log, hprofile, hlog, hcalls, hrun⟩ := x.refused_step c sizes (h sizes)
    obtain ⟨log', hprofile', hlog', hcalls', hruns⟩ := ih (x.logged.step c sizes).2
    refine ⟨log ++ log', hprofile'.trans hprofile, ?_, ?_, fun hmemory => ?_⟩
    · rw [after_cons, hlog', hlog, List.append_assoc]
    · exact fun entry hentry => (List.mem_append.1 hentry).elim (hcalls entry) (hcalls' entry)
    · obtain ⟨hfirst, hrest⟩ := List.forall_mem_append.1 hmemory
      rw [runs, hrun hfirst, hruns hrest, List.map_cons]

end Drive

/-- Neither to ask nor to allocate is to launch. -/
theorem Call.not_isLaunch_of_isQuestion {c : Call} (h : c.IsQuestion ∨ c.IsAllocation) :
    ¬c.IsLaunch := by
  rcases h with h | h <;> cases c <;> first | exact h.elim | exact id

/-- What is asked of a device is asked of the device with a log, and the log shows it. -/
theorem Session.InStep.asks {α : Type} {Q : α → List Entry → Prop} {x : Session σ α}
    {y : Session (Logged σ) α} (hxy : Session.InStep (fun s t => s = t.1) Eq x y)
    (hasks : y.Tidy Call.IsQuestion Q) (hsilent : y.Silent) {b b' : Bench σ}
    {c : Bench (Logged σ)} (hb : b.InStep (fun s t => s = t.1) c)
    (hlog : ∀ e ∈ c.log, e.call.IsQuestion) {r : Except Failure α} (hx : x.on b = (r, b')) :
    ∃ c', y.on c = (r, c') ∧ b'.InStep (fun s t => s = t.1) c' ∧ c'.profile = c.profile ∧
      ∀ e ∈ c'.log, e.call.IsQuestion := by
  obtain ⟨c', hy, hbench⟩ := hxy.on_logged hb hx
  obtain ⟨log, hlog', hquestions, -⟩ := hasks.exists_log hy
  refine ⟨c', hy, hbench, hsilent.profile_eq hy, ?_⟩
  rw [hlog']
  exact List.forall_mem_append.2 ⟨hlog, hquestions⟩

namespace KernelHandle

variable {k : KernelHandle} {env : Environment} {i : Instance} {entries : List (List String)}
  {s : Signature}

/-- The entries of a caller are counted. -/
theorem source?_of_inputs (hinputs : i.inputs = some entries) :
    source? s i = if entries.length = s.inputCount then .ok (.explicit entries)
      else .error (.inputCount s.inputCount entries.length) := by
  rw [source?, hinputs]

/-- A kernel with limits is driven through the matrix, but with an entry that cannot be read this
    does not get beyond allocations. -/
theorem run_of_firstOffence {c c₁ c₂ : Bench (Logged σ)} {limits : GroupLimits} {p : Parameter}
    {text : String} (hinputs : i.inputs = some entries) (hcount : entries.length = s.inputCount)
    (hfirst : FirstOffence s.inputParameters entries p text)
    (hsignature : (k.signature d.logged).on c = (.ok s, c₁))
    (hlimits : (k.limits d.logged env).on c₁ = (.ok limits, c₂)) :
    ∃ runs c' log, (k.run d.logged env i).on c = (.ok runs, c') ∧ c'.profile = c₂.profile ∧
      c'.log = c₂.log ++ log ∧ (∀ e ∈ log, e.call.IsAllocation) ∧
      ((∀ e ∈ log, e.Succeeded) → runs = i.matrix.map (limits.refused text p.type.name)) := by
  let x : Drive σ := ⟨d, k, s, limits, i, .explicit entries⟩
  have hbad (sizes : LaunchSizes) : x.signature.inputsFrom sizes x.source.generator =
      .error (.unreadableValue text p.type.name) := Signature.inputsFrom_of_firstOffence hfirst
  have hsource : source? s i = .ok (.explicit entries) := by
    rw [source?_of_inputs hinputs, if_pos hcount]
  obtain ⟨log, hprofile, hlog, hcalls, hruns⟩ := x.refused_after (.start c₂) i.matrix hbad
  exact ⟨_, _, log, run_of_limits hsignature hsource hlimits, hprofile, hlog, hcalls, hruns⟩

/-- **Bad entries do not reach the device.** Let a kernel with a signature be run on the entries of
    a caller. With a wrong number of entries every configuration is unsupported, whatever its sizes
    are, and the device is only asked about the kernel. With an entry that its parameter cannot
    read, the kernel is never launched and nothing is measured. If its limits are known and there is
    memory for the buffers in front of this entry, then the configurations with sizes that cannot be
    launched are recorded as such, and all others as unsupported, with the text that cannot be
    read. -/
theorem run_of_badInputs (d : Device σ) (k : KernelHandle) (env : Environment) {i : Instance}
    {entries : List (List String)} (hinputs : i.inputs = some entries) {s : Signature}
    {b b₁ : Bench σ} (hsignature : (k.signature d).on b = (.ok s, b₁)) :
    ∃ r b' c, (k.run d env i).on b = (r, b') ∧
      (k.run d.logged env i).on (b.logging []) = (r, c) ∧
      (entries.length ≠ s.inputCount →
        r = .ok (i.matrix.map fun sizes => .explained sizes .unsupportedArguments
          (.inputCount s.inputCount entries.length)) ∧
        b'.profile = b.profile ∧ ∀ e ∈ c.log, e.call.IsQuestion) ∧
      (entries.length = s.inputCount → ¬List.Forall₂ Parameter.Reads s.inputParameters entries →
        b'.profile = b.profile ∧
        (∀ e ∈ c.log, (e.call.IsQuestion ∨ e.call.IsAllocation) ∧ ¬e.call.IsLaunch) ∧
        ∀ limits b₂, (k.limits d env).on b₁ = (.ok limits, b₂) →
          (∀ e ∈ c.log, e.call.IsAllocation → e.Succeeded) →
            ∃ p text, FirstOffence s.inputParameters entries p text ∧
              r = .ok (i.matrix.map (limits.refused text p.type.name))) := by
  -- The same is done on the device with a log, and there it can be seen.
  obtain ⟨-, hend⟩ := k.alike_run d.inStep_logged env i (b := b) (c := b.logging []) ⟨rfl, rfl⟩
  rcases hrun : (k.run d.logged env i).on (b.logging []) with ⟨r, c⟩
  have hresult := (k.run_logged d env i b []).symm
  rw [hrun] at hresult hend
  obtain ⟨c₁, hsignature', hbench, hprofile, hquestions⟩ :=
    (Signature.inStep_query d.inStep_logged k.kernel).asks (Signature.tidy_query k.kernel)
      (silent_signature d.logged k) (c := b.logging []) ⟨rfl, rfl⟩ nofun hsignature
  refine ⟨r, _, c, Prod.ext hresult rfl, rfl, fun hcount => ?_, fun hcount hreads => ?_⟩
  · have hsource : source? s i = .error (.inputCount s.inputCount entries.length) := by
      rw [source?_of_inputs hinputs, if_neg hcount]
    cases hrun.symm.trans (run_of_source_error hsignature' hsource)
    exact ⟨rfl, hend.2.trans hprofile, hquestions⟩
  · obtain ⟨p, text, hfirst⟩ :=
      (reads_or_firstOffence (hcount.trans s.length_inputParameters.symm)).resolve_left hreads
    rcases hlimits : (k.limits d env).on b₁ with ⟨limits?, b₂⟩
    obtain ⟨c₂, hlimits', -, hprofile', hquestions'⟩ := (k.inStep_limits d.inStep_logged env).asks
      (k.tidy_limits env) (silent_limits d.logged k env) hbench hquestions hlimits
    cases limits? with
    | error e =>
      have hsource : source? s i = .ok (.explicit entries) := by
        rw [source?_of_inputs hinputs, if_pos hcount]
      cases hrun.symm.trans (run_of_limits_error hsignature' hsource hlimits')
      refine ⟨hend.2.trans (hprofile'.trans hprofile), fun e he => ?_, nofun⟩
      exact ⟨.inl (hquestions' e he), Call.not_isLaunch_of_isQuestion (.inl (hquestions' e he))⟩
    | ok limits =>
      obtain ⟨runs, c', log, hdriven, hprofile'', hlog, hcalls, hruns⟩ :=
        run_of_firstOffence hinputs hcount hfirst hsignature' hlimits'
      cases hrun.symm.trans hdriven
      refine ⟨hend.2.trans (hprofile''.trans (hprofile'.trans hprofile)), fun e he => ?_, ?_⟩
      · have hcall : e.call.IsQuestion ∨ e.call.IsAllocation := by
          rw [hlog] at he
          exact (List.mem_append.1 he).imp (hquestions' e) (hcalls e)
        exact ⟨hcall, Call.not_isLaunch_of_isQuestion hcall⟩
      · rintro _ _ ⟨⟩ hmemory
        refine ⟨p, text, hfirst, congrArg _ (hruns fun e he => hmemory e ?_ (hcalls e he))⟩
        rw [hlog]
        exact List.mem_append_right _ he

/-- A kernel of a buffer and a scalar. -/
def bytesBench : Bench Simulator.State :=
  scriptedBench [⟨"uchar*", .global, false, none⟩, ⟨"uchar", .workItem, false, none⟩] [] []

/-- Groups of two do not make up three work items. -/
def bytesInstance (entries : List (List String)) : Instance where
  source := ""
  matrix := [⟨2, 1⟩, ⟨3, 2⟩]
  policy := .constant 1
  inputs := some entries

/-- An entry too few, and one that no byte holds. -/
theorem run_of_badInputs_bytes :
    ∃ s b₁ limits b₂, ((mk 0 "k").signature Simulator.device).on bytesBench = (.ok s, b₁) ∧
      ((mk 0 "k").limits Simulator.device ⟨0, ""⟩).on b₁ = (.ok limits, b₂) ∧
      (∃ b', ((mk 0 "k").run Simulator.device ⟨0, ""⟩ (bytesInstance [["1"]])).on bytesBench =
        (.ok [.explained ⟨2, 1⟩ .unsupportedArguments (.inputCount 2 1),
          .explained ⟨3, 2⟩ .unsupportedArguments (.inputCount 2 1)], b')) ∧
      ∃ p text runs b', FirstOffence s.inputParameters [["1", "2"], ["300"]] p text ∧
        runs = [limits.refused text p.type.name ⟨2, 1⟩, limits.refused text p.type.name ⟨3, 2⟩] ∧
        runs.map (·.outcome) = [.unsupportedArguments, .invalidSizes] ∧
        ((mk 0 "k").run Simulator.device ⟨0, ""⟩ (bytesInstance [["1", "2"], ["300"]])).on
          bytesBench = (.ok runs, b') ∧ b'.profile = .empty := by
  have hsignature := Session.on_eq_of_toOption
    (show (((mk 0 "k").signature Simulator.device).on bytesBench).1.toOption =
      some [⟨0, "uchar*", .scalar .uchar, .global, true, false⟩,
        ⟨1, "uchar", .scalar .uchar, .workItem, false, false⟩] by decide +kernel)
  have hlimits := Session.on_eq_of_toOption
    (show (((mk 0 "k").limits Simulator.device ⟨0, ""⟩).on
      (((mk 0 "k").signature Simulator.device).on bytesBench).2).1.toOption =
        some ⟨256, none⟩ by decide +kernel)
  obtain ⟨r, b', c, hfew, -, hskipped, -⟩ :=
    run_of_badInputs Simulator.device (mk 0 "k") ⟨0, ""⟩ (i := bytesInstance [["1"]]) rfl hsignature
  obtain ⟨rfl, -, -⟩ := hskipped (by decide)
  obtain ⟨r, b', c, hbad, hlogged, -, hrefused⟩ := run_of_badInputs Simulator.device (mk 0 "k")
    ⟨0, ""⟩ (i := bytesInstance [["1", "2"], ["300"]]) rfl hsignature
  have hmemory : ∀ e ∈ (((mk 0 "k").run Simulator.device.logged ⟨0, ""⟩
      (bytesInstance [["1", "2"], ["300"]])).on (bytesBench.logging [])).2.log, e.Succeeded := by
    decide +kernel
  have houtcomes : (((mk 0 "k").run Simulator.device ⟨0, ""⟩
      (bytesInstance [["1", "2"], ["300"]])).on bytesBench).1.toOption.map
        (·.map (·.outcome)) = some [.unsupportedArguments, .invalidSizes] := by decide +kernel
  rw [hlogged] at hmemory
  rw [hbad] at houtcomes
  -- The scalar cannot read its entry.
  have hunread : ¬List.Forall₂ Parameter.Reads
      (Signature.inputParameters [⟨0, "uchar*", .scalar .uchar, .global, true, false⟩,
        ⟨1, "uchar", .scalar .uchar, .workItem, false, false⟩]) [["1", "2"], ["300"]] := by
    rintro (_ | ⟨-, _ | ⟨hreads, -⟩⟩)
    obtain ⟨bytes, hbytes⟩ := hreads.parsed "300" (by simp)
    have herror : Element.parse (.scalar .uchar) "300" =
        .error (.unreadableValue "300" "uchar") := by decide
    cases herror.symm.trans hbytes
  obtain ⟨hprofile, -, hruns⟩ := hrefused rfl hunread
  obtain ⟨p, text, hfirst, rfl⟩ := hruns _ _ hlimits fun e he _ => hmemory e he
  exact ⟨_, _, _, _, hsignature, hlimits, ⟨_, hfew⟩, p, text, _, b', hfirst, rfl,
    Option.some.inj houtcomes, hbad, hprofile⟩

end KernelHandle

end KernelDiff
