import KernelDiff.Proofs.Execution.Attempt
import KernelDiff.Proofs.LaunchSizes
import KernelDiff.Proofs.Matrix.Classification

namespace KernelDiff

/-!
# Every launch is safe

Whatever a device answers, and whichever calls fail, the log of a kernel's run consists of questions
about the kernel and of attempts to execute it. All attempts are safe, and they are made only for
sizes of the matrix that keep all rules. Sizes are skipped where they break a rule, or where there
are no work items at all.

* `Bench.Attempted` — nothing but attempts of some kind is logged in between;
* `Drive.MayAttempt`, `Drive.attempted_after` — the attempts for the configurations of a matrix;
* `KernelHandle.run_launches` — what is launched in a kernel's run, and what is skipped.
-/

variable {σ : Type}

/-! ### Attempts -/

/-- Nothing but attempts with the property is logged between two benches. -/
def Bench.Attempted (P : Attempt → Prop) (b b' : Bench (Logged σ)) : Prop :=
  ∃ attempts : List Attempt, b'.log = b.log ++ attempts.flatMap Attempt.log ∧ ∀ y ∈ attempts, P y

namespace Bench.Attempted

variable {P Q : Attempt → Prop} {b b₁ b₂ : Bench (Logged σ)}

theorem refl (P : Attempt → Prop) (b : Bench (Logged σ)) : b.Attempted P b :=
  ⟨[], (List.append_nil b.log).symm, by simp⟩

theorem trans (h : b.Attempted P b₁) (h' : b₁.Attempted P b₂) : b.Attempted P b₂ := by
  obtain ⟨attempts, hlog, hP⟩ := h
  obtain ⟨attempts', hlog', hP'⟩ := h'
  refine ⟨attempts ++ attempts', ?_, fun y hy => ?_⟩
  · rw [hlog', hlog, List.flatMap_append, List.append_assoc]
  · exact (List.mem_append.1 hy).elim (hP y) (hP' y)

theorem mono (h : b.Attempted P b₁) (hPQ : ∀ y, P y → Q y) : b.Attempted Q b₁ := by
  obtain ⟨attempts, hlog, hP⟩ := h
  exact ⟨attempts, hlog, fun y hy => hPQ y (hP y hy)⟩

end Bench.Attempted

namespace Session

variable {α β : Type} {P : Attempt → Prop}

/-- The session logs nothing but attempts with the property. -/
def Attempts (P : Attempt → Prop) (x : Session (Logged σ) α) : Prop :=
  ∀ b : Bench (Logged σ), b.Attempted P (x.on b).2

theorem attempts_pure (a : α) : (pure a : Session (Logged σ) α).Attempts P :=
  fun b => .refl P b

theorem Attempts.bind {x : Session (Logged σ) α} {f : α → Session (Logged σ) β}
    (hx : x.Attempts P) (hf : ∀ a, (f a).Attempts P) : (x >>= f).Attempts P := by
  intro b
  have hfirst := hx b
  rw [on_bind]
  rcases hxb : x.on b with ⟨⟨e⟩ | ⟨a⟩, b₁⟩
  · rwa [hxb] at hfirst
  · rw [hxb] at hfirst
    exact hfirst.trans (hf a b₁)

/-- Attempts are all that is logged up to where a session ends. -/
theorem Attempts.attempted {x : Session (Logged σ) α} (hx : x.Attempts P) {b b' : Bench (Logged σ)}
    {r : Except Failure α} (h : x.on b = (r, b')) : b.Attempted P b' := by
  have hb := hx b
  rwa [h] at hb

end Session

namespace Drive

/-- The same drive on the device with a log. -/
def logged (x : Drive σ) : Drive (Logged σ) :=
  ⟨x.device.logged, x.kernel, x.signature, x.limits, x.inst, x.source⟩

/-- The attempts that a matrix leads to: its sizes are executed if they can be launched, on the
    values of the instance or on other values. -/
structure MayAttempt (x : Drive σ) (m : List LaunchSizes) (y : Attempt) : Prop where
  mem : y.sizes ∈ m
  launchable : x.limits.problem? y.sizes = none
  source : y.source = x.source ∨ y.source = .generated x.inst.policy.alternate
  safe : y.Safe x.signature x.kernel.kernel

theorem MayAttempt.mono {x : Drive σ} {m m' : List LaunchSizes} {y : Attempt}
    (h : x.MayAttempt m y) (hm : m ⊆ m') : x.MayAttempt m' y :=
  { h with mem := hm h.mem }

variable (x : Drive σ)

/-- One execution is one attempt. -/
theorem attempts_execute {sizes : LaunchSizes} (hp : x.limits.problem? sizes = none)
    {source : InputSource}
    (hsource : source = x.source ∨ source = .generated x.inst.policy.alternate) :
    (x.signature.execute x.device.logged x.kernel.kernel sizes source).Attempts
      (x.MayAttempt [sizes]) := by
  intro b
  obtain ⟨log, hlog, hsafe⟩ := x.signature.logs_execute x.device x.kernel.kernel sizes source b
  refine ⟨[⟨sizes, source, log⟩], by simpa using hlog, fun y hy => ?_⟩
  obtain rfl := List.mem_singleton.1 hy
  exact ⟨by simp, hp, hsource, hsafe⟩

theorem attempts_executeTwice {sizes : LaunchSizes} (hp : x.limits.problem? sizes = none) :
    (x.kernel.executeTwice x.device.logged x.signature sizes x.source).Attempts
      (x.MayAttempt [sizes]) := by
  refine (x.attempts_execute hp (.inl rfl)).bind fun first => ?_
  exact (x.attempts_execute hp (.inl rfl)).bind fun second => Session.attempts_pure _

theorem attempts_classify {sizes : LaunchSizes} (hp : x.limits.problem? sizes = none)
    (e : Execution) :
    (x.kernel.classify x.device.logged x.signature sizes x.inst e).Attempts
      (x.MayAttempt [sizes]) := by
  unfold KernelHandle.classify
  split
  · exact Session.attempts_pure _
  · split
    · exact (x.attempts_execute hp (.inr rfl)).bind fun other => Session.attempts_pure _
    · exact Session.attempts_pure _

/-- A configuration is attempted if its sizes can be launched, and otherwise nothing is. -/
theorem attempted_step (c : Checkpoint (Logged σ)) (sizes : LaunchSizes) :
    c.bench.Attempted (x.MayAttempt [sizes]) (x.logged.step c sizes).2.bench := by
  cases hp : x.limits.problem? sizes with
  | some p =>
    rw [step_of_problem (x := x.logged) hp]
    exact .refl _ c.bench
  | none =>
    rw [step_of_launchable (x := x.logged) hp]
    unfold KernelHandle.runConfiguration logged
    simp only
    rcases htwice : (x.kernel.executeTwice x.device.logged x.signature sizes x.source).on
      c.bench with ⟨⟨e⟩ | ⟨first, second⟩, b⟩
    · exact (x.attempts_executeTwice hp).attempted htwice
    · have hb := (x.attempts_executeTwice hp).attempted htwice
      simp only
      cases disagreement? first.outputs second.outputs (c.references.find? sizes.globalSize) with
      | some o => exact hb
      | none =>
        -- The rerun is one more attempt for the same sizes, whether it is stopped or not.
        simp only
        rcases hclassify : (x.kernel.classify x.device.logged x.signature sizes x.inst
          (if (c.references.find? sizes.globalSize).isNone then second else first)).on b with
          ⟨⟨failure⟩ | ⟨o⟩, b'⟩
        · exact hb.trans ((x.attempts_classify hp _).attempted hclassify)
        · exact hb.trans ((x.attempts_classify hp _).attempted hclassify)

theorem attempted_after (c : Checkpoint (Logged σ)) (m : List LaunchSizes) :
    c.bench.Attempted (x.MayAttempt m) (x.logged.after c m).bench := by
  induction m generalizing c with
  | nil => exact .refl _ c.bench
  | cons sizes m ih =>
    rw [after_cons]
    have hstep := x.attempted_step c sizes
    refine (hstep.mono fun y hy => hy.mono ?_).trans ((ih _).mono fun y hy => hy.mono ?_)
    · simp
    · simp

end Drive

/-! ### Questions -/

/-- The call asks about a kernel or a device. -/
def Call.IsQuestion : Call → Prop
  | parameterCount _ | parameterType .. | parameterSpace .. | parameterConst ..
  | kernelGroupSize _ | compiledGroupSize _ | deviceGroupSize _ => True
  | _ => False

variable {d : Device σ}

theorem Signature.tidy_query (kernel : Nat) :
    (query d.logged kernel).Tidy Call.IsQuestion fun _ _ => True := by
  refine d.tidy_call_bind trivial fun count => Session.tidy_mapM (fun index => ?_) _
  refine d.tidy_call_bind trivial fun typeName => d.tidy_call_bind trivial fun space => ?_
  refine d.tidy_call_bind trivial fun qualified => ?_
  exact (Session.tidy_ofExcept (Q := fun _ _ => True) fun _ _ => trivial).bind fun _ _ _ =>
    Session.tidy_pure trivial

/-- The limits are what the device answers to three questions. -/
theorem KernelHandle.tidy_limits (k : KernelHandle) (env : Environment) :
    (k.limits d.logged env).Tidy Call.IsQuestion fun limits log =>
      ∃ kernelMax deviceMax compiled, limits = .ofAnswers kernelMax deviceMax compiled ∧
        ⟨.kernelGroupSize k.kernel, .ok kernelMax⟩ ∈ log ∧
        ⟨.deviceGroupSize env.device, .ok deviceMax⟩ ∈ log ∧
        ⟨.compiledGroupSize k.kernel, .ok compiled⟩ ∈ log := by
  refine d.tidy_call_bind trivial fun kernelMax => ?_
  refine d.tidy_call_bind trivial fun compiled => ?_
  refine d.tidy_call_bind trivial fun deviceMax => ?_
  exact Session.tidy_pure ⟨kernelMax, deviceMax, compiled, rfl, by simp, by simp, by simp⟩

/-! ### The run of a kernel -/

namespace KernelHandle

/-- What is skipped as a whole is not skipped for its sizes. -/
theorem outcome_ne_of_skipAll {i : Instance} {e : Failure} (runs : List KernelRun)
    (h : (Except.ok (skipAll i e) : Except Failure _) = .ok runs) :
    ∀ run ∈ runs, run.outcome ≠ .invalidSizes := by
  cases h
  intro run hrun
  obtain ⟨sizes, -, rfl⟩ := List.mem_map.1 hrun
  simp [KernelRun.explained]

/-- A run comes to its matrix with questions alone, and then it knows three answers, or it ends with
    them. -/
theorem run_questions (d : Device σ) (k : KernelHandle) (env : Environment) (i : Instance)
    {b : Bench (Logged σ)} (hb : b.log = []) :
    (∃ r c, (k.run d.logged env i).on b = (r, c) ∧ (∀ e ∈ c.log, e.call.IsQuestion) ∧
      ∀ runs, r = .ok runs → ∀ run ∈ runs, run.outcome ≠ .invalidSizes) ∨
    ∃ s b₁ source kernelMax deviceMax compiled b₂,
      (k.signature d.logged).on b = (.ok s, b₁) ∧ source? s i = .ok source ∧
      (k.limits d.logged env).on b₁ = (.ok (.ofAnswers kernelMax deviceMax compiled), b₂) ∧
      (∀ e ∈ b₂.log, e.call.IsQuestion) ∧
      ⟨.kernelGroupSize k.kernel, .ok kernelMax⟩ ∈ b₂.log ∧
      ⟨.deviceGroupSize env.device, .ok deviceMax⟩ ∈ b₂.log ∧
      ⟨.compiledGroupSize k.kernel, .ok compiled⟩ ∈ b₂.log := by
  rcases hsignature : (k.signature d.logged).on b with ⟨r, b₁⟩
  obtain ⟨log, hlog, hquestions, -⟩ := (Signature.tidy_query k.kernel).exists_log hsignature
  rw [hb, List.nil_append] at hlog
  rw [← hlog] at hquestions
  cases r with
  | error e =>
    left
    rcases run_of_signature_error env i hsignature with hrun | hrun
    · exact ⟨_, b₁, hrun, hquestions, outcome_ne_of_skipAll⟩
    · exact ⟨_, b₁, hrun, hquestions, by simp⟩
  | ok s =>
    cases hsource : source? s i with
    | error e =>
      exact .inl ⟨_, b₁, run_of_source_error hsignature hsource, hquestions,
        outcome_ne_of_skipAll⟩
    | ok source =>
      rcases hlimits : (k.limits d.logged env).on b₁ with ⟨r, b₂⟩
      obtain ⟨log', hlog', hquestions', -, hanswers⟩ := (k.tidy_limits env).exists_log hlimits
      have hquestions : ∀ e ∈ b₂.log, e.call.IsQuestion := by
        rw [hlog']
        exact fun e he => (List.mem_append.1 he).elim (hquestions e) (hquestions' e)
      cases r with
      | error e =>
        exact .inl ⟨_, b₂, run_of_limits_error hsignature hsource hlimits, hquestions, by simp⟩
      | ok limits =>
        obtain ⟨-, kernelMax, deviceMax, compiled, rfl, hkernel, hdevice, hcompiled⟩ :=
          hanswers limits rfl
        refine .inr ⟨s, b₁, source, kernelMax, deviceMax, compiled, b₂, rfl, hsource, hlimits,
          hquestions, ?_⟩
        rw [hlog']
        exact ⟨by simp [hkernel], by simp [hdevice], by simp [hcompiled]⟩

/-- **Every launch is safe.** Whatever the device answers, and whichever calls fail, what is called
    in a kernel's run is questions and then attempts to execute the kernel, all of them safe: the
    arguments of an attempt are created, written and bound in the attempt itself and right before
    its launch, and no attempt goes on after a call that failed. There are attempts only for sizes
    of the matrix that fit what the device has answered, and a configuration is skipped for its
    sizes exactly where they do not fit or there is no work. -/
theorem run_launches (d : Device σ) (k : KernelHandle) (env : Environment) (i : Instance)
    (b : Bench σ) :
    ∃ (r : Except Failure (List KernelRun)) (c : Bench (Logged σ)) (questions : List Entry)
      (attempts : List Attempt),
      (k.run d.logged env i).on (b.logging []) = (r, c) ∧ ((k.run d env i).on b).1 = r ∧
      c.log = questions ++ attempts.flatMap Attempt.log ∧
      (∀ e ∈ questions, e.call.IsQuestion) ∧
      ((attempts = [] ∧ ∀ runs, r = .ok runs → ∀ run ∈ runs, run.outcome ≠ .invalidSizes) ∨
        ∃ s source kernelMax deviceMax compiled runs,
          ((k.signature d).on b).1 = .ok s ∧ source? s i = .ok source ∧
          ⟨.kernelGroupSize k.kernel, .ok kernelMax⟩ ∈ questions ∧
          ⟨.deviceGroupSize env.device, .ok deviceMax⟩ ∈ questions ∧
          ⟨.compiledGroupSize k.kernel, .ok compiled⟩ ∈ questions ∧
          (∀ x ∈ attempts, x.sizes ∈ i.matrix ∧ 0 < x.sizes.globalSize.toNat ∧
            x.sizes.Fits kernelMax deviceMax compiled ∧
            (x.source = source ∨ x.source = .generated i.policy.alternate) ∧
            x.Safe s k.kernel) ∧
          r = .ok runs ∧ ∀ n (hn : n < i.matrix.length), ∃ run, runs[n]? = some run ∧
            run.sizes = i.matrix[n] ∧
            (run.outcome = .invalidSizes ↔ ¬ (0 < i.matrix[n].globalSize.toNat ∧
              i.matrix[n].Fits kernelMax deviceMax compiled))) := by
  have hresult := (k.run_logged d env i b []).symm
  rcases run_questions d k env i (b := b.logging []) rfl with
    ⟨r, c, hrun, hquestions, hskip⟩ |
    ⟨s, b₁, source, kernelMax, deviceMax, compiled, b₂, hsignature, hsource, hlimits, hquestions,
      hkernel, hdevice, hcompiled⟩
  · rw [hrun] at hresult
    exact ⟨r, c, c.log, [], hrun, hresult, by simp, hquestions, .inl ⟨rfl, hskip⟩⟩
  -- From here on the kernel is driven through the matrix, and attempts are all that is logged.
  let x : Drive σ := ⟨d, k, s, .ofAnswers kernelMax deviceMax compiled, i, source⟩
  have hrun : (k.run d.logged env i).on (b.logging []) =
      (.ok (x.logged.runs (.start b₂) i.matrix), (x.logged.after (.start b₂) i.matrix).bench) :=
    run_of_limits hsignature hsource hlimits
  rw [hrun] at hresult
  obtain ⟨attempts, hlog, hattempts⟩ := x.attempted_after (.start b₂) i.matrix
  have hs : ((k.signature d).on b).1 = .ok s := by
    rw [← k.signature_logged d b [], hsignature]
  refine ⟨_, _, b₂.log, attempts, hrun, hresult, hlog, hquestions, .inr ⟨s, source, kernelMax,
    deviceMax, compiled, _, hs, hsource, hkernel, hdevice, hcompiled, fun y hy => ?_, rfl,
    fun n hn => ?_⟩⟩
  · have hmay := hattempts y hy
    obtain ⟨hglobal, hfits⟩ :=
      (GroupLimits.problem?_eq_none_iff y.sizes kernelMax deviceMax compiled).1 hmay.launchable
    exact ⟨hmay.mem, hglobal, hfits, hmay.source, hmay.safe⟩
  · have hlaw := x.logged.classified_step
      (x.logged.after (.start b₂) (i.matrix.take n)) i.matrix[n]
    refine ⟨_, x.logged.getElem?_runs _ hn, hlaw.sizes_eq, ?_⟩
    rw [hlaw.rejected, ← GroupLimits.problem?_eq_none_iff, ← Option.ne_none_iff_exists']
    rfl

/-- Sizes that fit the answers of a device are never skipped for it. -/
def FittingSizesAreRun (kernelMax deviceMax : Nat) (compiled : Nat × Nat × Nat)
    (runs : List KernelRun) : Prop :=
  ∀ run ∈ runs, run.sizes.Fits kernelMax deviceMax compiled → run.outcome ≠ .invalidSizes

/-- A kernel of one scalar, which does nothing. -/
def idleBench : Bench Simulator.State :=
  scriptedBench [⟨"uchar", .workItem, false, none⟩] [] []

/-- No work items make up no groups of one. -/
def idleInstance : Instance where
  source := ""
  matrix := [⟨0, 1⟩]
  policy := .constant 1

theorem not_fittingSizesAreRun_idle :
    ∃ runs b' b'', ((mk 0 "k").run Simulator.device ⟨0, ""⟩ idleInstance).on idleBench =
        (.ok runs, b') ∧
      ((mk 0 "k").limits Simulator.device ⟨0, ""⟩).on idleBench =
        (.ok (.ofAnswers 256 256 (0, 0, 0)), b'') ∧
      ¬ FittingSizesAreRun 256 256 (0, 0, 0) runs := by
  have hlimits := Session.on_eq_of_toOption
    (show (((mk 0 "k").limits Simulator.device ⟨0, ""⟩).on idleBench).1.toOption =
      some (.ofAnswers 256 256 (0, 0, 0)) by decide +kernel)
  have hruns := Session.on_eq_of_toOption
    (show (((mk 0 "k").run Simulator.device ⟨0, ""⟩ idleInstance).on idleBench).1.toOption =
      some [.explained ⟨0, 1⟩ .invalidSizes
        (.invalidSizes (SizeProblem.notPositive ⟨0, 1⟩).message)] by decide +kernel)
  have hfits : LaunchSizes.Fits ⟨0, 1⟩ 256 256 (0, 0, 0) :=
    ⟨by decide, by decide, by decide, by decide, by simp⟩
  exact ⟨_, _, _, hruns, hlimits, fun h => h _ (List.mem_singleton.2 rfl) hfits rfl⟩

end KernelHandle

end KernelDiff
