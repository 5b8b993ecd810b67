import KernelDiff.Matrix
import KernelDiff.Proofs.Session
import Mathlib.Data.List.Forall2

namespace KernelDiff

/-!
# Devices in step

All that is known of a device are its answers. So where two devices answer alike, all that is done
on them goes alike: the same calls are made, the same values are found and the same is measured.
The reports of failed calls may differ in what a relation `D` allows; they go into messages, but
nothing is decided by them.

* `Device.InStep` — two devices that answer alike;
* `Session.InStep` — sessions that go alike on them;
* `Signature.inStep_execute`, `KernelHandle.alike_run` — an execution and the run of a kernel do.
-/

variable {σ τ α β ε : Type}

/-! ### What is alike -/

/-- Values that are alike, or errors that are. -/
inductive ResultsAlike (A : α → α → Prop) (E : ε → ε → Prop) : Except ε α → Except ε α → Prop
  | ok {a a' : α} (alike : A a a') : ResultsAlike A E (.ok a) (.ok a')
  | error {e e' : ε} (alike : E e e') : ResultsAlike A E (.error e) (.error e')

/-- Results that are alike in states that are related: one value, or two errors. -/
theorem ResultsAlike.cases {E : ε → ε → Prop} {R : σ → τ → Prop} {x : Except ε α × σ}
    {y : Except ε α × τ} (hresult : ResultsAlike Eq E x.1 y.1) (hstate : R x.2 y.2) :
    (∃ a s t, x = (.ok a, s) ∧ y = (.ok a, t) ∧ R s t) ∨
      ∃ e e' s t, x = (.error e, s) ∧ y = (.error e', t) ∧ E e e' ∧ R s t := by
  obtain ⟨r, s⟩ := x
  obtain ⟨r', t⟩ := y
  cases hresult with
  | @ok a _ heq =>
    subst heq
    exact .inl ⟨a, s, t, rfl, rfl, hstate⟩
  | @error e e' alike => exact .inr ⟨e, e', s, t, rfl, rfl, alike, hstate⟩

/-- Failures are alike when they are equal or when the device's reports are alike. -/
inductive Failure.Alike (D : DeviceError → DeviceError → Prop) : Failure → Failure → Prop
  | same (e : Failure) : Alike D e e
  | device {r r' : DeviceError} (alike : D r r') : Alike D (.device r) (.device r')

/-- Runs are alike when they are equal, or when the device has failed in both with alike
    reports. -/
inductive KernelRun.Alike (D : DeviceError → DeviceError → Prop) : KernelRun → KernelRun → Prop
  | same (r : KernelRun) : Alike D r r
  | failed (sizes : LaunchSizes) {r r' : DeviceError} (alike : D r r') :
      Alike D (.explained sizes .runtimeFailure (.device r))
        (.explained sizes .runtimeFailure (.device r'))

theorem KernelRun.alike_explained {D : DeviceError → DeviceError → Prop} (sizes : LaunchSizes)
    {e e' : Failure} (h : e.Alike D e') :
    (KernelRun.explained sizes .runtimeFailure e).Alike D
      (.explained sizes .runtimeFailure e') := by
  cases h with
  | same => exact .same _
  | device alike => exact .failed sizes alike

/-- A failure of the device is one outcome, whatever the report is. -/
theorem KernelRun.alike_stopped {D : DeviceError → DeviceError → Prop} (sizes : LaunchSizes)
    {e e' : Failure} (h : e.Alike D e') :
    (KernelRun.stopped sizes e).Alike D (.stopped sizes e') := by
  cases h with
  | same => exact .same _
  | device alike => exact .failed sizes alike

theorem KernelRun.Alike.outcome_eq {D : DeviceError → DeviceError → Prop} {r r' : KernelRun}
    (h : r.Alike D r') : r.outcome = r'.outcome := by
  cases h <;> rfl

/-- The devices answer alike in related states, and stay in related states. -/
def Device.InStep (R : σ → τ → Prop) (D : DeviceError → DeviceError → Prop) (d : Device σ)
    (d' : Device τ) : Prop :=
  ∀ c s t, R s t → ResultsAlike Eq D (d.answer c s).1 (d'.answer c t).1 ∧
    R (d.answer c s).2 (d'.answer c t).2

/-- A call comes to one answer on devices in step, or fails on both. -/
theorem Device.InStep.cases {R : σ → τ → Prop} {D : DeviceError → DeviceError → Prop}
    {d : Device σ} {d' : Device τ} (hd : d.InStep R D d') (c : Call) {s : σ} {t : τ} (h : R s t) :
    (∃ a s' t', d.answer c s = (.ok a, s') ∧ d'.answer c t = (.ok a, t') ∧ R s' t') ∨
      ∃ e e' s' t', d.answer c s = (.error e, s') ∧ d'.answer c t = (.error e', t') ∧ D e e' ∧
        R s' t' := by
  obtain ⟨hresult, hstate⟩ := hd c s t h
  exact hresult.cases hstate

/-- Devices in related states, with the same measurements. -/
def Bench.InStep (R : σ → τ → Prop) (b : Bench σ) (c : Bench τ) : Prop :=
  R b.device c.device ∧ b.profile = c.profile

namespace Session

/-- Sessions that go alike. -/
def InStep (R : σ → τ → Prop) (D : DeviceError → DeviceError → Prop) (x : Session σ α)
    (y : Session τ α) : Prop :=
  ∀ b c, b.InStep R c →
    ResultsAlike Eq (Failure.Alike D) (x.on b).1 (y.on c).1 ∧ (x.on b).2.InStep R (y.on c).2

variable {R : σ → τ → Prop} {D : DeviceError → DeviceError → Prop}

theorem inStep_pure (a : α) : InStep R D (pure a) (pure a) :=
  fun _ _ h => ⟨.ok rfl, h⟩

theorem inStep_throw (e : Failure) :
    InStep R D (throw e : Session σ α) (throw e : Session τ α) :=
  fun _ _ h => ⟨.error (.same e), h⟩

theorem inStep_ofExcept (x : Except Failure α) :
    InStep R D (ofExcept x) (ofExcept x) := by
  cases x with
  | error e => exact inStep_throw e
  | ok a => exact inStep_pure a

/-- Sessions that go alike come to one value, or both fail. -/
theorem InStep.cases {x : Session σ α} {y : Session τ α} (hxy : InStep R D x y) {b : Bench σ}
    {c : Bench τ} (h : b.InStep R c) :
    (∃ a b' c', x.on b = (.ok a, b') ∧ y.on c = (.ok a, c') ∧ b'.InStep R c') ∨
      ∃ e e' b' c', x.on b = (.error e, b') ∧ y.on c = (.error e', c') ∧ e.Alike D e' ∧
        b'.InStep R c' := by
  obtain ⟨hresult, hbench⟩ := hxy b c h
  exact hresult.cases hbench

theorem InStep.bind {x : Session σ α} {y : Session τ α} {f : α → Session σ β}
    {g : α → Session τ β} (hxy : InStep R D x y) (hf : ∀ a, InStep R D (f a) (g a)) :
    InStep R D (x >>= f) (y >>= g) := by
  intro b c h
  rw [on_bind, on_bind]
  rcases hxy.cases h with ⟨a, b', c', hx, hy, hbench⟩ | ⟨e, e', b', c', hx, hy, alike, hbench⟩
  · rw [hx, hy]
    exact hf a b' c' hbench
  · rw [hx, hy]
    exact ⟨.error alike, hbench⟩

theorem InStep.map {x : Session σ α} {y : Session τ α} (hx : InStep R D x y) (f : α → β) :
    InStep R D (f <$> x) (f <$> y) := by
  rw [← bind_pure_comp, ← bind_pure_comp]
  exact hx.bind fun a => inStep_pure (f a)

theorem inStep_mapM {f : α → Session σ β} {g : α → Session τ β} (l : List α)
    (h : ∀ a, InStep R D (f a) (g a)) : InStep R D (l.mapM f) (l.mapM g) := by
  induction l with
  | nil => exact inStep_pure []
  | cons a l ih =>
    rw [List.mapM_cons, List.mapM_cons]
    exact (h a).bind fun r => ih.bind fun rs => inStep_pure (r :: rs)

theorem inStep_forM {f : α → Session σ PUnit} {g : α → Session τ PUnit} (l : List α)
    (h : ∀ a, InStep R D (f a) (g a)) : InStep R D (l.forM f) (l.forM g) := by
  induction l with
  | nil => exact inStep_pure PUnit.unit
  | cons a l ih => exact (h a).bind fun _ => ih

end Session

/-! ### What is done on devices in step -/

section InStep

variable {R : σ → τ → Prop} {D : DeviceError → DeviceError → Prop}
variable {d : Device σ} {d' : Device τ} (hd : d.InStep R D d')

include hd

namespace Device

theorem inStep_call (c : Call) : Session.InStep R D (d.call c) (d'.call c) := by
  intro b b' h
  unfold Session.on call
  rcases hd.cases c h.1 with ⟨a, s, t, hs, ht, hstate⟩ | ⟨e, e', s, t, hs, ht, alike, hstate⟩
  · rw [hs, ht]
    exact ⟨.ok rfl, hstate, h.2⟩
  · rw [hs, ht]
    exact ⟨.error (.device alike), hstate, h.2⟩

theorem inStep_recordEvent (stage : Stage) (event : Nat) :
    Session.InStep R D (d.recordEvent stage event) (d'.recordEvent stage event) := by
  refine (inStep_call hd _).bind fun queued => (inStep_call hd _).bind fun start => ?_
  refine (inStep_call hd _).bind fun finish => fun b b' h => ?_
  rw [Session.on_modify, Session.on_modify]
  exact ⟨.ok rfl, h.1, by rw [h.2]⟩

end Device

namespace Signature

theorem inStep_query (kernel : Nat) : Session.InStep R D (query d kernel) (query d' kernel) := by
  refine (Device.inStep_call hd _).bind fun count => Session.inStep_mapM _ fun index => ?_
  refine (Device.inStep_call hd _).bind fun typeName => ?_
  refine (Device.inStep_call hd _).bind fun space => ?_
  refine (Device.inStep_call hd _).bind fun qualified => ?_
  exact (Session.inStep_ofExcept _).bind fun p => Session.inStep_pure _

end Signature

theorem Generator.inStep_buffer (t : ElementType) (length : Nat) (readOnly : Bool)
    (g : Generator) :
    Session.InStep R D (g.buffer d t length readOnly) (g.buffer d' t length readOnly) := by
  unfold buffer
  refine (Session.inStep_ofExcept _).bind fun host => Session.InStep.bind ?_ fun b => ?_
  · exact (Device.inStep_call hd _).bind fun handle => Session.inStep_pure _
  · exact Session.inStep_pure _

theorem Parameter.inStep_argument (p : Parameter) (sizes : LaunchSizes) (g : Generator) :
    Session.InStep R D (p.argument d sizes g) (p.argument d' sizes g) := by
  unfold argument
  cases p.space with
  | global => exact (Generator.inStep_buffer hd _ _ _ _).bind fun r => Session.inStep_pure _
  | constant => exact (Generator.inStep_buffer hd _ _ _ _).bind fun r => Session.inStep_pure _
  | workGroup => exact Session.inStep_pure _
  | workItem => exact (Session.inStep_ofExcept _).bind fun value => Session.inStep_pure _

theorem Signature.inStep_arguments (sizes : LaunchSizes) (s : Signature) (g : Generator) :
    Session.InStep R D (arguments d sizes s g) (arguments d' sizes s g) := by
  induction s generalizing g with
  | nil => exact Session.inStep_pure _
  | cons p s ih =>
    refine (Parameter.inStep_argument hd p sizes g).bind fun r => ?_
    exact (ih r.2).bind fun rest => Session.inStep_pure _

omit hd in
theorem Buffer.inStep_handle (b : Buffer) :
    Session.InStep R D (b.handle : Session σ Nat) (b.handle : Session τ Nat) := by
  unfold handle
  split
  · exact Session.inStep_pure _
  · exact Session.inStep_throw _

namespace Arguments

theorem inStep_upload (args : Arguments) :
    Session.InStep R D (args.upload d) (args.upload d') := by
  refine Session.inStep_forM args fun a => ?_
  cases a with
  | scalar value => exact Session.inStep_pure _
  | scratch t length => exact Session.inStep_pure _
  | buffer b =>
    refine (Buffer.inStep_handle b).bind fun handle => ?_
    exact (Device.inStep_call hd _).bind fun event => Device.inStep_recordEvent hd _ _

theorem inStep_bind (args : Arguments) (kernel : Nat) :
    Session.InStep R D (args.bind d kernel) (args.bind d' kernel) := by
  refine Session.inStep_forM _ fun r => ?_
  obtain ⟨a, index⟩ := r
  cases a with
  | scalar value => exact Device.inStep_call hd _
  | scratch t length => exact Device.inStep_call hd _
  | buffer b => exact (Buffer.inStep_handle b).bind fun handle => Device.inStep_call hd _

theorem inStep_readOutputs (args : Arguments) :
    Session.InStep R D (args.readOutputs d) (args.readOutputs d') := by
  refine Session.inStep_mapM args fun a => ?_
  cases a with
  | scalar value => exact Session.inStep_pure _
  | scratch t length => exact Session.inStep_pure _
  | buffer b =>
    refine Session.InStep.map ((Buffer.inStep_handle b).bind fun handle => ?_) _
    split
    · exact Session.inStep_pure _
    · refine (Device.inStep_call hd _).bind fun r => ?_
      exact (Device.inStep_recordEvent hd _ _).bind fun _ => Session.inStep_pure _

end Arguments

/-- An execution goes alike on devices in step. -/
theorem Signature.inStep_execute (kernel : Nat) (s : Signature) (sizes : LaunchSizes)
    (source : InputSource) :
    Session.InStep R D (s.execute d kernel sizes source) (s.execute d' kernel sizes source) := by
  refine (inStep_arguments hd sizes s _).bind fun inputs => ?_
  refine (Arguments.inStep_upload hd inputs).bind fun _ => ?_
  refine (Arguments.inStep_bind hd inputs kernel).bind fun _ => ?_
  refine (Device.inStep_call hd _).bind fun event => ?_
  refine (Device.inStep_recordEvent hd _ _).bind fun _ => ?_
  exact (Arguments.inStep_readOutputs hd inputs).bind fun outputs => Session.inStep_pure _

namespace KernelHandle

variable (k : KernelHandle)

theorem inStep_limits (env : Environment) :
    Session.InStep R D (k.limits d env) (k.limits d' env) := by
  refine (Device.inStep_call hd _).bind fun kernelMax => ?_
  refine (Device.inStep_call hd _).bind fun compiled => ?_
  exact (Device.inStep_call hd _).bind fun deviceMax => Session.inStep_pure _

theorem inStep_executeTwice (s : Signature) (sizes : LaunchSizes) (source : InputSource) :
    Session.InStep R D (k.executeTwice d s sizes source) (k.executeTwice d' s sizes source) := by
  refine (Signature.inStep_execute hd _ s sizes source).bind fun first => ?_
  exact (Signature.inStep_execute hd _ s sizes source).bind fun second => Session.inStep_pure _

theorem inStep_classify (s : Signature) (sizes : LaunchSizes) (i : Instance) (e : Execution) :
    Session.InStep R D (k.classify d s sizes i e) (k.classify d' s sizes i e) := by
  unfold classify
  split
  · exact Session.inStep_pure _
  · split
    · exact (Signature.inStep_execute hd _ s sizes _).bind fun other => Session.inStep_pure _
    · exact Session.inStep_pure _

theorem alike_runConfiguration (s : Signature) (i : Instance) (source : InputSource)
    (references : References) (sizes : LaunchSizes) {b : Bench σ} {c : Bench τ}
    (h : b.InStep R c) :
    (k.runConfiguration d s i source references sizes b).1.Alike D
        (k.runConfiguration d' s i source references sizes c).1 ∧
      (k.runConfiguration d s i source references sizes b).2.1 =
        (k.runConfiguration d' s i source references sizes c).2.1 ∧
      (k.runConfiguration d s i source references sizes b).2.2.InStep R
        (k.runConfiguration d' s i source references sizes c).2.2 := by
  unfold runConfiguration
  rcases (inStep_executeTwice hd k s sizes source).cases h with
    ⟨⟨first, second⟩, b₁, c₁, htwice, htwice', hbench⟩ |
    ⟨e, e', b₁, c₁, htwice, htwice', alike, hbench⟩
  · simp only [htwice, htwice']
    -- The comparisons are made on the host, and they are the same.
    cases disagreement? first.outputs second.outputs (references.find? sizes.globalSize) with
    | some o => exact ⟨.same _, rfl, hbench⟩
    | none =>
      simp only
      rcases (inStep_classify hd k s sizes i
        (if (references.find? sizes.globalSize).isNone then second else first)).cases hbench with
        ⟨o, b₂, c₂, hclassify, hclassify', hbench⟩ |
        ⟨e, e', b₂, c₂, hclassify, hclassify', alike, hbench⟩
      · rw [hclassify, hclassify']
        exact ⟨.same _, rfl, hbench⟩
      · rw [hclassify, hclassify']
        exact ⟨KernelRun.alike_stopped sizes alike, rfl, hbench⟩
  · simp only [htwice, htwice']
    exact ⟨KernelRun.alike_stopped sizes alike, trivial, hbench⟩

theorem alike_runMatrix (s : Signature) (limits : GroupLimits) (i : Instance)
    (source : InputSource) (m : List LaunchSizes) (references : References) {b : Bench σ}
    {c : Bench τ} (h : b.InStep R c) :
    List.Forall₂ (KernelRun.Alike D) (k.runMatrix d s limits i source m references b).1
        (k.runMatrix d' s limits i source m references c).1 ∧
      (k.runMatrix d s limits i source m references b).2.InStep R
        (k.runMatrix d' s limits i source m references c).2 := by
  induction m generalizing references b c with
  | nil => exact ⟨.nil, h⟩
  | cons sizes m ih =>
    unfold runMatrix
    cases limits.problem? sizes with
    | some p =>
      obtain ⟨hruns, hbench⟩ := ih references h
      exact ⟨.cons (.same _) hruns, hbench⟩
    | none =>
      obtain ⟨hrun, hreferences, hbench⟩ :=
        alike_runConfiguration hd k s i source references sizes h
      simp only
      rw [← hreferences]
      obtain ⟨hruns, hbench'⟩ := ih (k.runConfiguration d s i source references sizes b).2.1 hbench
      exact ⟨.cons hrun hruns, hbench'⟩

/-- **A kernel goes alike on devices in step**: it has the same runs, up to the reports in messages,
    and the same is measured. -/
theorem alike_run (env : Environment) (i : Instance) {b : Bench σ} {c : Bench τ}
    (h : b.InStep R c) :
    ResultsAlike (List.Forall₂ (KernelRun.Alike D)) (Failure.Alike D) ((k.run d env i).on b).1
        ((k.run d' env i).on c).1 ∧
      ((k.run d env i).on b).2.InStep R ((k.run d' env i).on c).2 := by
  have hskip (e : Failure) : List.Forall₂ (KernelRun.Alike D) (skipAll i e) (skipAll i e) :=
    List.forall₂_same.2 fun _ _ => .same _
  change ResultsAlike _ _ (k.run d env i b).1 (k.run d' env i c).1 ∧
    (k.run d env i b).2.InStep R (k.run d' env i c).2
  unfold run signature
  rcases (Signature.inStep_query hd k.kernel).cases h with
    ⟨s, b₁, c₁, hquery, hquery', hbench⟩ | ⟨e, e', b₁, c₁, hquery, hquery', alike, hbench⟩
  · simp only [hquery, hquery']
    cases source? s i with
    | error e => exact ⟨.ok (hskip e), hbench⟩
    | ok source =>
      simp only
      rcases (inStep_limits hd k env).cases hbench with
        ⟨limits, b₂, c₂, hlimits, hlimits', hbench⟩ |
        ⟨e, e', b₂, c₂, hlimits, hlimits', alike, hbench⟩
      · simp only [hlimits, hlimits']
        obtain ⟨hruns, hbench⟩ := alike_runMatrix hd k s limits i source i.matrix [] hbench
        exact ⟨.ok hruns, hbench⟩
      · simp only [hlimits, hlimits']
        exact ⟨.error alike, hbench⟩
  · simp only [hquery, hquery']
    cases alike with
    | same =>
      -- Unsupported parameters are a reason to skip all configurations, and nothing else is.
      cases e with
      | unsupportedArgument index typeName => exact ⟨.ok (hskip _), hbench⟩
      | _ => exact ⟨.error (.same _), hbench⟩
    | device alike => exact ⟨.error (.device alike), hbench⟩

end KernelHandle

end InStep

end KernelDiff
