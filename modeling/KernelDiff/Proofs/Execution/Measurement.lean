import KernelDiff.Outcome
import KernelDiff.Proofs.Execution.Synthesis
import Mathlib.Algebra.Group.Pi.Lemmas
import Mathlib.Algebra.GroupWithZero.Nat

namespace KernelDiff

/-!
# What an execution measures

Measurements are made where buffers are copied and where kernels are launched, and nowhere else.
So a successful execution adds a fixed number of them to a profile, which its signature tells. An
execution that the entries of a caller stop adds none, since it gets nowhere near the device's
queue.

* `Profile.tally` — the number of measurements of every stage;
* `Session.Silent` — a session that measures nothing, whatever it comes to;
* `Session.Adds` — a session that measures the same whenever it succeeds;
* `Signature.tally`, `Signature.adds_execute` — what a successful execution adds;
* `Execution.profile_of_error` — what one adds that fails for its inputs.
-/

variable {σ α β : Type} {d : Device σ}

/-! ### Tallies -/

/-- A number for every stage. -/
abbrev Tally := Stage → Nat

namespace Profile

/-- How many measurements there are of every stage. -/
def tally (p : Profile) : Tally := fun stage => (p.samples stage).length

@[simp] theorem tally_empty : empty.tally = 0 := by
  funext stage
  cases stage <;> rfl

/-- A measurement counts for its own stage only. -/
theorem tally_record (p : Profile) (stage : Stage) (e : Elapsed) :
    (p.record stage e).tally = p.tally + Pi.single stage 1 := by
  funext other
  unfold tally
  rw [Pi.add_apply]
  by_cases h : other = stage
  · subst h
    rw [samples_record_self, List.length_append, Pi.single_eq_same, List.length_singleton]
  · rw [samples_record_of_ne p e h, Pi.single_eq_of_ne h, Nat.add_zero]

end Profile

/-! ### Sessions that measure nothing -/

namespace Session

/-- The session leaves the profile alone, whether it succeeds or fails. -/
def Silent (x : Session σ α) : Prop := ∀ b, (x.on b).2.profile = b.profile

theorem Silent.profile_eq {x : Session σ α} (hx : x.Silent) {b b' : Bench σ}
    {r : Except Failure α} (h : x.on b = (r, b')) : b'.profile = b.profile := by
  rw [← hx b, h]

theorem silent_pure (a : α) : (pure a : Session σ α).Silent := fun _ => rfl

theorem silent_throw (e : Failure) : (throw e : Session σ α).Silent := fun _ => rfl

theorem silent_ofExcept (r : Except Failure α) : (ofExcept r : Session σ α).Silent := by
  intro b
  rw [on_ofExcept]

theorem Silent.bind {x : Session σ α} {f : α → Session σ β} (hx : x.Silent)
    (hf : ∀ a, (f a).Silent) : (x >>= f).Silent := by
  intro b
  rw [on_bind]
  rcases hxb : x.on b with ⟨⟨e⟩ | ⟨a⟩, b₁⟩
  · exact hx.profile_eq hxb
  · exact (hf a b₁).trans (hx.profile_eq hxb)

theorem silent_forM {f : α → Session σ PUnit} (hf : ∀ a, (f a).Silent) (l : List α) :
    (l.forM f).Silent := by
  induction l with
  | nil => exact silent_pure PUnit.unit
  | cons a l ih => exact (hf a).bind fun _ => ih

theorem silent_mapM {f : α → Session σ β} (hf : ∀ a, (f a).Silent) (l : List α) :
    (l.mapM f).Silent := by
  induction l with
  | nil => exact silent_pure []
  | cons a l ih =>
    rw [List.mapM_cons]
    exact (hf a).bind fun r => ih.bind fun rs => silent_pure (r :: rs)

/-! ### Sessions that measure the same whenever they succeed -/

/-- Where the session succeeds, it adds so many measurements. -/
def Adds (t : Tally) (x : Session σ α) : Prop :=
  ∀ (b b' : Bench σ) (a : α), x.on b = (.ok a, b') → b'.profile.tally = b.profile.tally + t

theorem Adds.tally_eq {t : Tally} {x : Session σ α} (hx : x.Adds t) {b b' : Bench σ} {a : α}
    (h : x.on b = (.ok a, b')) : b'.profile.tally = b.profile.tally + t := hx b b' a h

theorem Silent.adds {x : Session σ α} (hx : x.Silent) : x.Adds 0 := by
  intro b b' a h
  rw [hx.profile_eq h, add_zero]

theorem adds_none (stage : Stage) (a : α) : (pure a : Session σ α).Adds (Pi.single stage 0) := by
  rw [Pi.single_zero]
  exact (silent_pure a).adds

/-- Measurements add up along a sequence. -/
theorem Adds.bind {x : Session σ α} {f : α → Session σ β} {t u : Tally} (hx : x.Adds t)
    (hf : ∀ a, (f a).Adds u) : (x >>= f).Adds (t + u) := by
  intro b b' r h
  obtain ⟨a, b₁, ha, hr⟩ := on_bind_eq_ok.1 h
  rw [(hf a).tally_eq hr, hx.tally_eq ha, add_assoc]

/-- What comes before and after the only measured step of a sequence does not count. -/
theorem Silent.bind_adds {x : Session σ α} {f : α → Session σ β} {t : Tally} (hx : x.Silent)
    (hf : ∀ a, (f a).Adds t) : (x >>= f).Adds t := by
  have h := hx.adds.bind hf
  rwa [zero_add] at h

theorem Adds.bind_silent {x : Session σ α} {f : α → Session σ β} {t : Tally} (hx : x.Adds t)
    (hf : ∀ a, (f a).Silent) : (x >>= f).Adds t := by
  have h := hx.bind fun a => (hf a).adds
  rwa [add_zero] at h

variable {cost : α → Tally}

theorem adds_forM {f : α → Session σ PUnit} (hf : ∀ a, (f a).Adds (cost a)) (l : List α) :
    (l.forM f).Adds (l.map cost).sum := by
  induction l with
  | nil => exact (silent_pure PUnit.unit).adds
  | cons a l ih =>
    rw [List.map_cons, List.sum_cons]
    exact (hf a).bind fun _ => ih

theorem adds_mapM {f : α → Session σ β} (hf : ∀ a, (f a).Adds (cost a)) (l : List α) :
    (l.mapM f).Adds (l.map cost).sum := by
  induction l with
  | nil => exact (silent_pure []).adds
  | cons a l ih =>
    rw [List.mapM_cons, List.map_cons, List.sum_cons]
    exact (hf a).bind fun r => ih.bind_silent fun rs => silent_pure (r :: rs)

end Session

/-- One measurement of a stage for each item of a sort is as many as there are such items. -/
theorem Tally.sum_single (stage : Stage) (p : α → Bool) (l : List α) :
    (l.map fun a => (Pi.single stage (if p a then 1 else 0) : Tally)).sum =
      Pi.single stage (l.countP p) := by
  induction l with
  | nil => simp
  | cons a l ih =>
    rw [List.map_cons, List.sum_cons, ih, List.countP_cons, ← Pi.single_add, Nat.add_comm]

namespace Device

theorem silent_call (d : Device σ) (c : Call) : (d.call c).Silent := by
  intro b
  unfold Session.on call
  rcases d.answer c b.device with ⟨⟨e⟩ | ⟨r⟩, s⟩ <;> rfl

/-- The times of a command are one measurement of its stage. -/
theorem adds_recordEvent (d : Device σ) (stage : Stage) (event : Nat) :
    (d.recordEvent stage event).Adds (Pi.single stage 1) := by
  intro b b' u h
  obtain ⟨queued, start, finish, b₁, b₂, b₃, h₁, h₂, h₃, rfl⟩ := d.recordEvent_eq_ok h
  rw [Profile.tally_record, (d.silent_call _).profile_eq h₃, (d.silent_call _).profile_eq h₂,
    (d.silent_call _).profile_eq h₁]

end Device

/-! ### The phases of an execution -/

theorem Buffer.silent_handle (b : Buffer) : (b.handle : Session σ Nat).Silent := by
  unfold Buffer.handle
  cases b.memory with
  | none => exact Session.silent_throw _
  | some handle => exact Session.silent_pure handle

/-- To allocate memory is not measured. -/
theorem Parameter.silent_argument (p : Parameter) (sizes : LaunchSizes) (g : Generator) :
    (p.argument d sizes g).Silent := by
  have hbuffer : (g.buffer d p.type sizes.globalSize.toNat p.isConst).Silent := by
    unfold Generator.buffer
    rcases g.contents p.type sizes.globalSize.toNat with ⟨host?, g₁⟩
    refine (Session.silent_ofExcept host?).bind fun host => ?_
    refine Session.Silent.bind ?_ fun b => Session.silent_pure _
    exact (d.silent_call _).bind fun handle => Session.silent_pure _
  unfold argument
  cases p.space with
  | global => exact hbuffer.bind fun r => Session.silent_pure _
  | constant => exact hbuffer.bind fun r => Session.silent_pure _
  | workGroup => exact Session.silent_pure _
  | workItem =>
    rcases g.scalar p.type with ⟨v?, g₁⟩
    exact (Session.silent_ofExcept v?).bind fun v => Session.silent_pure _

theorem Signature.silent_arguments (s : Signature) (sizes : LaunchSizes) (g : Generator) :
    (s.arguments d sizes g).Silent := by
  induction s generalizing g with
  | nil => exact Session.silent_pure _
  | cons p s ih =>
    refine (p.silent_argument sizes g).bind fun r => ?_
    exact (ih r.2).bind fun rest => Session.silent_pure _

namespace Argument

/-- Whether the argument is a buffer. -/
def isBuffer : Argument → Bool
  | buffer _ => true
  | _ => false

/-- Whether the argument is copied back from the device. -/
def isReturned : Argument → Bool
  | buffer b => !b.readOnly
  | _ => false

theorem adds_upload (a : Argument) :
    (a.upload d).Adds (Pi.single .transferIn (if a.isBuffer then 1 else 0)) := by
  cases a with
  | scalar v => exact Session.adds_none _ ()
  | scratch t length => exact Session.adds_none _ ()
  | buffer b =>
    refine b.silent_handle.bind_adds fun handle => ?_
    exact (d.silent_call _).bind_adds fun event => d.adds_recordEvent _ event

theorem adds_readOutput (a : Argument) :
    (a.readOutput d).Adds (Pi.single .transferOut (if a.isReturned then 1 else 0)) := by
  cases a with
  | scalar v => exact Session.adds_none _ _
  | scratch t length => exact Session.adds_none _ _
  | buffer b =>
    show (Argument.buffer <$> b.readBack d).Adds _
    rw [← bind_pure_comp]
    refine Session.Adds.bind_silent (b.silent_handle.bind_adds fun handle => ?_)
      fun read => Session.silent_pure _
    by_cases hreadOnly : b.readOnly
    · have hreturned : (buffer b).isReturned = false := by simp [isReturned, hreadOnly]
      rw [if_pos hreadOnly, hreturned]
      exact Session.adds_none _ _
    · have hreturned : (buffer b).isReturned = true := by simp [isReturned, hreadOnly]
      rw [if_neg hreadOnly, hreturned]
      refine (d.silent_call _).bind_adds fun r => ?_
      exact (d.adds_recordEvent _ _).bind_silent fun _ => Session.silent_pure _

end Argument

namespace Arguments

/-- Every buffer is copied to the device. -/
theorem adds_upload (args : Arguments) :
    (args.upload d).Adds (Pi.single .transferIn (args.countP Argument.isBuffer)) := by
  rw [← Tally.sum_single]
  exact Session.adds_forM Argument.adds_upload args

theorem silent_bind (args : Arguments) (kernel : Nat) : (args.bind d kernel).Silent := by
  refine Session.silent_forM (fun a => ?_) _
  obtain ⟨a, i⟩ := a
  cases a with
  | scalar v => exact d.silent_call _
  | scratch t length => exact d.silent_call _
  | buffer b => exact b.silent_handle.bind fun handle => d.silent_call _

/-- Every buffer that kernels can write is copied back. -/
theorem adds_readOutputs (args : Arguments) :
    (args.readOutputs d).Adds (Pi.single .transferOut (args.countP Argument.isReturned)) := by
  rw [← Tally.sum_single]
  exact Session.adds_mapM Argument.adds_readOutput args

end Arguments

/-! ### Executions that succeed -/

namespace Parameter

/-- Whether the parameter takes a buffer. -/
def takesBuffer (p : Parameter) : Bool := p.space == .global || p.space == .constant

/-- Arguments are buffers where their parameters take one, and are copied back where these are not
    qualified as constant. -/
theorem isBuffer_of_accepts {p : Parameter} {a : Argument} (h : p.Accepts a) :
    a.isBuffer = p.takesBuffer ∧ a.isReturned = (p.takesBuffer && !p.isConst) := by
  cases a with
  | scalar v => simp [takesBuffer, Argument.isBuffer, Argument.isReturned, h.1]
  | scratch t length => simp [takesBuffer, Argument.isBuffer, Argument.isReturned, h.1]
  | buffer b =>
    obtain ⟨hspace, -, hconst, -⟩ := h
    rcases hspace with hspace | hspace <;>
      simp [takesBuffer, Argument.isBuffer, Argument.isReturned, hspace, hconst]

end Parameter

namespace Signature

/-- The number of parameters that take a buffer. -/
def bufferCount (s : Signature) : Nat := s.countP Parameter.takesBuffer

/-- The number of those that are not qualified as constant. -/
def returnedCount (s : Signature) : Nat := s.countP fun p => p.takesBuffer && !p.isConst

/-- What an execution measures: every buffer on its way in, the launch, and every buffer that
    kernels can write on its way out. -/
def tally (s : Signature) : Tally :=
  Pi.single .transferIn s.bufferCount + Pi.single .execution 1 +
    Pi.single .transferOut s.returnedCount

theorem count_of_accepts {s : Signature} {args : Arguments}
    (h : List.Forall₂ Parameter.Accepts s args) :
    args.countP Argument.isBuffer = s.bufferCount ∧
      args.countP Argument.isReturned = s.returnedCount := by
  unfold bufferCount returnedCount
  induction h with
  | nil => exact ⟨rfl, rfl⟩
  | cons hhead _ ih =>
    obtain ⟨hbuffer, hreturned⟩ := Parameter.isBuffer_of_accepts hhead
    simp only [List.countP_cons, hbuffer, hreturned, ih.1, ih.2, and_self]

end Signature

/-- **Every successful execution measures the same**, on any device and in any configuration. -/
theorem Signature.adds_execute (d : Device σ) (kernel : Nat) (s : Signature) (sizes : LaunchSizes)
    (source : InputSource) : (s.execute d kernel sizes source).Adds s.tally := by
  intro b b' e h
  obtain ⟨phases⟩ := phases_of_execute h
  obtain ⟨hbuffers, hreturned⟩ := count_of_accepts (Execution.accepts h)
  rw [(Arguments.adds_readOutputs _).tally_eq phases.readOutputs,
    (d.adds_recordEvent _ _).tally_eq phases.measure, (d.silent_call _).profile_eq phases.launch,
    (Arguments.silent_bind _ kernel).profile_eq phases.bind,
    (Arguments.adds_upload _).tally_eq phases.upload,
    (s.silent_arguments sizes _).profile_eq phases.arguments, hbuffers, hreturned]
  unfold tally
  simp only [add_assoc]

/-! ### Executions that fail -/

/-- Arguments cannot be made for what the device reports, or there are no inputs. -/
theorem Signature.failure_of_arguments {s : Signature} {sizes : LaunchSizes} {g : Generator}
    {b b' : Bench σ} {e : Failure} (h : (s.arguments d sizes g).on b = (.error e, b')) :
    (∃ report, e = .device report) ∨ inputs sizes s g = .error e := by
  induction s generalizing g b with
  | nil => cases h
  | cons p s ih =>
    rcases Session.on_bind_eq_error.1 h with hp | ⟨⟨a, g₁⟩, b₁, ha, hrest⟩
    · rcases Parameter.argument_eq_error hp with hinput | ⟨host, g', access, -, hcall⟩
      · right
        rw [inputs, hinput]
      · obtain ⟨report, s', -, rfl, -⟩ := d.call_eq_error.1 hcall
        exact .inl ⟨report, rfl⟩
    · rcases Session.on_bind_eq_error.1 hrest with hs | ⟨rest, b₂, -, hreturn⟩
      · refine (ih hs).imp_right fun hinputs => ?_
        rw [inputs, Parameter.input_of_makes (Parameter.makes_of_argument ha)]
        simp only [hinputs, Except.map]
      · cases hreturn

namespace Execution

variable {kernel : Nat} {s : Signature} {sizes : LaunchSizes} {source : InputSource}
variable {b b' : Bench σ}

/-- **What fails for its inputs measures nothing.** An execution that fails, but not at runtime, has
    no inputs, on any device. -/
theorem profile_of_error {e : Failure}
    (h : (s.execute d kernel sizes source).on b = (.error e, b'))
    (he : Outcome.ofFailure e ≠ .runtimeFailure) :
    b'.profile = b.profile ∧ s.inputs sizes source.generator = .error e := by
  rcases Session.on_bind_eq_error.1 h with harguments | ⟨inputs, b₁, -, hrest⟩
  · refine ⟨(s.silent_arguments sizes _).profile_eq harguments, ?_⟩
    rcases Signature.failure_of_arguments harguments with ⟨report, rfl⟩ | hinputs
    · exact absurd rfl he
    · exact hinputs
  · -- With arguments at hand nothing but the device can stop the execution.
    have hsteady := Signature.steady_executeOn (d := d) (P := fun _ => True)
      (E := fun e => Outcome.ofFailure e = .runtimeFailure) (fun _ _ _ => trivial) (fun _ => rfl)
      rfl kernel sizes inputs
    exact absurd (hsteady.failure hrest trivial) he

/-- Once an execution has succeeded, another one in the same configuration and from the same source
    fails at runtime only. -/
theorem failure_of_success {e : Execution} {failure : Failure} {c c' : Bench σ}
    (h : (s.execute d kernel sizes source).on b = (.ok e, b'))
    (h' : (s.execute d kernel sizes source).on c = (.error failure, c')) :
    Outcome.ofFailure failure = .runtimeFailure := by
  by_contra hne
  obtain ⟨phases⟩ := Signature.phases_of_execute h
  have hinputs := Signature.inputs_of_arguments phases.arguments
  rw [(profile_of_error h' hne).2] at hinputs
  cases hinputs

end Execution

end KernelDiff
