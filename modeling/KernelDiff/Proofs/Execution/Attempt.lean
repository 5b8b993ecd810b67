import KernelDiff.Proofs.Device.Log
import KernelDiff.Proofs.Execution.Memory
import KernelDiff.Proofs.Execution.Synthesis

namespace KernelDiff

/-!
# What an execution calls

An execution that gets to its launch has created and written all of its buffers before, and has
bound every parameter, all in order. An execution that fails makes no call after the one that
failed. So no launch finds anything of an earlier execution bound, and none is made on buffers that
were not written.

* `Arguments.Prepared` — the calls that come before a launch;
* `Attempt.Safe` — what an execution may call, whether it comes to an end or not;
* `Signature.logs_execute` — every execution keeps to this.
-/

variable {σ : Type} {d : Device σ}

/-! ### The calls before a launch -/

/-- The call runs a kernel. -/
def Call.IsLaunch : Call → Prop
  | launch .. => True
  | _ => False

/-- The call copies to the host or asks for a time. -/
def Call.IsReading : Call → Prop
  | read .. | timestamp .. => True
  | _ => False

theorem Call.not_isLaunch_of_isReading {c : Call} (h : c.IsReading) : ¬ c.IsLaunch := by
  cases c <;> first | exact h.elim | exact id

/-- What kernels may do with a buffer. -/
def Buffer.access (b : Buffer) : Access := if b.readOnly then .readOnly else .readWrite

namespace Argument

/-- The calls that make an argument: memory for a buffer. -/
inductive Creates : Argument → List Entry → Prop
  | scalar (v : Value) : Creates (.scalar v) []
  | scratch (t : ElementType) (length : Nat) : Creates (.scratch t length) []
  | buffer {b : Buffer} {handle : Nat} (memory : b.memory = some handle) :
      Creates (.buffer b) [⟨.createBuffer b.access b.host.length, .ok handle⟩]

/-- The calls that copy an argument to the device: all elements of a buffer are written. -/
inductive Copies : Argument → List Entry → Prop
  | scalar (v : Value) : Copies (.scalar v) []
  | scratch (t : ElementType) (length : Nat) : Copies (.scratch t length) []
  | buffer {b : Buffer} {handle : Nat} (memory : b.memory = some handle)
      (event queued start finish : Nat) :
      Copies (.buffer b)
        (⟨.write handle b.host, .ok event⟩ :: Device.timings event queued start finish)

/-- The call that binds an argument to the parameter in its place. -/
inductive Binds (kernel : Nat) : Argument × Nat → List Entry → Prop
  | intro {a : Argument} {index : Nat} {binding : Binding}
      (binding_eq : a.binding? = some binding) :
      Binds kernel (a, index) [⟨.bind kernel index binding, .ok ()⟩]

end Argument

/-- The calls that prepare a launch on arguments: all buffers are created, then all of them are
    written, and then all parameters are bound. None of these calls has failed. -/
inductive Arguments.Prepared (kernel : Nat) (args : Arguments) : List Entry → Prop
  | intro {created copied bound : List Entry} (creates : InTurn Argument.Creates args created)
      (copies : InTurn Argument.Copies args copied)
      (binds : InTurn (Argument.Binds kernel) args.zipIdx bound) :
      Prepared kernel args (created ++ (copied ++ bound))

/-! ### Making arguments -/

theorem Generator.tidy_buffer (t : ElementType) (length : Nat) (readOnly : Bool) (g : Generator) :
    (g.buffer d.logged t length readOnly).Tidy (¬ ·.IsLaunch) fun r log =>
      ∃ host handle, g.contents t length = (.ok host, r.2) ∧
        r.1 = ⟨t, host, some handle, readOnly⟩ ∧ (Argument.buffer r.1).Creates log := by
  unfold buffer
  rcases hc : g.contents t length with ⟨host?, g'⟩
  have hhost : (Session.ofExcept host? : Session (Logged σ) _).Tidy (¬ ·.IsLaunch) fun host log =>
      host? = .ok host ∧ log = [] := Session.tidy_ofExcept fun _ h => ⟨h, rfl⟩
  refine hhost.bind ?_
  rintro host _ ⟨rfl, rfl⟩
  unfold Buffer.allocate
  rw [bind_assoc]
  refine d.tidy_call_bind (by exact id) fun handle => ?_
  rw [pure_bind]
  exact Session.tidy_pure ⟨host, handle, rfl, rfl, .buffer rfl⟩

/-- The next argument is the next value for its parameter, and its memory has been created. -/
theorem Parameter.tidy_argument (p : Parameter) (sizes : LaunchSizes) (g : Generator) :
    (p.argument d.logged sizes g).Tidy (¬ ·.IsLaunch) fun r log =>
      p.input sizes g = .ok (r.1.detached, r.2) ∧ r.1.Creates log := by
  have hbuffer (hspace : p.space = .global ∨ p.space = .constant) :
      (g.buffer d.logged p.type sizes.globalSize.toNat p.isConst >>= fun r =>
        (pure (.buffer r.1, r.2) : Session (Logged σ) (Argument × Generator))).Tidy (¬ ·.IsLaunch)
        fun r log => p.input sizes g = .ok (r.1.detached, r.2) ∧ r.1.Creates log := by
    refine (Generator.tidy_buffer _ _ _ g).bind ?_
    rintro ⟨_, g'⟩ log ⟨host, handle, hcontents, rfl, hcreates⟩
    refine Session.tidy_pure ⟨?_, by rwa [List.append_nil]⟩
    rw [input_of_buffer hspace, hcontents]
    rfl
  unfold argument
  cases hspace : p.space with
  | global => exact hbuffer (.inl hspace)
  | constant => exact hbuffer (.inr hspace)
  | workGroup =>
    exact Session.tidy_pure ⟨input_of_scratch hspace, .scratch ..⟩
  | workItem =>
    rcases hv : g.scalar p.type with ⟨v?, g'⟩
    have hvalue : (Session.ofExcept v? : Session (Logged σ) _).Tidy (¬ ·.IsLaunch) fun v log =>
        v? = .ok v ∧ log = [] := Session.tidy_ofExcept fun _ h => ⟨h, rfl⟩
    refine hvalue.bind ?_
    rintro v _ ⟨rfl, rfl⟩
    refine Session.tidy_pure ⟨?_, .scalar v⟩
    rw [input_of_scalar hspace, hv]
    rfl

namespace Signature

/-- There is a value for every parameter. -/
theorem length_of_inputs {sizes : LaunchSizes} {s : Signature} {g : Generator} {args : Arguments}
    (h : inputs sizes s g = .ok args) : args.length = s.length := by
  induction s generalizing g args with
  | nil =>
    cases h
    rfl
  | cons p s ih =>
    rw [inputs] at h
    cases hp : p.input sizes g with
    | error e =>
      rw [hp] at h
      cases h
    | ok r =>
      cases hrest : inputs sizes s r.2 with
      | error e =>
        simp only [hp, hrest] at h
        cases h
      | ok rest =>
        simp only [hp, hrest] at h
        cases h
        rw [List.length_cons, List.length_cons, ih hrest]

theorem tidy_arguments (s : Signature) (sizes : LaunchSizes) (g : Generator) :
    (arguments d.logged sizes s g).Tidy (¬ ·.IsLaunch) fun args log =>
      inputs sizes s g = .ok (args.map Argument.detached) ∧ InTurn Argument.Creates args log := by
  induction s generalizing g with
  | nil => exact Session.tidy_pure ⟨rfl, inTurn_nil _⟩
  | cons p s ih =>
    refine (p.tidy_argument sizes g).bind ?_
    rintro ⟨a, g'⟩ piece ⟨hinput, hcreates⟩
    refine (ih g').bind ?_
    rintro args log ⟨hinputs, hturn⟩
    refine Session.tidy_pure ⟨?_, by rw [List.append_nil]; exact hturn.cons hcreates⟩
    rw [inputs, hinput]
    simp only [hinputs, Except.map, List.map_cons]

end Signature

/-! ### Copying and binding arguments -/

theorem Buffer.tidy_handle {P : Call → Prop} (b : Buffer) :
    (b.handle : Session (Logged σ) Nat).Tidy P fun handle log =>
      b.memory = some handle ∧ log = [] := by
  unfold handle
  cases hmemory : b.memory with
  | none => exact Session.tidy_throw _
  | some handle => exact Session.tidy_pure ⟨rfl, rfl⟩

namespace Arguments

theorem tidy_upload (args : Arguments) :
    (args.upload d.logged).Tidy (¬ ·.IsLaunch) fun _ log => InTurn Argument.Copies args log := by
  refine Session.tidy_forM (fun a => ?_) args
  cases a with
  | scalar v => exact Session.tidy_pure (.scalar v)
  | scratch t length => exact Session.tidy_pure (.scratch t length)
  | buffer b =>
    refine b.tidy_handle.bind ?_
    rintro handle _ ⟨hmemory, rfl⟩
    refine d.tidy_call_bind (by exact id) fun event => ?_
    refine (d.tidy_recordEvent (fun _ _ => id) _ event).mono (fun _ => id) ?_
    rintro _ _ ⟨queued, start, finish, rfl⟩
    exact .buffer hmemory event queued start finish

theorem tidy_bind (args : Arguments) (kernel : Nat) :
    (args.bind d.logged kernel).Tidy (¬ ·.IsLaunch) fun _ log =>
      InTurn (Argument.Binds kernel) args.zipIdx log := by
  have hcall (index : Nat) {a : Argument} {binding : Binding} (h : a.binding? = some binding) :
      (d.logged.call (.bind kernel index binding)).Tidy (¬ ·.IsLaunch) fun _ log =>
        Argument.Binds kernel (a, index) log := by
    refine (d.tidy_call (by exact id)).mono (fun _ => id) ?_
    rintro _ _ rfl
    exact .intro h
  refine Session.tidy_forM (fun r => ?_) args.zipIdx
  obtain ⟨a, index⟩ := r
  cases a with
  | scalar v => exact hcall index rfl
  | scratch t length => exact hcall index rfl
  | buffer b =>
    refine b.tidy_handle.bind ?_
    rintro handle _ ⟨hmemory, rfl⟩
    exact hcall index (by rw [Argument.binding?, hmemory, Option.map_some])

theorem tidy_readOutputs (args : Arguments) :
    (args.readOutputs d.logged).Tidy Call.IsReading fun _ _ => True := by
  refine Session.tidy_mapM (fun a => ?_) args
  cases a with
  | scalar v => exact Session.tidy_pure trivial
  | scratch t length => exact Session.tidy_pure trivial
  | buffer b =>
    have hread : (b.readBack d.logged).Tidy Call.IsReading fun _ _ => True := by
      refine b.tidy_handle.bind fun handle _ _ => ?_
      split
      · exact Session.tidy_pure trivial
      · refine d.tidy_call_bind trivial fun r => ?_
        refine (d.tidy_recordEvent (fun _ _ => trivial) _ r.2).bind fun _ _ _ => ?_
        exact Session.tidy_pure trivial
    exact hread.map Argument.buffer

end Arguments

/-! ### Executions -/

/-- An execution that was begun, and the calls that it made. -/
structure Attempt where
  sizes : LaunchSizes
  source : InputSource
  log : List Entry

/-- An execution calls nothing after a call that failed, and what it launches is its kernel with its
    sizes, once. At the launch everything else that it has called was to prepare arguments with its
    own values, one for each parameter; after it, it only reads. -/
structure Attempt.Safe (s : Signature) (kernel : Nat) (x : Attempt) : Prop where
  halts : Halts x.log
  launch : ∀ before e after, x.log = before ++ e :: after → e.call.IsLaunch →
    e.call = .launch kernel x.sizes.globalSize.toNat x.sizes.localSize.toNat ∧
    (∃ args : Arguments, args.length = s.length ∧
      s.inputs x.sizes x.source.generator = .ok (args.map Argument.detached) ∧
      args.Prepared kernel before) ∧
    ∀ later ∈ after, later.call.IsReading

/-- Around the only item of its kind a list splits in one way. -/
theorem eq_of_append_cons_eq {α : Type} {p : α → Prop} {before after before' after' : List α}
    {a a' : α} (h : before ++ a :: after = before' ++ a' :: after') (hbefore : ∀ x ∈ before, ¬ p x)
    (hafter : ∀ x ∈ after, ¬ p x) (ha' : p a') :
    before = before' ∧ a = a' ∧ after = after' := by
  induction before generalizing before' with
  | nil =>
    cases before' with
    | nil =>
      cases h
      exact ⟨rfl, rfl, rfl⟩
    | cons b before' =>
      cases h
      exact absurd ha' (hafter a' (by simp))
  | cons b before ih =>
    cases before' with
    | nil =>
      cases h
      exact absurd ha' (hbefore a' (by simp))
    | cons b' before' =>
      obtain ⟨rfl, hrest⟩ := List.cons.inj h
      obtain ⟨rfl, rfl, rfl⟩ := ih hrest fun x hx => hbefore x (by simp [hx])
      exact ⟨rfl, rfl, rfl⟩

namespace Signature

variable {s : Signature} {kernel : Nat} {sizes : LaunchSizes} {source : InputSource}

/-- An execution may fail before its launch. -/
theorem safe_of_stopped {log : List Entry} (hcalls : ∀ e ∈ log, ¬ e.call.IsLaunch)
    (hhalts : Halts log) : Attempt.Safe s kernel ⟨sizes, source, log⟩ := by
  refine ⟨hhalts, fun before e after heq he => absurd he (hcalls e ?_)⟩
  rw [show log = before ++ e :: after from heq]
  simp

theorem safe_of_launched {args : Arguments} {before after : List Entry}
    {answer : Except DeviceError Nat}
    (hinputs : s.inputs sizes source.generator = .ok (args.map Argument.detached))
    (hprepared : args.Prepared kernel before) (hcalls : ∀ e ∈ before, ¬ e.call.IsLaunch)
    (hsucceeded : ∀ e ∈ before, e.Succeeded) (hafter : ∀ e ∈ after, e.call.IsReading)
    (hhalts : Halts
      (⟨.launch kernel sizes.globalSize.toNat sizes.localSize.toNat, answer⟩ :: after)) :
    Attempt.Safe s kernel ⟨sizes, source, before ++
      ⟨.launch kernel sizes.globalSize.toNat sizes.localSize.toNat, answer⟩ :: after⟩ := by
  refine ⟨halts_append hsucceeded hhalts, fun before' e after' heq he => ?_⟩
  obtain ⟨rfl, rfl, rfl⟩ := eq_of_append_cons_eq (p := fun e => e.call.IsLaunch) heq hcalls
    (fun e he => Call.not_isLaunch_of_isReading (hafter e he)) he
  have hlength := length_of_inputs hinputs
  rw [List.length_map] at hlength
  exact ⟨rfl, ⟨args, hlength, hinputs, hprepared⟩, hafter⟩

/-- What an execution does before its launch. -/
def prepare (d : Device σ) (kernel : Nat) (s : Signature) (sizes : LaunchSizes)
    (source : InputSource) : Session σ Arguments := do
  let inputs ← s.arguments d sizes source.generator
  Arguments.upload d inputs
  Arguments.bind d inputs kernel
  return inputs

/-- What an execution does from its launch on. -/
def conclude (d : Device σ) (kernel : Nat) (sizes : LaunchSizes) (inputs : Arguments) :
    Session σ Execution := do
  let event ← d.call (.launch kernel sizes.globalSize.toNat sizes.localSize.toNat)
  d.recordEvent .execution event
  let outputs ← Arguments.readOutputs d inputs
  return { inputs, outputs }

theorem execute_eq (d : Device σ) (kernel : Nat) (s : Signature) (sizes : LaunchSizes)
    (source : InputSource) :
    s.execute d kernel sizes source =
      s.prepare d kernel sizes source >>= conclude d kernel sizes := by
  unfold execute prepare conclude
  simp only [bind_assoc, pure_bind]

theorem tidy_prepare (s : Signature) (kernel : Nat) (sizes : LaunchSizes) (source : InputSource) :
    (s.prepare d.logged kernel sizes source).Tidy (¬ ·.IsLaunch) fun args log =>
      s.inputs sizes source.generator = .ok (args.map Argument.detached) ∧
        args.Prepared kernel log := by
  refine (s.tidy_arguments sizes source.generator).bind ?_
  rintro args created ⟨hinputs, hcreates⟩
  refine (Arguments.tidy_upload args).bind fun _ copied hcopies => ?_
  refine (Arguments.tidy_bind args kernel).bind fun _ bound hbinds => ?_
  refine Session.tidy_pure ⟨hinputs, ?_⟩
  rw [List.append_nil]
  exact .intro hcreates hcopies hbinds

theorem logs_conclude (kernel : Nat) (sizes : LaunchSizes) (args : Arguments) :
    (conclude d.logged kernel sizes args).Logs fun _ log =>
      ∃ answer after,
        log = ⟨.launch kernel sizes.globalSize.toNat sizes.localSize.toNat, answer⟩ :: after ∧
        (∀ e ∈ after, e.call.IsReading) ∧ Halts log := by
  refine (d.logs_call _).bind ?_ ?_
  · -- A launch that fails is the last call.
    rintro e _ ⟨answer, rfl, -⟩
    exact ⟨answer, [], rfl, by simp, halts_singleton _⟩
  · rintro event _ ⟨answer, rfl, hanswer⟩
    obtain rfl : answer = .ok event := by
      cases answer with
      | error e => cases hanswer
      | ok a =>
        cases hanswer
        rfl
    have hrest : (d.logged.recordEvent .execution event >>= fun _ =>
        Arguments.readOutputs d.logged args >>= fun outputs =>
          (pure { inputs := args, outputs } : Session (Logged σ) Execution)).Tidy Call.IsReading
            fun _ _ => True := by
      refine (d.tidy_recordEvent (fun _ _ => trivial) _ event).bind fun _ _ _ => ?_
      exact args.tidy_readOutputs.bind fun _ _ _ => Session.tidy_pure trivial
    refine Session.Logs.mono hrest ?_
    rintro r after ⟨hafter, hhalts, -⟩
    exact ⟨_, after, rfl, hafter, halts_append (by simp [Entry.Succeeded]) hhalts⟩

/-- **Every execution is safe**, whatever the device answers. -/
theorem logs_execute (d : Device σ) (s : Signature) (kernel : Nat) (sizes : LaunchSizes)
    (source : InputSource) :
    (s.execute d.logged kernel sizes source).Logs fun _ log =>
      Attempt.Safe s kernel ⟨sizes, source, log⟩ := by
  rw [execute_eq]
  refine Session.Logs.bind (s.tidy_prepare kernel sizes source) ?_ ?_
  · rintro e log ⟨hcalls, hhalts, -⟩
    exact safe_of_stopped hcalls hhalts
  · -- All is prepared, and the launch comes right behind it.
    rintro args before ⟨hcalls, -, hok⟩
    obtain ⟨hsucceeded, hinputs, hprepared⟩ := hok args rfl
    refine (logs_conclude kernel sizes args).mono ?_
    rintro r _ ⟨answer, after, rfl, hafter, hhalts⟩
    exact safe_of_launched hinputs hprepared hcalls hsucceeded hafter hhalts

end Signature

end KernelDiff
