import KernelDiff.Parameter
import KernelDiff.Proofs.Device.Faithful
import KernelDiff.Proofs.LaunchSizes

namespace KernelDiff

/-!
# Predictable devices

On a faithful device it is known what a launch does that succeeds. Where a device is `Predictable`
it is also known which launches succeed, and all other calls do, as far as they make sense: buffers
are copied as a whole, parameters are bound to what they take, and times are asked for right after a
command. What the device says about a kernel never changes. All this is the `Behaviour` of the
kernel, and a launch depends on nothing else: not on earlier launches and not on where memory is.

* `Behaviour`, `Predictable` — the laws;
* `ReliableMemory` — the laws about transfers alone;
* `Behaviour.signature`, `Behaviour.limits` — what there is to learn about the kernel;
* `Predictable.on_query` — a session learns it, whatever it did before.
-/

variable {σ : Type}

/-- What a launch is refused with, if it is: by the sizes of the work-group memory and the contents
    of all arguments, the number of work items and the size of a work group. -/
abbrev Refusal := List Nat → List Content → Nat → Nat → Option DeviceError

/-- What a device says about a kernel, and what launches of the kernel come to. -/
structure Behaviour where
  parameterCount : Nat
  typeName : Nat → String
  space : Nat → AddressSpace
  isConst : Nat → Bool
  /-- The largest work group of the kernel. -/
  groupSize : Nat
  /-- The work-group size that the kernel was compiled for; zeros if there is none. -/
  compiledGroupSize : Nat × Nat × Nat
  /-- The largest work group of the device. -/
  deviceGroupSize : Nat
  effect : Effect
  refusal : Refusal

namespace Behaviour

variable (k : Behaviour)

/-- A parameter of the kernel, if a value can be made for it. -/
def parameter (index : Nat) : Except Failure Parameter :=
  (Parameter.resolve index (k.typeName index) (k.space index)).map fun p =>
    { p with isConst := p.isConst || (k.isConst index && p.isPointer) }

/-- All parameters of the kernel. -/
def signature : Except Failure Signature :=
  (List.range k.parameterCount).mapM k.parameter

/-- The limits on launches of the kernel. -/
def limits : GroupLimits :=
  .ofAnswers k.groupSize k.deviceGroupSize k.compiledGroupSize

end Behaviour

/-- A parameter takes a value of its size, work-group memory or a buffer that there is. -/
def Parameter.Takes (v : View σ) (s : σ) (p : Parameter) : Binding → Prop
  | .bytes value => p.space = .workItem ∧ value.length = p.type.size
  | .scratch _ => p.space = .workGroup
  | .buffer handle => (p.space = .global ∨ p.space = .constant) ∧ v.cell s handle ≠ none

namespace View

/-- The size of the work-group memory that a parameter is bound to; zero for anything else. -/
def scratchSize (v : View σ) (s : σ) (index : Nat) : Option Nat :=
  (v.bound s index).map fun
    | .scratch size => size
    | _ => 0

/-- All parameters are bound, no two of them to one buffer: the kernel is given work-group memory of
    those sizes and arguments of those contents. -/
structure Staged (v : View σ) (s : σ) (arity : Nat) (scratch : List Nat)
    (contents : List Content) : Prop where
  length_scratch : scratch.length = arity
  length_contents : contents.length = arity
  scratchSize : ∀ index < arity, v.scratchSize s index = scratch[index]?
  content : ∀ index < arity, v.content s index = contents[index]?
  distinct : ∀ index < arity, ∀ other < arity, ∀ handle, v.bound s index = some (.buffer handle) →
    v.bound s other = some (.buffer handle) → index = other

end View

namespace Device

variable (d : Device σ)

/-- The device answers a call in a certain way. -/
def Tells (s : σ) (c : Call) (a : c.Answer) : Prop :=
  ∃ s', d.answer c s = (.ok a, s')

/-- The times of a command can be asked for, one after the other. -/
def Measures (s : σ) (event : Nat) : Prop :=
  ∃ queued s₁ start s₂ finish s₃, d.answer (.timestamp event .queued) s = (.ok queued, s₁) ∧
    d.answer (.timestamp event .start) s₁ = (.ok start, s₂) ∧
    d.answer (.timestamp event .finish) s₂ = (.ok finish, s₃)

theorem Tells.on_call {d : Device σ} {c : Call} {a : c.Answer} {b : Bench σ}
    (h : d.Tells b.device c a) : ∃ b', (d.call c).on b = (.ok a, b') := by
  obtain ⟨s', hanswer⟩ := h
  exact ⟨_, d.call_eq_ok.2 ⟨s', hanswer, rfl⟩⟩

theorem Measures.on_recordEvent {d : Device σ} {event : Nat} {b : Bench σ}
    (h : d.Measures b.device event) (stage : Stage) :
    ∃ b', (d.recordEvent stage event).on b = (.ok (), b') := by
  obtain ⟨queued, s₁, start, s₂, finish, s₃, hqueued, hstart, hfinish⟩ := h
  have h₁ : (d.call (.timestamp event .queued)).on b = (.ok queued, { b with device := s₁ }) :=
    d.call_eq_ok.2 ⟨s₁, hqueued, rfl⟩
  have h₂ : (d.call (.timestamp event .start)).on { b with device := s₁ } =
      (.ok start, { b with device := s₂ }) := d.call_eq_ok.2 ⟨s₂, hstart, rfl⟩
  have h₃ : (d.call (.timestamp event .finish)).on { b with device := s₂ } =
      (.ok finish, { b with device := s₃ }) := d.call_eq_ok.2 ⟨s₃, hfinish, rfl⟩
  unfold Device.recordEvent
  simp only [Session.on_bind, h₁, h₂, h₃, Session.on_modify]
  exact ⟨_, rfl⟩

end Device

/-- A faithful device that lets nothing fail but launches, and answers for one kernel by its
    behaviour. -/
structure Predictable (d : Device σ) (device kernel : Nat) (v : View σ) (k : Behaviour) : Prop
    extends Faithful d kernel v k.parameterCount k.effect where
  tells_parameterCount : ∀ {s}, v.Valid s →
    d.Tells s (.parameterCount kernel) k.parameterCount
  tells_parameterType : ∀ {s index}, v.Valid s → index < k.parameterCount →
    d.Tells s (.parameterType kernel index) (k.typeName index)
  tells_parameterSpace : ∀ {s index}, v.Valid s → index < k.parameterCount →
    d.Tells s (.parameterSpace kernel index) (k.space index)
  tells_parameterConst : ∀ {s index}, v.Valid s → index < k.parameterCount →
    d.Tells s (.parameterConst kernel index) (k.isConst index)
  tells_kernelGroupSize : ∀ {s}, v.Valid s → d.Tells s (.kernelGroupSize kernel) k.groupSize
  tells_compiledGroupSize : ∀ {s}, v.Valid s →
    d.Tells s (.compiledGroupSize kernel) k.compiledGroupSize
  tells_deviceGroupSize : ∀ {s}, v.Valid s →
    d.Tells s (.deviceGroupSize device) k.deviceGroupSize
  /-- There is always memory. -/
  createBuffer_succeeds : ∀ {s access size}, v.Valid s →
    ∃ handle, d.Tells s (.createBuffer access size) handle
  write_succeeds : ∀ {s handle c bytes}, v.Valid s → v.cell s handle = some c →
    bytes.length = c.bytes.length →
    ∃ event s', d.answer (.write handle bytes) s = (.ok event, s') ∧ d.Measures s' event
  read_succeeds : ∀ {s handle c size}, v.Valid s → v.cell s handle = some c →
    c.bytes.length = size →
    ∃ r s', d.answer (.read handle size) s = (.ok r, s') ∧ d.Measures s' r.2
  bind_succeeds : ∀ {s index p binding}, v.Valid s → index < k.parameterCount →
    k.parameter index = .ok p → p.Takes v s binding → d.Tells s (.bind kernel index binding) ()
  /-- Only launches may be refused, for what the kernel is given and for the sizes. -/
  launch_answers : ∀ {s scratch contents globalSize localSize}, v.Valid s →
    v.Staged s k.parameterCount scratch contents →
    match k.refusal scratch contents globalSize localSize with
    | some e => ∃ s', d.answer (.launch kernel globalSize localSize) s = (.error e, s')
    | none => ∃ event s', d.answer (.launch kernel globalSize localSize) s = (.ok event, s') ∧
        d.Measures s' event

/-- A device that can be trusted with its memory and lets no transfer of a whole buffer fail. -/
structure ReliableMemory (d : Device σ) (v : View σ) : Prop extends FaithfulMemory d v where
  write_succeeds : ∀ {s handle c bytes}, v.Valid s → v.cell s handle = some c →
    bytes.length = c.bytes.length →
    ∃ event s', d.answer (.write handle bytes) s = (.ok event, s') ∧ d.Measures s' event
  read_succeeds : ∀ {s handle c size}, v.Valid s → v.cell s handle = some c →
    c.bytes.length = size →
    ∃ r s', d.answer (.read handle size) s = (.ok r, s') ∧ d.Measures s' r.2

namespace Predictable

variable {d : Device σ} {device kernel : Nat} {v : View σ} {k : Behaviour}

/-- A predictable device lets no transfer fail. -/
theorem reliable (hd : Predictable d device kernel v k) : ReliableMemory d v :=
  ⟨hd.memory, hd.write_succeeds, hd.read_succeeds⟩

/-- A session that asks for what the device tells learns it, and the view stays valid. -/
theorem on_call (hd : Predictable d device kernel v k) {c : Call} {a : c.Answer} {b : Bench σ}
    (hb : v.Valid b.device) (h : d.Tells b.device c a) :
    ∃ b', (d.call c).on b = (.ok a, b') ∧ v.Valid b'.device := by
  obtain ⟨b', hcall⟩ := h.on_call
  exact ⟨b', hcall, hd.valid_call hb hcall⟩

/-- The parameters of the kernel are always the same. -/
theorem on_parameter (hd : Predictable d device kernel v k) {b : Bench σ} {index : Nat}
    (hb : v.Valid b.device) (hindex : index < k.parameterCount) :
    ∃ b', (Parameter.query d kernel index).on b = (k.parameter index, b') ∧
      v.Valid b'.device := by
  obtain ⟨b₁, htype, hb₁⟩ := hd.on_call hb (hd.tells_parameterType hb hindex)
  obtain ⟨b₂, hspace, hb₂⟩ := hd.on_call hb₁ (hd.tells_parameterSpace hb₁ hindex)
  obtain ⟨b₃, hconst, hb₃⟩ := hd.on_call hb₂ (hd.tells_parameterConst hb₂ hindex)
  refine ⟨b₃, ?_, hb₃⟩
  unfold Parameter.query Behaviour.parameter
  simp only [Session.on_bind, htype, hspace, hconst, Session.on_ofExcept]
  cases Parameter.resolve index (k.typeName index) (k.space index) <;> rfl

theorem on_parameters (hd : Predictable d device kernel v k) {indices : List Nat} {b : Bench σ}
    (hb : v.Valid b.device) (hindices : ∀ index ∈ indices, index < k.parameterCount) :
    ∃ b', Session.on (indices.mapM (Parameter.query d kernel)) b =
      (indices.mapM k.parameter, b') ∧ v.Valid b'.device := by
  induction indices generalizing b with
  | nil => exact ⟨b, rfl, hb⟩
  | cons index indices ih =>
    obtain ⟨b₁, hhead, hb₁⟩ := hd.on_parameter hb (hindices index (by simp))
    obtain ⟨b₂, htail, hb₂⟩ := ih hb₁ fun other hother => hindices other (by simp [hother])
    rw [List.mapM_cons, List.mapM_cons]
    cases hp : k.parameter index with
    | error e =>
      refine ⟨b₁, ?_, hb₁⟩
      rw [Session.on_bind, hhead, hp]
      rfl
    | ok p =>
      refine ⟨b₂, ?_, hb₂⟩
      rw [Session.on_bind, hhead, hp]
      simp only [Session.on_bind, htail]
      cases indices.mapM k.parameter <;> rfl

/-- The signature of the kernel is always the same. -/
theorem on_query (hd : Predictable d device kernel v k) {b : Bench σ} (hb : v.Valid b.device) :
    ∃ b', (Signature.query d kernel).on b = (k.signature, b') ∧ v.Valid b'.device := by
  obtain ⟨b₁, hcount, hb₁⟩ := hd.on_call hb (hd.tells_parameterCount hb)
  have hindices : ∀ index ∈ List.range k.parameterCount, index < k.parameterCount :=
    fun index hindex => List.mem_range.1 hindex
  obtain ⟨b₂, hparameters, hb₂⟩ := hd.on_parameters hb₁ hindices
  refine ⟨b₂, ?_, hb₂⟩
  unfold Signature.query
  rw [Session.on_bind, hcount]
  exact hparameters

section Launch

variable {scratch : List Nat} {contents : List Content} {globalSize localSize : Nat}

/-- A launch with a refusal is refused. -/
theorem launch_refused (hd : Predictable d device kernel v k) {s : σ} (hs : v.Valid s)
    (hstaged : v.Staged s k.parameterCount scratch contents) {e : DeviceError}
    (h : k.refusal scratch contents globalSize localSize = some e) :
    ∃ s', d.answer (.launch kernel globalSize localSize) s = (.error e, s') := by
  have hlaunch := @launch_answers _ _ _ _ _ _ hd s scratch contents globalSize localSize hs hstaged
  simp only [h] at hlaunch
  exact hlaunch

/-- A launch without a refusal is made and can be measured. -/
theorem launch_accepted (hd : Predictable d device kernel v k) {s : σ} (hs : v.Valid s)
    (hstaged : v.Staged s k.parameterCount scratch contents)
    (h : k.refusal scratch contents globalSize localSize = none) :
    ∃ event s', d.answer (.launch kernel globalSize localSize) s = (.ok event, s') ∧
      d.Measures s' event := by
  have hlaunch := @launch_answers _ _ _ _ _ _ hd s scratch contents globalSize localSize hs hstaged
  simp only [h] at hlaunch
  exact hlaunch

theorem on_launch_refused (hd : Predictable d device kernel v k) {b : Bench σ}
    (hb : v.Valid b.device) (hstaged : v.Staged b.device k.parameterCount scratch contents)
    {e : DeviceError} (h : k.refusal scratch contents globalSize localSize = some e) :
    ∃ b', (d.call (.launch kernel globalSize localSize)).on b = (.error (.device e), b') := by
  obtain ⟨s', hanswer⟩ := hd.launch_refused hb hstaged h
  exact ⟨_, d.call_eq_error.2 ⟨e, s', hanswer, rfl, rfl⟩⟩

theorem on_launch_accepted (hd : Predictable d device kernel v k) {b : Bench σ}
    (hb : v.Valid b.device) (hstaged : v.Staged b.device k.parameterCount scratch contents)
    (h : k.refusal scratch contents globalSize localSize = none) :
    ∃ event b₁ b₂, (d.call (.launch kernel globalSize localSize)).on b = (.ok event, b₁) ∧
      (d.recordEvent .execution event).on b₁ = (.ok (), b₂) := by
  obtain ⟨event, s', hanswer, hmeasures⟩ := hd.launch_accepted hb hstaged h
  obtain ⟨b₂, hrecord⟩ := Device.Measures.on_recordEvent (b := { b with device := s' }) hmeasures
    .execution
  exact ⟨event, _, b₂, d.call_eq_ok.2 ⟨s', hanswer, rfl⟩, hrecord⟩

end Launch

end Predictable

/-- Only parameters that no value can be made for are not in a signature. -/
theorem Behaviour.failure_of_parameter {k : Behaviour} {index : Nat} {e : Failure}
    (h : k.parameter index = .error e) : e = .unsupportedArgument index (k.typeName index) := by
  unfold parameter at h
  cases hr : Parameter.resolve index (k.typeName index) (k.space index) with
  | ok p =>
    rw [hr] at h
    cases h
  | error e' =>
    rw [hr] at h
    cases h
    unfold Parameter.resolve at hr
    simp only at hr
    split at hr
    · split at hr
      · cases hr
      · cases hr
        rfl
    · cases hr
      rfl

end KernelDiff
