import KernelDiff.Argument.Basic
import KernelDiff.Proofs.Session

namespace KernelDiff

/-!
# Faithful devices

Nothing is known of a device but its answers. To say that its memory can be trusted, a `View` is
laid over its states: the memory of its buffers, and what the parameters of one kernel are bound
to. A device is `Faithful` when successful calls do to the view what they are for. Of calls that
fail only one thing is asked, and of all calls: that the view stays a view of the device.

What a launch does is a parameter, the `Effect`: the bytes of every writable buffer afterwards, by
the contents of all arguments and the two sizes. It cannot depend on anything else, in particular
not on earlier launches, and in a `LocalBlind` effect the size of a work group does not count
either.

* `View`, `Effect`, `Faithful` — the laws;
* `FaithfulMemory` — the laws about memory alone;
* `FaithfulMemory.recordEvent` — measuring leaves all memory alone;
* `Effect.LocalBlind` — an effect that does not depend on how the work is grouped.
-/

variable {σ : Type}

/-- The memory of a buffer. -/
structure Cell where
  bytes : List UInt8
  writable : Bool

/-- What a kernel is given through a parameter. -/
inductive Content
  /-- The bytes of a value. -/
  | value (bytes : List UInt8)
  /-- The bytes of a buffer. -/
  | buffer (bytes : List UInt8)
  /-- Work-group memory, which holds nothing yet. -/
  | scratch
  deriving DecidableEq, Repr

/-- What a launch leaves in the buffer of a parameter: the bytes, by the contents of all arguments,
    the number of work items, the size of a work group and the place of the parameter. -/
abbrev Effect := List Content → Nat → Nat → Nat → List UInt8

/-- The effect is the same however the work items are grouped. -/
def Effect.LocalBlind (effect : Effect) : Prop :=
  ∀ contents globalSize localSize localSize' index,
    effect contents globalSize localSize index = effect contents globalSize localSize' index

/-- What there is to say of the states of a device while one kernel is driven on it. -/
structure View (σ : Type) where
  /-- The states that the view is a view of. -/
  Valid : σ → Prop
  /-- The memory of the buffer with a handle. -/
  cell : σ → Nat → Option Cell
  /-- What a parameter of the kernel is bound to. -/
  bound : σ → Nat → Option Binding

namespace View

/-- What the kernel is given through a parameter. -/
def content (v : View σ) (s : σ) (index : Nat) : Option Content :=
  match v.bound s index with
  | some (.buffer handle) => (v.cell s handle).map fun c => .buffer c.bytes
  | some (.bytes value) => some (.value value)
  | some (.scratch _) => some .scratch
  | none => none

end View

/-- Successful calls do to the view what they are for, and every call keeps the view valid. -/
structure Faithful (d : Device σ) (kernel : Nat) (v : View σ) (arity : Nat) (effect : Effect) :
    Prop where
  valid : ∀ c s, v.Valid s → v.Valid (d.answer c s).2
  /-- The kernel always has the same number of parameters. -/
  parameterCount : ∀ {s n s'}, v.Valid s →
    d.answer (.parameterCount kernel) s = (.ok n, s') → n = arity
  /-- A new buffer has a new handle and memory of the size that was asked for. -/
  createBuffer : ∀ {s access size handle s'}, v.Valid s →
    d.answer (.createBuffer access size) s = (.ok handle, s') →
    v.cell s handle = none ∧
      (∃ c, v.cell s' handle = some c ∧ c.bytes.length = size ∧
        (access = .readWrite → c.writable)) ∧
      ∀ other, other ≠ handle → v.cell s' other = v.cell s other
  /-- A write of the whole memory of a buffer replaces its bytes. -/
  write : ∀ {s handle c bytes event s'}, v.Valid s → v.cell s handle = some c →
    bytes.length = c.bytes.length → d.answer (.write handle bytes) s = (.ok event, s') →
    v.cell s' handle = some { c with bytes } ∧
      ∀ other, other ≠ handle → v.cell s' other = v.cell s other
  /-- A read of the whole memory of a buffer answers its bytes. -/
  read : ∀ {s handle c size r s'}, v.Valid s → v.cell s handle = some c →
    c.bytes.length = size → d.answer (.read handle size) s = (.ok r, s') →
    r.1.val = c.bytes ∧ v.cell s' = v.cell s
  bind : ∀ {s index binding u s'}, v.Valid s →
    d.answer (.bind kernel index binding) s = (.ok u, s') →
    v.cell s' = v.cell s ∧ v.bound s' index = some binding ∧
      ∀ other, other ≠ index → v.bound s' other = v.bound s other
  timestamp : ∀ {s event moment t s'}, v.Valid s →
    d.answer (.timestamp event moment) s = (.ok t, s') → v.cell s' = v.cell s
  /-- Where all parameters are bound, and no two of them to one buffer, a launch leaves its effect
      in the writable buffers. -/
  launch : ∀ {s contents globalSize localSize event s'}, v.Valid s →
    contents.length = arity → (∀ index < arity, v.content s index = contents[index]?) →
    (∀ index < arity, ∀ other < arity, ∀ handle, v.bound s index = some (.buffer handle) →
      v.bound s other = some (.buffer handle) → index = other) →
    d.answer (.launch kernel globalSize localSize) s = (.ok event, s') →
    ∀ index < arity, ∀ handle c, v.bound s index = some (.buffer handle) →
      v.cell s handle = some c → c.writable →
      v.cell s' handle = some { c with bytes := effect contents globalSize localSize index } ∧
        (effect contents globalSize localSize index).length = c.bytes.length

/-- Of the laws the ones about memory alone, which no launch has a part in. -/
structure FaithfulMemory (d : Device σ) (v : View σ) : Prop where
  valid : ∀ c s, v.Valid s → v.Valid (d.answer c s).2
  write : ∀ {s handle c bytes event s'}, v.Valid s → v.cell s handle = some c →
    bytes.length = c.bytes.length → d.answer (.write handle bytes) s = (.ok event, s') →
    v.cell s' handle = some { c with bytes } ∧
      ∀ other, other ≠ handle → v.cell s' other = v.cell s other
  read : ∀ {s handle c size r s'}, v.Valid s → v.cell s handle = some c →
    c.bytes.length = size → d.answer (.read handle size) s = (.ok r, s') →
    r.1.val = c.bytes ∧ v.cell s' = v.cell s
  timestamp : ∀ {s event moment t s'}, v.Valid s →
    d.answer (.timestamp event moment) s = (.ok t, s') → v.cell s' = v.cell s

variable {d : Device σ} {kernel arity : Nat} {v : View σ} {effect : Effect}
variable {b b' : Bench σ}

namespace FaithfulMemory

/-- A call keeps the view valid. -/
theorem valid_call (hd : FaithfulMemory d v) {c : Call} {r : Except Failure c.Answer}
    (hb : v.Valid b.device) (h : (d.call c).on b = (r, b')) : v.Valid b'.device := by
  have hkeep := hd.valid c b.device hb
  rw [← Device.device_call, h] at hkeep
  exact hkeep

/-- Measuring a command leaves all memory alone. -/
theorem recordEvent (hd : FaithfulMemory d v) {stage : Stage} {event : Nat}
    {u : Unit} (hb : v.Valid b.device) (h : (d.recordEvent stage event).on b = (.ok u, b')) :
    v.Valid b'.device ∧ v.cell b'.device = v.cell b.device := by
  obtain ⟨queued, start, finish, b₁, b₂, b₃, h₁, h₂, h₃, rfl⟩ := d.recordEvent_eq_ok h
  have hv₁ := hd.valid_call hb h₁
  have hv₂ := hd.valid_call hv₁ h₂
  have hv₃ := hd.valid_call hv₂ h₃
  obtain ⟨s₁, ha₁, rfl⟩ := d.call_eq_ok.1 h₁
  obtain ⟨s₂, ha₂, rfl⟩ := d.call_eq_ok.1 h₂
  obtain ⟨s₃, ha₃, rfl⟩ := d.call_eq_ok.1 h₃
  refine ⟨hv₃, ?_⟩
  calc v.cell s₃ = v.cell s₂ := hd.timestamp hv₂ ha₃
    _ = v.cell s₁ := hd.timestamp hv₁ ha₂
    _ = v.cell b.device := hd.timestamp hb ha₁

end FaithfulMemory

namespace Faithful

/-- A faithful device can be trusted with its memory. -/
theorem memory (hd : Faithful d kernel v arity effect) : FaithfulMemory d v :=
  ⟨hd.valid, hd.write, hd.read, hd.timestamp⟩

theorem valid_call (hd : Faithful d kernel v arity effect) {c : Call} {r : Except Failure c.Answer}
    (hb : v.Valid b.device) (h : (d.call c).on b = (r, b')) : v.Valid b'.device :=
  hd.memory.valid_call hb h

end Faithful

end KernelDiff
