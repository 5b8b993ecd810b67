import KernelDiff.Device.Error

namespace KernelDiff

/-!
# Calls to a device

A device is a state machine that answers calls. Nothing is assumed about it: every call may
fail, and may change the state also when it fails. What the objects on the device are called,
its handles, is the device's own choice.
-/

/-- The memory that a parameter refers to. -/
inductive AddressSpace
  /-- Memory that all work items share. -/
  | global
  /-- The part of it that kernels cannot write. -/
  | constant
  /-- Memory of one work group. -/
  | workGroup
  /-- Memory of one work item: the parameter is passed by value. -/
  | workItem
  deriving DecidableEq, Repr

/-- What kernels may do with a buffer. -/
inductive Access
  | readWrite | readOnly
  deriving DecidableEq, Repr

/-- What a parameter of a kernel is bound to. -/
inductive Binding
  /-- A buffer on the device. -/
  | buffer (handle : Nat)
  /-- The bytes of a value. -/
  | bytes (value : List UInt8)
  /-- Work-group memory of a size. -/
  | scratch (size : Nat)
  deriving DecidableEq, Repr

/-- The moments in the life of a command that the device's clock tells. -/
inductive Moment
  | queued | start | finish
  deriving DecidableEq, Repr

/-- A call to a device. -/
inductive Call
  /-- Open a context on the device with that place in the list of all devices. -/
  | createContext (device : Nat)
  /-- Open a command queue that measures its commands. -/
  | createQueue (device : Nat)
  /-- The largest work group of the device. -/
  | deviceGroupSize (device : Nat)
  /-- Build a program. -/
  | build (source options : String)
  /-- The names of a program's kernels, separated by semicolons. -/
  | kernelNames (program : Nat)
  /-- Create a kernel of a program. -/
  | createKernel (program : Nat) (name : String)
  /-- The number of a kernel's parameters. -/
  | parameterCount (kernel : Nat)
  /-- The type name of a parameter. -/
  | parameterType (kernel index : Nat)
  /-- The address space of a parameter. -/
  | parameterSpace (kernel index : Nat)
  /-- Whether a parameter is qualified as constant. -/
  | parameterConst (kernel index : Nat)
  /-- The largest work group of a kernel. -/
  | kernelGroupSize (kernel : Nat)
  /-- The work-group size that a kernel was compiled for; zeros if there is none. -/
  | compiledGroupSize (kernel : Nat)
  /-- Allocate a buffer. -/
  | createBuffer (access : Access) (size : Nat)
  /-- Copy bytes from the host into a buffer. -/
  | write (buffer : Nat) (bytes : List UInt8)
  /-- Copy the bytes of a buffer to the host. -/
  | read (buffer size : Nat)
  /-- Bind a parameter of a kernel. -/
  | bind (kernel index : Nat) (binding : Binding)
  /-- Run a kernel in one dimension. -/
  | launch (kernel globalSize localSize : Nat)
  /-- When a command entered the queue, started or finished. -/
  | timestamp (event : Nat) (moment : Moment)
  deriving DecidableEq, Repr

namespace Call

/-- What a successful call answers. Commands answer with an event to ask for times. -/
abbrev Answer : Call → Type
  | createContext _ | createQueue _ | bind .. => Unit
  | deviceGroupSize _ | build .. | createKernel .. | parameterCount _ | kernelGroupSize _
  | createBuffer .. | write .. | launch .. | timestamp .. => Nat
  | kernelNames _ | parameterType .. => String
  | parameterSpace .. => AddressSpace
  | parameterConst .. => Bool
  | compiledGroupSize _ => Nat × Nat × Nat
  | read _ size => { bytes : List UInt8 // bytes.length = size } × Nat

end Call

/-- A device with states in `σ`. -/
structure Device (σ : Type) where
  /-- The answer to a call, and the state after it. -/
  answer : (c : Call) → σ → Except DeviceError c.Answer × σ

end KernelDiff
