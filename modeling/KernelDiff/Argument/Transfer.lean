import KernelDiff.Argument.Basic
import KernelDiff.Device.Session

namespace KernelDiff

/-!
# Moving arguments

Between host and device only buffers move: `upload` writes them to the device, and `readBack`
makes a new argument from what the device holds. A buffer that kernels cannot write is not
transferred back. `bind` hands an argument to a parameter of a kernel.
-/

namespace Buffer

variable (d : Device σ) (b : Buffer)

/-- Allocate device memory for a buffer. -/
def allocate : Session σ Buffer := do
  let access := if b.readOnly then Access.readOnly else Access.readWrite
  let handle ← d.call (.createBuffer access b.host.length)
  return { b with memory := some handle }

/-- The handle of the device memory. -/
def handle : Session σ Nat :=
  match b.memory with
  | some h => pure h
  | none => throw .detachedBuffer

/-- Copy the elements to the device. -/
def upload : Session σ Unit := do
  let handle ← b.handle
  let event ← d.call (.write handle b.host)
  d.recordEvent .transferIn event

/-- A buffer on the host with the elements that the device holds. -/
def readBack : Session σ Buffer := do
  let handle ← b.handle
  if b.readOnly then return { b with memory := none }
  else
    let (bytes, event) ← d.call (.read handle b.host.length)
    d.recordEvent .transferOut event
    return { type := b.type, host := bytes.val }

end Buffer

namespace Argument

variable (d : Device σ)

/-- Copy an argument to the device. -/
def upload : Argument → Session σ Unit
  | buffer b => b.upload d
  | scalar _ | scratch .. => pure ()

/-- A new argument from what the device holds. Work-group memory cannot be read. -/
def readBack : Argument → Session σ Argument
  | scalar v => pure (scalar v)
  | scratch .. => throw .scratchNotReadable
  | buffer b => buffer <$> b.readBack d

/-- Like `readBack`, but work-group memory stands for itself. -/
def readOutput : Argument → Session σ Argument
  | scratch t length => pure (scratch t length)
  | a => a.readBack d

/-- Bind an argument to a parameter of a kernel. -/
def bind (kernel index : Nat) : Argument → Session σ Unit
  | scalar v => d.call (.bind kernel index (.bytes v.bytes))
  | scratch t length => d.call (.bind kernel index (.scratch (t.extent length)))
  | buffer b => do
    let handle ← b.handle
    d.call (.bind kernel index (.buffer handle))

end Argument

namespace Arguments

variable (d : Device σ) (args : Arguments)

/-- Copy every argument to the device, in order. -/
def upload : Session σ Unit :=
  args.forM (Argument.upload d)

/-- New arguments from what the device holds; fails if one is work-group memory. -/
def readBack : Session σ Arguments :=
  args.mapM (Argument.readBack d)

/-- New arguments from what the device holds, in the same places. -/
def readOutputs : Session σ Arguments :=
  args.mapM (Argument.readOutput d)

/-- Bind every argument to the parameter in its place. -/
def bind (kernel : Nat) : Session σ Unit :=
  args.zipIdx.forM fun (a, i) => a.bind d kernel i

end Arguments

end KernelDiff
