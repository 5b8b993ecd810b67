import KernelDiff.Parameter

namespace KernelDiff

/-!
# Executions

One execution of a kernel: make the arguments, copy them to the device, bind them, launch, and
read the arguments back.
-/

/-- Where the values of an execution come from. -/
inductive InputSource
  | generated (policy : ValuePolicy)
  | explicit (inputs : List (List String))
  deriving DecidableEq, Repr

/-- A new generator for a source. -/
def InputSource.generator : InputSource → Generator
  | generated policy => .ofPolicy policy
  | explicit inputs => .ofInputs inputs

/-- The arguments of an execution before the launch, and as they were read back after it. -/
structure Execution where
  inputs : Arguments
  outputs : Arguments
  deriving DecidableEq, Repr

/-- Execute a kernel once. -/
def Signature.execute (d : Device σ) (kernel : Nat) (s : Signature) (sizes : LaunchSizes)
    (source : InputSource) : Session σ Execution := do
  let inputs ← s.arguments d sizes source.generator
  Arguments.upload d inputs
  Arguments.bind d inputs kernel
  let event ← d.call (.launch kernel sizes.globalSize.toNat sizes.localSize.toNat)
  d.recordEvent .execution event
  let outputs ← Arguments.readOutputs d inputs
  return { inputs, outputs }

end KernelDiff
