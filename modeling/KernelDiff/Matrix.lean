import KernelDiff.Device.Selection
import KernelDiff.Execution
import KernelDiff.Outcome

namespace KernelDiff

/-!
# Driving a kernel through a matrix

A kernel is driven through every configuration of an instance, in order. Each configuration is
executed twice on the same inputs. The two must agree, and they must agree with the reference
of their number of work items: the first configuration of that number whose two executions
agreed. What passes may still be found to leave its arguments alone, or to give the same
outputs on other inputs.
-/

/-- The outputs of the reference configurations, by the number of work items. -/
abbrev References := List (UInt64 × Arguments)

namespace References

/-- The reference for a number of work items. -/
def find? (r : References) (globalSize : UInt64) : Option Arguments :=
  r.lookup globalSize

/-- Make outputs the reference for a number of work items, unless it has one. -/
def keep (r : References) (globalSize : UInt64) (outputs : Arguments) : References :=
  match r.find? globalSize with
  | some _ => r
  | none => (globalSize, outputs) :: r

end References

/-- The outcome if two executions on the same inputs, or the first and the reference, disagree. -/
def disagreement? (first second : Arguments) (reference : Option Arguments) : Option Outcome :=
  if !first.same second then some .nondeterministic
  else
    match reference with
    | some r => if r.same first then none else some .divergent
    | none => none

/-- A kernel that has been created on a device. -/
structure KernelHandle where
  kernel : Nat
  name : String
  deriving DecidableEq, Repr

namespace KernelHandle

variable (d : Device σ) (k : KernelHandle)

/-- Create a kernel of a program. -/
def create (program : Nat) (name : String) : Session σ KernelHandle := do
  Device.passText name
  let kernel ← d.call (.createKernel program name)
  return { kernel, name }

/-- Ask for the parameters of the kernel. -/
def signature : Session σ Signature :=
  Signature.query d k.kernel

/-- Ask for the limits on the kernel's launches. -/
def limits (env : Environment) : Session σ GroupLimits := do
  let kernelMax ← d.call (.kernelGroupSize k.kernel)
  let compiled ← d.call (.compiledGroupSize k.kernel)
  let deviceMax ← d.call (.deviceGroupSize env.device)
  return {
    max := min kernelMax deviceMax
    required := if compiled = (0, 0, 0) then none else some compiled }

/-- What is left to say about an execution that agrees with all others. -/
def classify (s : Signature) (sizes : LaunchSizes) (i : Instance) (e : Execution) :
    Session σ Outcome :=
  if e.outputs.same e.inputs then pure .noOutput
  else if i.checkSensitivity then do
    let other ← s.execute d k.kernel sizes (.generated i.policy.alternate)
    return if other.outputs.same e.outputs then .inputInsensitive else .pass
  else pure .pass

/-- Execute twice on the same inputs. -/
def executeTwice (s : Signature) (sizes : LaunchSizes) (source : InputSource) :
    Session σ (Execution × Execution) := do
  let first ← s.execute d k.kernel sizes source
  let second ← s.execute d k.kernel sizes source
  return (first, second)

/-- Run one configuration whose sizes can be launched. A configuration whose two executions
    agree is made a reference before anything more is found out about it. The outputs of the
    first execution go into the reference then, and what is looked at is the second. -/
def runConfiguration (s : Signature) (i : Instance) (source : InputSource)
    (references : References) (sizes : LaunchSizes) (b : Bench σ) :
    KernelRun × References × Bench σ :=
  match (k.executeTwice d s sizes source).on b with
  | (.error e, b) => (.stopped sizes e, references, b)
  | (.ok (first, second), b) =>
    let reference := references.find? sizes.globalSize
    match disagreement? first.outputs second.outputs reference with
    | some o => (.ofOutcome sizes o, references, b)
    | none =>
      let references := references.keep sizes.globalSize first.outputs
      match (k.classify d s sizes i (if reference.isNone then second else first)).on b with
      | (.error e, b) => (.stopped sizes e, references, b)
      | (.ok o, b) => (.ofOutcome sizes o, references, b)

/-- Run the configurations of a matrix, in order. -/
def runMatrix (s : Signature) (limits : GroupLimits) (i : Instance) (source : InputSource) :
    List LaunchSizes → References → Bench σ → List KernelRun × Bench σ
  | [], _, b => ([], b)
  | sizes :: rest, references, b =>
    match limits.problem? sizes with
    | some p =>
      let run := KernelRun.explained sizes .invalidSizes (.invalidSizes p.message)
      let (runs, b) := runMatrix s limits i source rest references b
      (run :: runs, b)
    | none =>
      let (run, references, b) := k.runConfiguration d s i source references sizes b
      let (runs, b) := runMatrix s limits i source rest references b
      (run :: runs, b)

/-- The runs of a kernel whose configurations are all skipped for one reason. -/
def skipAll (i : Instance) (e : Failure) : List KernelRun :=
  i.matrix.map fun sizes => .explained sizes .unsupportedArguments e

/-- Where the checked executions of an instance take their values from, if there are as many
    input entries as the kernel needs. -/
def source? (s : Signature) (i : Instance) : Except Failure InputSource :=
  match i.inputs with
  | none => .ok (.generated i.policy)
  | some inputs =>
    if inputs.length = s.inputCount then .ok (.explicit inputs)
    else .error (.inputCount s.inputCount inputs.length)

/-- The runs of a kernel in every configuration of an instance. The failures of this session
    are those that keep the kernel from being driven at all. -/
def run (env : Environment) (i : Instance) : Session σ (List KernelRun) := fun b =>
  match (k.signature d).on b with
  | (.error e@(.unsupportedArgument ..), b) => (.ok (skipAll i e), b)
  | (.error e, b) => (.error e, b)
  | (.ok s, b) =>
    match source? s i with
    | .error e => (.ok (skipAll i e), b)
    | .ok source =>
      match (k.limits d env).on b with
      | (.error e, b) => (.error e, b)
      | (.ok limits, b) =>
        let (runs, b) := k.runMatrix d s limits i source i.matrix [] b
        (.ok runs, b)

end KernelHandle

/-- Drive a kernel of a program through every configuration of an instance. A kernel that cannot
    be driven at all fails in each of them, and has an empty profile. -/
def driveKernel (d : Device σ) (env : Environment) (i : Instance) (program : Nat)
    (name : String) (s : σ) : KernelResult × σ :=
  let session : Session σ (List KernelRun) := do
    let k ← KernelHandle.create d program name
    k.run d env i
  match session.on ⟨s, .empty⟩ with
  | (.ok runs, b) => (⟨name, runs, b.profile⟩, b.device)
  | (.error e, b) =>
    (⟨name, i.matrix.map fun sizes => .explained sizes .runtimeFailure e, .empty⟩, b.device)

end KernelDiff
