import KernelDiff.Matrix
import KernelDiff.Record

namespace KernelDiff

/-!
# Driving a program

A program is built, its kernels are enumerated, and each of them is driven through the matrix
of the instance. Every outcome is recorded as soon as it is known.
-/

/-- Everything that comes of driving a program. -/
structure ProgramResult where
  verdict : Verdict
  /-- What the compiler said, if the build failed. -/
  buildLog : Option String
  /-- The kernels in the order of their enumeration. -/
  kernels : List KernelResult
  /-- The measurement of the build. -/
  profile : Profile
  deriving DecidableEq, Repr

namespace ProgramResult

/-- The first result of a kernel of that name. -/
def kernel? (r : ProgramResult) (name : String) : Option KernelResult :=
  r.kernels.find? (fun k => k.name == name)

/-- Whether nothing was found. -/
def isPass (r : ProgramResult) : Bool := r.verdict == .pass

end ProgramResult

namespace Instance

/-- The option without which parameters cannot be asked for. -/
def parameterInfoOption : String := "-cl-kernel-arg-info"

/-- The options to build with: the option for parameters, and then those of the instance. -/
def fullBuildOptions (i : Instance) : String :=
  let extra := String.ofList (Text.trim i.buildOptions.toList)
  if extra.isEmpty then parameterInfoOption else parameterInfoOption ++ " " ++ extra

/-- Build the program of an instance. -/
def build (i : Instance) (d : Device σ) (s : σ) : Except DeviceError Nat × σ :=
  match cString i.source, cString i.fullBuildOptions with
  | .error e, _ => (.error e, s)
  | .ok (), .error e => (.error e, s)
  | .ok (), .ok () => d.answer (.build i.source i.fullBuildOptions) s

end Instance

/-- The names in a list of kernel names: the pieces between semicolons that are not blank. -/
def splitNames (names : String) : List String :=
  (Text.trimmedPieces ';' names.toList).map String.ofList

/-- What is known while kernels are driven. -/
structure Progress (σ : Type) where
  verdict : Verdict := .pass
  kernels : List KernelResult := []
  records : List Record := []
  device : σ

namespace Progress

/-- Drive one more kernel and record its runs. -/
def drive (d : Device σ) (env : Environment) (i : Instance) (program : Nat) (p : Progress σ)
    (name : String) : Progress σ :=
  let (kernel, s) := driveKernel d env i program name p.device
  { verdict :=
      if kernel.hasFailure || kernel.hasDivergence then p.verdict.escalate .runtimeFailure
      else p.verdict
    kernels := p.kernels ++ [kernel]
    records := p.records ++ kernel.runs.map (Record.ofRun env.name kernel.name)
    device := s }

end Progress

/-- What comes of a run: the result, the records, and the state of the device. -/
structure Report (σ : Type) where
  result : Except Failure ProgramResult
  records : List Record
  device : σ

namespace Instance

/-- Build the program of an instance and drive all its kernels. A failed build and a program
    without kernels are verdicts; a failure is what keeps the run from its end. The build's
    duration is measured by the caller. -/
def run (i : Instance) (d : Device σ) (env : Environment) (seconds nanoseconds : Nat) (s : σ) :
    Report σ :=
  let profile := Profile.empty.recordDuration .compile seconds nanoseconds
  match i.build d s with
  | (.error e, s) => {
      result := .ok ⟨.compilationFailure, some e.text, [], profile⟩
      records := [.ofVerdict env.name .compilationFailure (some e.text)]
      device := s }
  | (.ok program, s) =>
    match d.answer (.kernelNames program) s with
    | (.error e, s) => { result := .error (.device e), records := [], device := s }
    | (.ok names, s) =>
      match splitNames names with
      | [] => {
          result := .ok ⟨.noKernels, none, [], profile⟩
          records := [.ofVerdict env.name .noKernels none]
          device := s }
      | names =>
        let p := names.foldl (Progress.drive d env i program) { device := s }
        { result := .ok ⟨p.verdict, none, p.kernels, profile⟩
          records := p.records
          device := p.device }

end Instance

end KernelDiff
