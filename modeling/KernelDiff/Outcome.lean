import KernelDiff.Instance
import KernelDiff.Profile

namespace KernelDiff

/-!
# Outcomes

What comes of driving a program: an `Outcome` for every kernel in every configuration, and a
`Verdict` on the program.
-/

/-- What comes of one kernel in one configuration. -/
inductive Outcome
  | pass
  /-- The outputs are the inputs. -/
  | noOutput
  /-- Other inputs gave the same outputs. -/
  | inputInsensitive
  /-- Two runs on the same inputs disagree. -/
  | nondeterministic
  /-- The outputs differ from those of the reference configuration. -/
  | divergent
  /-- The sizes cannot be launched, so the configuration was skipped. -/
  | invalidSizes
  /-- No arguments can be made, so the configuration was skipped. -/
  | unsupportedArguments
  /-- A call to the device failed. -/
  | runtimeFailure
  deriving DecidableEq, Repr

namespace Outcome

/-- All outcomes. -/
def all : List Outcome :=
  [pass, noOutput, inputInsensitive, nondeterministic, divergent, invalidSizes,
    unsupportedArguments, runtimeFailure]

/-- The name in reports. -/
def name : Outcome → String
  | pass => "PASS"
  | noOutput => "NO_OUTPUT"
  | inputInsensitive => "INPUT_INSENSITIVE"
  | nondeterministic => "NONDETERMINISTIC"
  | divergent => "DIVERGENT"
  | invalidSizes => "INVALID_DYNAMIC_PARAMS"
  | unsupportedArguments => "UNSUPPORTED_ARGUMENTS"
  | runtimeFailure => "RUNTIME_FAILURE"

/-- The name in JSON. -/
def key : Outcome → String
  | pass => "pass"
  | noOutput => "no_output"
  | inputInsensitive => "input_insensitive"
  | nondeterministic => "nondeterministic"
  | divergent => "divergent"
  | invalidSizes => "invalid_dynamic_params"
  | unsupportedArguments => "unsupported_arguments"
  | runtimeFailure => "runtime_failure"

/-- The outcome of that name. -/
def ofName? (s : String) : Option Outcome :=
  all.find? (fun o => o.name == s)

/-- Whether two runs were found to disagree. -/
def isDivergence : Outcome → Bool
  | nondeterministic | divergent => true
  | _ => false

/-- Whether the device failed. -/
def isFailure : Outcome → Bool
  | runtimeFailure => true
  | _ => false

/-- Whether nothing was launched on purpose. -/
def isSkip : Outcome → Bool
  | invalidSizes | unsupportedArguments => true
  | _ => false

/-- The outcome of a configuration that a failure stopped. -/
def ofFailure : Failure → Outcome
  | .invalidSizes _ => invalidSizes
  | .unsupportedArgument .. | .inputCount .. | .unreadableValue .. => unsupportedArguments
  | _ => runtimeFailure

/-- The explanation of an outcome that no failure explains. -/
def remark : Outcome → Option String
  | noOutput => some "kernel did not modify its arguments"
  | inputInsensitive => some "different inputs produced the same outputs"
  | nondeterministic => some "outputs differ between runs with identical inputs"
  | divergent => some "outputs differ from the reference configuration"
  | _ => none

end Outcome

/-- One kernel in one configuration. -/
structure KernelRun where
  sizes : LaunchSizes
  outcome : Outcome
  message : Option String
  deriving DecidableEq, Repr

namespace KernelRun

/-- A run with an outcome that explains itself. -/
def ofOutcome (sizes : LaunchSizes) (o : Outcome) : KernelRun :=
  ⟨sizes, o, o.remark⟩

/-- A run with an outcome that a failure explains. -/
def explained (sizes : LaunchSizes) (o : Outcome) (e : Failure) : KernelRun :=
  ⟨sizes, o, some e.message⟩

/-- A run that a failure stopped. -/
def stopped (sizes : LaunchSizes) (e : Failure) : KernelRun :=
  explained sizes (.ofFailure e) e

/-- The JSON value of a run. -/
def toJson (r : KernelRun) : Json :=
  .ofMembers [("params", r.sizes.toJson), ("outcome", .string r.outcome.key),
    ("message", .stringOrNull r.message)]

end KernelRun

namespace Elapsed

/-- The JSON value of elapsed times. -/
def toJson (e : Elapsed) : Json :=
  .ofMembers [("queued_to_end_ns", .natural e.queuedToEnd),
    ("start_to_end_ns", .natural e.startToEnd)]

end Elapsed

namespace Profile

/-- The JSON value of the measurements, by stage. -/
def samplesToJson (p : Profile) : Json :=
  .ofMembers (p.stages.map fun s => (s.name, .array ((p.samples s).map Elapsed.toJson)))

/-- The JSON value of a profile. -/
def toJson (p : Profile) : Json :=
  .ofMembers [("samples", p.samplesToJson)]

end Profile

/-- One kernel in all configurations. -/
structure KernelResult where
  name : String
  runs : List KernelRun
  profile : Profile
  deriving DecidableEq, Repr

namespace KernelResult

/-- Whether the device failed in some configuration. -/
def hasFailure (k : KernelResult) : Bool := k.runs.any (·.outcome.isFailure)

/-- Whether runs were found to disagree in some configuration. -/
def hasDivergence (k : KernelResult) : Bool := k.runs.any (·.outcome.isDivergence)

/-- The JSON value of a result. -/
def toJson (k : KernelResult) : Json :=
  .ofMembers [("name", .string k.name), ("runs", .array (k.runs.map KernelRun.toJson)),
    ("profiling", k.profile.toJson)]

end KernelResult

/-- The verdict on a program. -/
inductive Verdict
  | pass
  | compilationFailure
  | noKernels
  | runtimeFailure
  deriving DecidableEq, Repr

namespace Verdict

/-- All verdicts. -/
def all : List Verdict := [pass, compilationFailure, noKernels, runtimeFailure]

/-- The name in reports. -/
def name : Verdict → String
  | pass => "PASS"
  | compilationFailure => "PROGRAM_COMPILATION_FAILURE"
  | noKernels => "NO_KERNELS_IN_PROGRAM"
  | runtimeFailure => "RUNTIME_FAILURE"

/-- The name in JSON. -/
def key : Verdict → String
  | pass => "pass"
  | compilationFailure => "program_compilation_failure"
  | noKernels => "no_kernels_in_program"
  | runtimeFailure => "runtime_failure"

/-- The verdict of that name. -/
def ofName? (s : String) : Option Verdict :=
  all.find? (fun v => v.name == s)

/-- Whether no kernel is driven. -/
def isTerminal : Verdict → Bool
  | compilationFailure | noKernels => true
  | _ => false

/-- The verdict after a further one: only `pass` gives way. -/
def escalate (v next : Verdict) : Verdict :=
  if v.isTerminal || v == runtimeFailure then v else next

end Verdict

end KernelDiff
