import KernelDiff.CommandLine.Options
import KernelDiff.Program

namespace KernelDiff.CommandLine

/-!
# Running the command line

The input is a source file, and the options say the rest, or it is a file that holds a whole
instance, and the options say only how to report. The exit status is 0 for a pass, 2 for
everything that was found and for wrong arguments, and 1 for what could not be run.
-/

/-- What a run leaves behind. -/
structure Ending (σ : Type) where
  status : Nat
  /-- The text on standard output. -/
  output : String
  device : σ

/-- The name and the version of the tool. -/
def versionLine : String := "cldrive 0.1.0\n"

/-- A summary of the options. -/
def helpText : String :=
  "Usage: cldrive [OPTIONS] <INPUT>\n\n" ++
  "  -g, --gsize <N>          Global size; repeat for several values\n" ++
  "  -l, --lsize <N>          Local size; repeat for several values\n" ++
  "  -b, --build-opts <OPTS>  Extra compiler options\n" ++
  "  -d, --device <DEVICE>    Device index, or a part of the device name\n" ++
  "  -s, --seed <SEED>        Fill value, or the seed of random values\n" ++
  "      --random             Draw values at random\n" ++
  "  -i, --input <VALUES>     Values of the next parameter, separated by ';'\n" ++
  "      --no-input-check     Skip the rerun on other values\n" ++
  "      --json               Print one JSON record per outcome\n" ++
  "      --list-devices       List the devices and exit\n" ++
  "  -v, --verbose            Verbose output\n" ++
  "  -h, --help               Print help\n" ++
  "  -V, --version            Print version\n"

/-- The texts in the value of an input option: the pieces between semicolons, without blanks
    around them and without empty ones. -/
def splitValues (values : String) : List String :=
  (Text.trimmedPieces ';' values.toList).map String.ofList

namespace Options

variable (o : Options)

/-- The file to read, or a dash for standard input. -/
def inputName : String := o.input.getD "-"

/-- Whether the input is a file that holds an instance. -/
def isInstanceFile : Bool := ".json".toList.isSuffixOf o.inputName.toList

/-- The device to use: a number is a place, and anything else a part of a name. -/
def selector : DeviceSelector :=
  let s := o.device.getD "0"
  match Text.word64? s.toList with
  | some i => .index i
  | none => .name s

/-- The policy for generated values. -/
def policy : ValuePolicy :=
  let seed := o.seed.getD 1
  if o.random then .random seed.toUInt64 else .constant seed

/-- All pairs of the given sizes, global sizes first. -/
def matrix : List LaunchSizes :=
  let globalSizes := if o.globalSizes.isEmpty then [8] else o.globalSizes
  let localSizes := if o.localSizes.isEmpty then [1] else o.localSizes
  globalSizes.flatMap fun g => localSizes.map fun l => ⟨g, l⟩

/-- The instance for a source. -/
def ofSource (source : String) : Instance where
  source
  buildOptions := o.buildOptions.getD ""
  device := o.selector
  matrix := o.matrix
  policy := o.policy
  checkSensitivity := !o.noInputCheck
  inputs := if o.inputs.isEmpty then none else some (o.inputs.map splitValues)

/-- The instance to drive, from the contents of the input. -/
def load? (contents : String) : Option Instance :=
  if o.isInstanceFile then Instance.parse? contents else some (o.ofSource contents)

/-- Drive an instance and report. -/
def drive (d : Device σ) (platforms : Platforms) (i : Instance) (s : σ) : Ending σ :=
  match (platforms.connect d i.device).on ⟨s, .empty⟩ with
  | (.error _, b) => ⟨1, "", b.device⟩
  | (.ok env, b) =>
    let report := i.run d env 0 0 b.device
    let lines := ((JsonLines.open "").logAll report.records).1.text
    match report.result with
    | .error _ => ⟨1, if o.json then lines else "", report.device⟩
    | .ok r =>
      ⟨if r.isPass then 0 else 2, if o.json then lines else r.verdict.name ++ "\n",
        report.device⟩

/-- One line per device, with its place. -/
def deviceLines (platforms : Platforms) : String :=
  String.join (platforms.names.zipIdx.map fun (name, i) => toString i ++ ": " ++ name ++ "\n")

/-- Do what the options say, given the contents of the input if it can be read. -/
def run (d : Device σ) (platforms : Platforms) (contents : Option String) (s : σ) : Ending σ :=
  if o.listDevices then ⟨0, deviceLines platforms, s⟩
  else
    match contents.bind o.load? with
    | none => ⟨1, "", s⟩
    | some i => o.drive d platforms i s

end Options

/-- Run the tool on arguments, where `read` gives the contents of the input of a name. -/
def run (d : Device σ) (platforms : Platforms) (read : String → Option String)
    (args : List String) (s : σ) : Ending σ :=
  match parse args with
  | none => ⟨2, "", s⟩
  | some .version => ⟨0, versionLine, s⟩
  | some .help => ⟨0, helpText, s⟩
  | some (.drive o) => o.run d platforms (read o.inputName) s

end KernelDiff.CommandLine
