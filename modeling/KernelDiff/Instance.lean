import KernelDiff.Failure
import KernelDiff.LaunchSizes
import KernelDiff.Policy
import KernelDiff.Json.Decode
import KernelDiff.Json.Printer

namespace KernelDiff

/-!
# Instances

An instance says everything that is needed to drive one program: its source, how to build it,
where to run it, at which sizes and on which values. Instances are kept in JSON files;
`Instance.parse?` reads the text of such a file and `Instance.text` writes one; `Instance.load` says
how a file fails that holds no instance.
-/

/-- How a device is chosen. -/
inductive DeviceSelector
  /-- By its place in the list of all devices. -/
  | index (i : UInt64)
  /-- By a part of its name. -/
  | name (part : String)
  deriving DecidableEq, Repr

/-- Everything that is needed to drive one program. -/
structure Instance where
  /-- The source of the program. -/
  source : String
  /-- Further build options. -/
  buildOptions : String := ""
  device : DeviceSelector := .index 0
  /-- The sizes to launch every kernel with, in order. -/
  matrix : List LaunchSizes := []
  policy : ValuePolicy := .standard
  /-- Whether to try every configuration on other inputs too. -/
  checkSensitivity : Bool := true
  /-- Texts of the values to use, one list per parameter that takes a value. -/
  inputs : Option (List (List String)) := none
  deriving DecidableEq, Repr

namespace LaunchSizes

/-- The names of the fields of sizes. -/
def fieldNames : List String := ["global_size_x", "local_size_x"]

/-- The JSON value of sizes. -/
def toJson (s : LaunchSizes) : Json :=
  .ofMembers [("global_size_x", .natural s.globalSize.toNat),
    ("local_size_x", .natural s.localSize.toNat)]

/-- The sizes that a JSON value denotes. -/
def ofJson? (v : Json) : Option LaunchSizes := do
  let fields ← v.record? fieldNames
  return {
    globalSize := ← Json.required? fields "global_size_x" Json.word64?
    localSize := ← Json.required? fields "local_size_x" Json.word64? }

end LaunchSizes

namespace DeviceSelector

/-- The JSON value of a selector. -/
def toJson : DeviceSelector → Json
  | index i => .ofMembers [("index", .natural i.toNat)]
  | name part => .ofMembers [("name", .string part)]

/-- The selector that a JSON value denotes. -/
def ofJson? (v : Json) : Option DeviceSelector :=
  match v.variant? with
  | some ("index", i) => i.word64?.map index
  | some ("name", part) => part.string?.map name
  | _ => none

end DeviceSelector

namespace ValuePolicy

/-- The JSON value of a policy. -/
def toJson : ValuePolicy → Json
  | constant value => .ofMembers [("constant", .integer value.toInt)]
  | random seed => .ofMembers [("random", .ofMembers [("seed", .natural seed.toNat)])]

/-- The policy that a JSON value denotes. -/
def ofJson? (v : Json) : Option ValuePolicy :=
  match v.variant? with
  | some ("constant", value) => value.int64?.map constant
  | some ("random", r) => do
    let fields ← r.record? ["seed"]
    return random (← Json.required? fields "seed" Json.word64?)
  | _ => none

end ValuePolicy

namespace Instance

/-- The names of the fields of an instance, in order. -/
def fieldNames : List String :=
  ["opencl_src", "build_opts", "device", "dynamic_params", "value_policy",
    "check_input_sensitivity", "inputs"]

/-- The JSON value of input texts. -/
def inputsToJson (inputs : List (List String)) : Json :=
  .array (inputs.map fun entry => .array (entry.map Json.string))

/-- The JSON value of an instance; inputs are left out where there are none. -/
def toJson (i : Instance) : Json :=
  .ofMembers <|
    [("opencl_src", .string i.source),
      ("build_opts", .string i.buildOptions),
      ("device", i.device.toJson),
      ("dynamic_params", .array (i.matrix.map LaunchSizes.toJson)),
      ("value_policy", i.policy.toJson),
      ("check_input_sensitivity", .bool i.checkSensitivity)] ++
    match i.inputs with
    | some inputs => [("inputs", inputsToJson inputs)]
    | none => []

/-- The instance that a JSON value denotes. Source and sizes must be there; every other field
    has a value to fall back on. -/
def ofJson? (v : Json) : Option Instance := do
  let fields ← v.record? fieldNames
  return {
    source := ← Json.required? fields "opencl_src" Json.string?
    buildOptions := ← Json.optional? fields "build_opts" "" Json.string?
    device := ← Json.optional? fields "device" (.index 0) DeviceSelector.ofJson?
    matrix := ← Json.required? fields "dynamic_params" (Json.list? LaunchSizes.ofJson?)
    policy := ← Json.optional? fields "value_policy" .standard ValuePolicy.ofJson?
    checkSensitivity := ← Json.optional? fields "check_input_sensitivity" true Json.bool?
    inputs := ← Json.optional? fields "inputs" none
      (Json.orNull? (Json.list? (Json.list? Json.string?))) }

/-- The text of the file that holds an instance. -/
def text (i : Instance) : String :=
  i.toJson.pretty

/-- The instance in the text of a file. -/
def parse? (s : String) : Option Instance :=
  (Json.parse? s).bind ofJson?

/-- The instance in the text of a file, or the failure of a file that holds none, where `reason`
    words what is wrong with its text. -/
def load (reason : String → String) (s : String) : Except Failure Instance :=
  match parse? s with
  | some i => .ok i
  | none => .error (.config (reason s))

/-- The instance with one more pair of sizes. -/
def withSizes (i : Instance) (s : LaunchSizes) : Instance :=
  { i with matrix := i.matrix ++ [s] }

end Instance

end KernelDiff
