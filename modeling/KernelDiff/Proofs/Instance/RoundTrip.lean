import KernelDiff.Instance
import KernelDiff.Proofs.Json.Decoding
import KernelDiff.Proofs.Json.Reading

namespace KernelDiff

/-!
# Instances are read back from their files

The JSON value of an instance says everything about it: also which of its alternatives it is made
of, and whether its inputs are there and empty or not there at all. As every value is read back
from its text, an instance is.

* `LaunchSizes.ofJson?_toJson`, `DeviceSelector.ofJson?_toJson`, `ValuePolicy.ofJson?_toJson` — the
  parts of an instance;
* `Instance.ofJson?_toJson` — an instance from its JSON value;
* `Instance.parse?_of_text` — an instance from the text of its file.
-/

theorem LaunchSizes.ofJson?_toJson (s : LaunchSizes) : ofJson? s.toJson = some s := by
  have hrecord : s.toJson.record? fieldNames = some
      [("global_size_x", .natural s.globalSize.toNat),
        ("local_size_x", .natural s.localSize.toNat)] :=
    Json.record?_ofMembers (by simp [fieldNames]) (by simp)
  simp [ofJson?, hrecord, Json.required?, List.lookup_cons]

theorem DeviceSelector.ofJson?_toJson (d : DeviceSelector) : ofJson? d.toJson = some d := by
  cases d with
  | index i => simp [ofJson?, toJson, Json.ofMembers, Json.variant?]
  | name part => simp [ofJson?, toJson, Json.ofMembers, Json.variant?]

theorem ValuePolicy.ofJson?_toJson (p : ValuePolicy) : ofJson? p.toJson = some p := by
  cases p with
  | constant value => simp [ofJson?, toJson, Json.ofMembers, Json.variant?]
  | random seed =>
    have hrecord : (Json.ofMembers [("seed", .natural seed.toNat)]).record? ["seed"] =
        some [("seed", .natural seed.toNat)] :=
      Json.record?_ofMembers (by simp) (by simp)
    have hvariant : (toJson (random seed)).variant? =
        some ("random", .ofMembers [("seed", .natural seed.toNat)]) := rfl
    simp [ofJson?, hvariant, hrecord, Json.required?]

namespace Instance

theorem list?_inputsToJson (inputs : List (List String)) :
    Json.list? (Json.list? Json.string?) (inputsToJson inputs) = some inputs :=
  Json.list?_array (fun entry => Json.list?_array Json.string?_string entry) inputs

/-- The fields of an instance in its JSON value. -/
def fields (i : Instance) : List (String × Json) :=
  [("opencl_src", .string i.source),
    ("build_opts", .string i.buildOptions),
    ("device", i.device.toJson),
    ("dynamic_params", .array (i.matrix.map LaunchSizes.toJson)),
    ("value_policy", i.policy.toJson),
    ("check_input_sensitivity", .bool i.checkSensitivity)] ++
  i.inputs.toList.map fun inputs => ("inputs", inputsToJson inputs)

theorem record?_toJson (i : Instance) : i.toJson.record? fieldNames = some i.fields := by
  have hjson : i.toJson = .ofMembers i.fields := by
    cases i with
    | mk source buildOptions device matrix policy checkSensitivity inputs => cases inputs <;> rfl
  rw [hjson]
  apply Json.record?_ofMembers
  · cases hinputs : i.inputs <;> simp [fields, hinputs, fieldNames]
  · cases hinputs : i.inputs <;> simp [fields, hinputs]

/-- Absent inputs and empty ones are told apart. -/
theorem optional?_inputs (i : Instance) :
    Json.optional? i.fields "inputs" none
      (Json.orNull? (Json.list? (Json.list? Json.string?))) = some i.inputs := by
  cases hinputs : i.inputs with
  | none => simp [Json.optional?, fields, hinputs, List.lookup_cons]
  | some inputs =>
    have hlookup : i.fields.lookup "inputs" = some (inputsToJson inputs) := by
      simp [fields, hinputs, List.lookup_cons]
    have hread : Json.orNull? (Json.list? (Json.list? Json.string?)) (inputsToJson inputs) =
        (Json.list? (Json.list? Json.string?) (inputsToJson inputs)).map some := rfl
    rw [Json.optional?, hlookup]
    simp only [hread, list?_inputsToJson, Option.map_some]

/-- An instance is read back from its JSON value. -/
theorem ofJson?_toJson (i : Instance) : ofJson? i.toJson = some i := by
  have hsource : Json.required? i.fields "opencl_src" Json.string? = some i.source := rfl
  have hoptions : Json.optional? i.fields "build_opts" "" Json.string? = some i.buildOptions := rfl
  have hdevice : Json.optional? i.fields "device" (.index 0) DeviceSelector.ofJson? =
      some i.device := DeviceSelector.ofJson?_toJson i.device
  have hmatrix : Json.required? i.fields "dynamic_params" (Json.list? LaunchSizes.ofJson?) =
      some i.matrix := Json.list?_array LaunchSizes.ofJson?_toJson i.matrix
  have hpolicy : Json.optional? i.fields "value_policy" .standard ValuePolicy.ofJson? =
      some i.policy := ValuePolicy.ofJson?_toJson i.policy
  have hcheck : Json.optional? i.fields "check_input_sensitivity" true Json.bool? =
      some i.checkSensitivity := rfl
  simp [ofJson?, record?_toJson, hsource, hoptions, hdevice, hmatrix, hpolicy, hcheck,
    optional?_inputs]

/-- **Instances are read back from their files.** -/
theorem parse?_of_text (i : Instance) : parse? i.text = some i := by
  rw [parse?, text, Json.parse?_pretty, Option.bind_some, ofJson?_toJson]

end Instance

end KernelDiff
