import KernelDiff.Device.Error

namespace KernelDiff

/-!
# Failures

Everything that can stop an operation of the library, by cause, with the text shown to a user.
-/

/-- Why an operation was stopped. -/
inductive Failure
  /-- A call to the device failed. -/
  | device (error : DeviceError)
  /-- No device answers to the selector. -/
  | deviceNotFound (detail : String)
  /-- The compiler rejected the program. -/
  | build (log : String)
  /-- Work-group memory exists on the device only. -/
  | scratchNotReadable
  /-- A buffer without memory on the device was to be used there. -/
  | detachedBuffer
  /-- A parameter is of a type that no value can be made for. -/
  | unsupportedArgument (index : Nat) (typeName : String)
  /-- A pair of sizes that cannot be launched. -/
  | invalidSizes (detail : String)
  /-- A name that is no element type. -/
  | unknownType (name : String)
  /-- A text that is no value of its type. -/
  | unreadableValue (text typeName : String)
  /-- As many input entries as the kernel takes were expected. -/
  | inputCount (expected provided : Nat)
  /-- An information query had a result of the wrong kind. -/
  | unexpectedInfo (detail : String)
  /-- A configuration file could not be used. -/
  | config (detail : String)
  deriving DecidableEq, Repr

namespace Failure

/-- The text shown to a user. -/
def message : Failure → String
  | device e => "OpenCL error: " ++ e.text
  | deviceNotFound detail => "device not found: " ++ detail
  | build log => "program build failed: " ++ log
  | scratchNotReadable => "local memory argument is not host-readable"
  | detachedBuffer => "global buffer has no device mirror"
  | unsupportedArgument index typeName =>
    "unsupported argument " ++ toString index ++ " of type '" ++ typeName ++ "'"
  | invalidSizes detail => "invalid dynamic params: " ++ detail
  | unknownType name => "unknown OpenCL type '" ++ name ++ "'"
  | unreadableValue text typeName => "cannot parse '" ++ text ++ "' as " ++ typeName
  | inputCount expected provided =>
    "kernel expects " ++ toString expected ++ " inputs, but " ++ toString provided ++
      " were provided"
  | unexpectedInfo detail => "unexpected OpenCL info result: " ++ detail
  | config detail => "config error: " ++ detail

/-- The status of the device call behind a failure, if there is one. -/
def status : Failure → Option DeviceStatus
  | device e => e.status
  | _ => none

end Failure

end KernelDiff
