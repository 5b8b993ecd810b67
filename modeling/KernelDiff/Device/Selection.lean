import KernelDiff.Device.Session
import KernelDiff.Instance

namespace KernelDiff

/-!
# Choosing a device

The devices of all platforms stand in one list, platform by platform. A selector picks one of
them by its place or by a part of its name. A device whose name cannot be had is shown as
`Unknown`, but no name selector picks it.
-/

/-- The names of the devices of every platform, as far as they can be had. -/
abbrev Platforms := List (List (Option String))

/-- A device that is open for use. -/
structure Environment where
  /-- Its place in the list of all devices. -/
  device : Nat
  /-- Its name as shown to a user. -/
  name : String
  deriving DecidableEq, Repr

/-- Why a selector picks no device. -/
inductive SelectionProblem
  | noDevices
  | outOfRange (index available : Nat)
  | noMatch (part : String)
  deriving DecidableEq, Repr

/-- The explanation shown to a user. -/
def SelectionProblem.message : SelectionProblem → String
  | noDevices => "no OpenCL devices found"
  | outOfRange index available =>
    "device index " ++ toString index ++ " out of range (available: " ++ toString available ++ ")"
  | noMatch part => "no device matches '" ++ part ++ "'"

/-- Whether `part` occurs in `s` as a run of characters. -/
def occursIn (part : List Char) : List Char → Bool
  | [] => part.isEmpty
  | c :: s => part.isPrefixOf (c :: s) || occursIn part s

namespace Platforms

/-- All devices, platform by platform. -/
def devices (p : Platforms) : List (Option String) :=
  p.flatten

/-- Whether there is a device at all. -/
def isAvailable (p : Platforms) : Bool :=
  p.any (fun devices => !devices.isEmpty)

/-- A name as shown to a user. -/
def shown (name : Option String) : String :=
  name.getD "Unknown"

/-- The names of all devices as shown to a user, in the order of their places. -/
def names (p : Platforms) : List String :=
  p.devices.map shown

/-- Whether a name selector picks a device with that name. -/
def isMatch (part : String) (name : Option String) : Bool :=
  match name with
  | some n => occursIn part.toList n.toList
  | none => false

/-- The place that a selector picks. -/
def select (p : Platforms) (s : DeviceSelector) : Except SelectionProblem Nat :=
  if p.devices.isEmpty then .error .noDevices
  else
    match s with
    | .index i =>
      if i.toNat < p.devices.length then .ok i.toNat
      else .error (.outOfRange i.toNat p.devices.length)
    | .name part =>
      match p.devices.findIdx? (isMatch part) with
      | some i => .ok i
      | none => .error (.noMatch part)

/-- Pick a device, and open a context and a queue on it. -/
def connect (p : Platforms) (d : Device σ) (s : DeviceSelector) : Session σ Environment := do
  let i ← Session.ofExcept ((p.select s).mapError fun e => .deviceNotFound e.message)
  d.call (.createContext i)
  d.call (.createQueue i)
  return ⟨i, shown (p.devices[i]?.join)⟩

end Platforms

end KernelDiff
