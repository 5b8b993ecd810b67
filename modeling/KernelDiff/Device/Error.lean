namespace KernelDiff

/-!
# Device errors

What a device's runtime reports when a call fails. The text is the runtime's own and is passed
on unchanged; a status is known when the failing call itself returned one.
-/

/-- A status code with its name. -/
structure DeviceStatus where
  code : Int
  name : String
  deriving DecidableEq, Repr

/-- The report on a call that failed. -/
structure DeviceError where
  text : String
  status : Option DeviceStatus
  deriving DecidableEq, Repr

/-- Texts go to a device as C strings, so the byte position of a zero byte is an error. -/
def DeviceError.zeroByte (position : Nat) : DeviceError :=
  ⟨s!"nul byte found in provided data at position: {position}", none⟩

/-- The byte position of the first NUL character. -/
def zeroByteAt? (s : String) : Option Nat :=
  let front := s.toList.takeWhile (· != '\x00')
  if front.length < s.toList.length then some (String.ofList front).utf8ByteSize else none

/-- A text that can go to a device. -/
def cString (s : String) : Except DeviceError Unit :=
  match zeroByteAt? s with
  | none => .ok ()
  | some position => .error (.zeroByte position)

end KernelDiff
