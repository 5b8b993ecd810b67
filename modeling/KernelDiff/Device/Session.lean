import KernelDiff.Device.Call
import KernelDiff.Failure
import KernelDiff.Profile

namespace KernelDiff

/-!
# Sessions

A session is a computation that talks to a device and keeps a profile. It can fail; what it has
done up to then stays done.
-/

/-- What a session works on. -/
structure Bench (σ : Type) where
  device : σ
  profile : Profile

/-- A computation on a bench that may fail. -/
abbrev Session (σ : Type) := ExceptT Failure (StateM (Bench σ))

namespace Session

/-- Run a session. -/
def on (x : Session σ α) (b : Bench σ) : Except Failure α × Bench σ :=
  x b

/-- A session that only passes on a result. -/
def ofExcept : Except Failure α → Session σ α
  | .ok a => pure a
  | .error e => throw e

end Session

namespace Device

variable (d : Device σ)

/-- Make one call. -/
def call (c : Call) : Session σ c.Answer := fun b =>
  match d.answer c b.device with
  | (.ok a, s) => (.ok a, { b with device := s })
  | (.error e, s) => (.error (.device e), { b with device := s })

/-- Hand a text to the device, which must not hold a zero byte. -/
def passText (s : String) : Session σ Unit :=
  Session.ofExcept ((cString s).mapError .device)

/-- Ask for the times of a command, and record them under a stage. -/
def recordEvent (stage : Stage) (event : Nat) : Session σ Unit := do
  let queued ← d.call (.timestamp event .queued)
  let start ← d.call (.timestamp event .start)
  let finish ← d.call (.timestamp event .finish)
  modify fun b => { b with profile := b.profile.record stage (.between queued start finish) }

end Device

end KernelDiff
