import KernelDiff.Failure

namespace KernelDiff

/-!
# Launch sizes

A kernel is launched over a number of work items, in groups of a fixed size. A pair of sizes
can be launched when both are positive, the group size divides the number of items, and the
limits of the kernel on its device are kept.
-/

/-- The sizes of a one-dimensional launch. -/
structure LaunchSizes where
  /-- Number of work items. -/
  globalSize : UInt64
  /-- Work items per group. -/
  localSize : UInt64
  deriving DecidableEq, Repr

/-- Why sizes cannot be launched. -/
inductive SizeProblem
  | notPositive (sizes : LaunchSizes)
  | notDivisible (sizes : LaunchSizes)
  | groupTooLarge (sizes : LaunchSizes) (max : Nat)
  | otherGroupRequired (sizes : LaunchSizes) (required : Nat × Nat × Nat)
  deriving DecidableEq, Repr

/-- The limits on the sizes of a kernel's launches. -/
structure GroupLimits where
  /-- The largest group that both the device and the kernel admit. -/
  max : Nat
  /-- The group size in three dimensions that the kernel was compiled for, if it was. -/
  required : Option (Nat × Nat × Nat)
  deriving DecidableEq, Repr

namespace LaunchSizes

/-- The text `global=… local=…`. -/
def text (s : LaunchSizes) : String :=
  "global=" ++ toString s.globalSize.toNat ++ " local=" ++ toString s.localSize.toNat

end LaunchSizes

/-- The explanation shown to a user. -/
def SizeProblem.message : SizeProblem → String
  | notPositive s => "sizes must be positive, got " ++ s.text
  | notDivisible s =>
    "global size " ++ toString s.globalSize.toNat ++ " is not divisible by local size " ++
      toString s.localSize.toNat
  | groupTooLarge s max =>
    "local size " ++ toString s.localSize.toNat ++ " exceeds the maximum work-group size " ++
      toString max
  | otherGroupRequired s (x, y, z) =>
    "kernel requires work-group size [" ++ toString x ++ ", " ++ toString y ++ ", " ++
      toString z ++ "], got local size " ++ toString s.localSize.toNat

/-- The first thing wrong with a pair of sizes under a bound on the group size. -/
def LaunchSizes.problem? (s : LaunchSizes) (max : Nat) : Option SizeProblem :=
  if s.globalSize = 0 ∨ s.localSize = 0 then some (.notPositive s)
  else if s.globalSize % s.localSize ≠ 0 then some (.notDivisible s)
  else if max < s.localSize.toNat then some (.groupTooLarge s max)
  else none

/-- The first thing wrong with a pair of sizes under the limits of a kernel. -/
def GroupLimits.problem? (limits : GroupLimits) (s : LaunchSizes) : Option SizeProblem :=
  match s.problem? limits.max with
  | some p => some p
  | none =>
    match limits.required with
    | some r => if r = (s.localSize.toNat, 1, 1) then none else some (.otherGroupRequired s r)
    | none => none

/-- The verdict on sizes as a check that fails. -/
def SizeProblem.check : Option SizeProblem → Except Failure Unit
  | none => .ok ()
  | some p => .error (.invalidSizes p.message)

end KernelDiff
