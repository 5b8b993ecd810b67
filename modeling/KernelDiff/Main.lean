import KernelDiff.CommandLine.Run
import KernelDiff.Simulator.Machine

/-!
# The command

The command line on the simulated platforms: everything it decides is decided by
`CommandLine.parse` and `CommandLine.Options.run`; here files are read and texts are printed.
-/

open KernelDiff

/-- The contents of a file, or of standard input for a dash, if they can be read. -/
def readInput (name : String) : IO (Option String) := do
  try
    if name == "-" then
      return some (← (← IO.getStdin).readToEnd)
    else
      return some (← IO.FS.readFile name)
  catch _ => return none

/-- Run the command. -/
def main (args : List String) : IO UInt32 := do
  let platforms := Simulator.standardPlatforms
  let contents ← match CommandLine.parse args with
    | some (.drive o) => if o.listDevices then pure none else readInput o.inputName
    | _ => pure none
  let ending := CommandLine.run Simulator.device (Simulator.names platforms) (fun _ => contents)
    args (Simulator.start .plain platforms)
  IO.print ending.output
  return UInt32.ofNat ending.status
