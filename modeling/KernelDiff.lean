import KernelDiff.Main
import KernelDiff.Proofs.Argument.Matching
import KernelDiff.Proofs.CommandLine.InstanceFile
import KernelDiff.Proofs.Device.Selection
import KernelDiff.Proofs.Element.Grammar
import KernelDiff.Proofs.Element.RoundTrip
import KernelDiff.Proofs.Element.Seeds
import KernelDiff.Proofs.ElementType
import KernelDiff.Proofs.Execution.Allocation
import KernelDiff.Proofs.Execution.Inputs
import KernelDiff.Proofs.Execution.ReadBack
import KernelDiff.Proofs.Execution.Replay
import KernelDiff.Proofs.Execution.Requests
import KernelDiff.Proofs.Instance.Presentation
import KernelDiff.Proofs.Instance.RoundTrip
import KernelDiff.Proofs.Matrix.Agreement
import KernelDiff.Proofs.Matrix.BadInputs
import KernelDiff.Proofs.Matrix.Informational
import KernelDiff.Proofs.Matrix.LaunchSafety
import KernelDiff.Proofs.Matrix.ReadOnly
import KernelDiff.Proofs.Matrix.References
import KernelDiff.Proofs.Matrix.SizeClasses
import KernelDiff.Proofs.Matrix.Variation
import KernelDiff.Proofs.Parameter
import KernelDiff.Proofs.Profile
import KernelDiff.Proofs.Program.Profiles
import KernelDiff.Proofs.Record.Lines
