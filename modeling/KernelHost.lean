import KernelHost.Disk.Volume
import KernelHost.Main
import KernelHost.Proofs.Checked
import KernelHost.Proofs.Braces.Balance
import KernelHost.Proofs.Manifest.Exactness
import KernelHost.Proofs.Manifest.Repetitions
import KernelHost.Proofs.Code.Called
import KernelHost.Proofs.Code.Declared
import KernelHost.Proofs.Code.Landing
import KernelHost.Proofs.Code.Loops
import KernelHost.Proofs.Code.ProgramFile
import KernelHost.Proofs.Disk.Endings
import KernelHost.Proofs.Execution.Progress
import KernelHost.Proofs.Execution.Quiet
import KernelHost.Proofs.Failure.Jumps
import KernelHost.Proofs.Hooks.Calls
import KernelHost.Proofs.Inert.Asides
import KernelHost.Proofs.Inert.Deletion
import KernelHost.Proofs.Inert.Heeded
import KernelHost.Proofs.Manifest.Sizes
import KernelHost.Proofs.Freshness.Connection
import KernelHost.Proofs.Freshness.Delivery
import KernelHost.Proofs.Names.Captured
import KernelHost.Proofs.Names.Claimed
import KernelHost.Proofs.Names.Derived
import KernelHost.Proofs.Names.Distinct
import KernelHost.Proofs.Names.Prototypes
import KernelHost.Proofs.Plan.Arguments
import KernelHost.Proofs.Report.Location
import KernelHost.Proofs.Report.Offsets
import KernelHost.Proofs.Report.Rejection
import KernelHost.Proofs.Resources.Acquisition
import KernelHost.Proofs.Resources.Completion
import KernelHost.Proofs.Resources.Declaration
import KernelHost.Proofs.Resources.Release
import KernelHost.Proofs.Resources.Settlement
import KernelHost.Proofs.Schedule.Order
import KernelHost.Proofs.Scope.WellScoped
import KernelHost.Proofs.Validation.Count
import KernelHost.Proofs.Validation.Mismatch
import KernelHost.Proofs.Validation.Outcome
import KernelHost.Proofs.Validation.Tolerance
