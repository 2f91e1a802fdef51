import KernelHost.Plan.Argument
import KernelHost.Plan.Comparison
import KernelHost.Plan.Schedule
import KernelHost.Plan.Signature

/-!
# Plans

Everything that is decided about a host program before a line of it is written.
-/

namespace KernelHost

/-- A kernel with the layouts of its variables. -/
structure PlannedKernel where
  kernel : Kernel
  /-- Its variables. -/
  placed : List Placed
  /-- What it is called on, by ascending index. -/
  arguments : List Argument
  deriving DecidableEq, Repr

/-- A plan. -/
structure Plan where
  /-- The settings of the manifest. -/
  settings : Settings
  /-- The kernels in the order of their declarations. -/
  kernels : List PlannedKernel
  /-- What hooks are handed. -/
  signature : Signature
  /-- The order of the launches. -/
  schedule : Schedule
  /-- The buffers in the order in which they are created. -/
  buffers : List Buffer
  /-- The comparisons of outputs. -/
  checks : List Check
  deriving DecidableEq, Repr

namespace Plan

/-- Lays out the variables of a kernel with the given index. -/
def placeKernel (copies : Nat) (k : Kernel) (index : Nat) : Checked (Kernel × List Placed) :=
  (Checked.each (fun ((v, i) : Variable × Nat) =>
    (Layout.ofVariable v copies).map fun layout =>
      { slot := ⟨index, i⟩, kernel := k, decl := v, layout : Placed }) k.vars.zipIdx).map
    (k, ·)

/-- Lays out the variables of all kernels. -/
def placeKernels (copies : Nat) (kernels : List Kernel) : Checked (List (Kernel × List Placed)) :=
  Checked.each (fun (k, index) => placeKernel copies k index) kernels.zipIdx

/-- The plan for kernels that are laid out and arranged. -/
def assemble (settings : Settings) (kernels : List (Kernel × List Placed))
    (schedule : Schedule) : Plan :=
  let template := settings.template
  let placed := kernels.flatMap (·.2)
  { settings, schedule
    kernels := kernels.map fun (kernel, placed) =>
      { kernel, placed, arguments := argumentsOf template placed }
    signature := .ofPlaced placed
    buffers := placed.filterMap (·.buffer? template)
    checks := placed.filterMap (·.check?) }

/-- Plans the host program of a manifest. -/
def ofManifest (m : Manifest) : Checked Plan := do
  let (kernels, schedule) ←
    Checked.both (placeKernels m.settings.copies m.kernels) (Schedule.ofKernels m.kernels)
  return assemble m.settings kernels schedule

/-- The variables of all kernels in order. -/
def placed (p : Plan) : List Placed :=
  p.kernels.flatMap (·.placed)

/-- The variables that the host knows, in order. -/
def hostPlaced (p : Plan) : List Placed :=
  p.placed.filter (·.decl.onHost)

/-- The template. -/
def template (p : Plan) : Template :=
  p.settings.template

end Plan
end KernelHost
