import KernelHost.Host.Program
import KernelHost.Manifest.Check

/-!
# Generation

From the text of a manifest to the text of a host program.
-/

namespace KernelHost

/-- A host program with what was passed over in its manifest. -/
structure Generated where
  program : String
  /-- What was passed over. -/
  remarks : List (At Remark)
  deriving DecidableEq, Repr

/-- The host program of a manifest and its plan. -/
def Manifest.generated (m : Manifest) (p : Plan) : Generated where
  program := (Host.Program.ofPlan p).text
  remarks := m.remarks

/-- The host program of the text of a manifest. -/
def generate (source : String) : Checked Generated := do
  let m ← Manifest.read source
  let p ← Plan.ofManifest m
  return m.generated p

end KernelHost
