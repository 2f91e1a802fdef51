import KernelHost.Double.Basic
import KernelHost.Problem
import KernelHost.Settings.Basic
import KernelHost.Text.Identifier

/-!
# Manifests

The kernels of a pipeline with the variables that they are called on and the ranges that they are
launched over.
-/

namespace KernelHost

/-- What a variable is to its kernel. -/
inductive Role
  /-- Data from the host. -/
  | input
  /-- Data for the host. -/
  | output
  /-- Memory of a work group, unknown to the host. -/
  | scratch
  deriving DecidableEq, Repr

namespace Role

/-- The tag that declares a variable of the role. -/
def tag : Role → String
  | .input => "input"
  | .output => "output"
  | .scratch => "local"

/-- The role that a tag declares. -/
def ofTag? : String → Option Role
  | "input" => some .input
  | "output" => some .output
  | "local" => some .scratch
  | _ => none

@[simp]
theorem ofTag?_tag (role : Role) : ofTag? role.tag = some role := by
  cases role <;> rfl

end Role

/-- How far an output may be from what is expected of it. -/
structure Tolerance where
  /-- The distance as it is written. -/
  text : String
  /-- The double nearest to it. -/
  value : Double
  deriving DecidableEq, Repr

/-- A variable that a kernel is called on. -/
structure Variable where
  name : String
  /-- The C type of its elements. -/
  type : String
  /-- The number of elements it is declared with. -/
  members : Nat
  /-- What it is to the kernel. -/
  role : Role
  /-- The index of the argument that it is passed as. -/
  argument : Nat
  /-- Text to initialize it with. -/
  literal : Option String := none
  /-- A function to fill it with. -/
  generator : Option String := none
  /-- Whether it is left unvalidated. -/
  unvalidated : Bool := false
  /-- How far it may be from what is expected. -/
  tolerance : Option Tolerance := none
  /-- The place of its declaration. -/
  span : Span
  deriving DecidableEq, Repr

namespace Variable

/-- Whether the host knows the variable. -/
def onHost (v : Variable) : Bool :=
  v.role != .scratch

/-- Whether the variable is compared with a reference copy. -/
def validated (v : Variable) : Bool :=
  v.role == .output && !v.unvalidated

end Variable

/-- The range that a kernel is launched over. -/
structure WorkRange where
  /-- The number of dimensions. -/
  dimensions : Nat
  globalSizes : String
  /-- The text of the sizes of a work group, if they are given. -/
  localSizes : Option String := none
  /-- The place of its declaration. -/
  span : Span
  deriving DecidableEq, Repr

/-- A kernel of the pipeline. -/
structure Kernel where
  /-- Its name in the program of the device. -/
  name : String
  /-- The key that orders it among the kernels. -/
  order : Option Int := none
  /-- The range that it is launched over. -/
  range : WorkRange
  /-- The variables that it is called on. -/
  vars : List Variable
  /-- The place of its declaration. -/
  span : Span
  deriving DecidableEq, Repr

/-- The part of the host's names that stands for the kernel. -/
def Kernel.ident (k : Kernel) : String :=
  Text.capitalized k.name

/-- The place of a variable in a manifest. -/
structure Slot where
  /-- The index of the kernel. -/
  kernel : Nat
  /-- The index of the variable in the kernel. -/
  index : Nat
  deriving DecidableEq, Repr

/-- A manifest. -/
structure Manifest where
  /-- What holds for the host program as a whole. -/
  settings : Settings
  /-- The kernels in the order of their declarations. -/
  kernels : List Kernel
  /-- What was passed over. -/
  remarks : List (At Remark) := []
  deriving DecidableEq, Repr

namespace Manifest

/-- The variables of all kernels with the kernels, in the order of their declarations. -/
def allVariables (m : Manifest) : List (Kernel × Variable) :=
  m.kernels.flatMap fun k => k.vars.map (k, ·)

/-- The variables that the host knows. -/
def hostVariables (m : Manifest) : List (Kernel × Variable) :=
  m.allVariables.filter (·.2.onHost)

end Manifest
end KernelHost
