import KernelHost.Manifest.Names
import KernelHost.Manifest.Reader

/-!
# Checking names

What no single element can tell: whether kernels, arguments, variables and derived names are told
apart, and whether the names in the manifest leave those of the host program alone.
-/

namespace KernelHost.Manifest

/-- The arguments of a kernel that are bound before. -/
def repeatedArguments (k : Kernel) : List (At Problem) :=
  (withEarlier k.vars).filterMap fun (v, earlier) =>
    (earlier.find? (·.argument == v.argument)).map fun before =>
      ⟨.argumentTwice v.argument k.name before.name, v.span⟩

/-- The kernels whose identifier occurs before, and the repeated arguments of each kernel. -/
def repeatedKernels (m : Manifest) : List (At Problem) :=
  (withEarlier m.kernels).flatMap fun (k, earlier) =>
    let again := (earlier.find? (·.ident == k.ident)).map fun before =>
      ⟨.duplicateKernel k.name before.name, k.span⟩
    again.toList ++ repeatedArguments k

/-- The derived names that are derived before, with their first holders. -/
def ambiguousNames (holders : List Holder) : List (At Problem) :=
  (withEarlier holders).filterMap fun (h, earlier) =>
    (earlier.reverse.find? (·.name == h.name)).map fun first =>
      ⟨.ambiguousName h.name first.text h.text, h.span⟩

/-- The variables of the host whose name is taken or occurs before. -/
def takenVariables (m : Manifest) (holders : List Holder) : List (At Problem) :=
  (withEarlier m.hostVariables).flatMap fun ((_, v), earlier) =>
    let clash := (nameClash? holders v.name).map fun clash => ⟨.variableClash v.name clash, v.span⟩
    let again := (earlier.find? (·.2.name == v.name)).map fun (before, _) =>
      ⟨.duplicateVariable v.name before.name, v.span⟩
    clash.toList ++ again.toList

/-- Why a name cannot be given to a generator, if it cannot. -/
def generatorClash? (m : Manifest) (holders : List Holder) (name : String) : Option NameClash :=
  nameClash? holders name <|>
    if m.hostVariables.any (·.2.name == name) then some .variable else none

/-- The generators of variables of the host whose name is taken. -/
def takenGenerators (m : Manifest) (holders : List Holder) : List (At Problem) :=
  m.hostVariables.filterMap fun (_, v) => do
    let name ← v.generator
    let clash ← m.generatorClash? holders name
    return ⟨.generatorClash name clash, v.span⟩

/-- All problems with the names of a manifest. -/
def nameProblems (m : Manifest) : List (At Problem) :=
  let holders := m.holders
  m.repeatedKernels ++ ambiguousNames holders ++ m.takenVariables holders ++
    m.takenGenerators holders

/-- Succeeds if there are no problems with the names. -/
def check (m : Manifest) : Checked Unit :=
  .ofProblems m.nameProblems

/-- Reads and checks a manifest. -/
def read (source : String) : Checked Manifest := do
  let m ← ofRoot (← rootOf source)
  m.check
  return m

end KernelHost.Manifest
