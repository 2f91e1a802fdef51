import KernelHost.Code.Var
import KernelHost.Manifest.Basic
import KernelHost.Text.Numeral

/-!
# Names of the host program

The names that the host program declares by itself, and those that it derives from the names of
kernels and variables.  Each derived name has a holder, which knows what the name stands for.
-/

namespace KernelHost

open Code (Var)

/-- Each member of a list with the members in front of it, the nearest first. -/
def withEarlier {α : Type} (as : List α) : List (α × List α) :=
  go [] as
where
  /-- Continues behind the given members. -/
  go (earlier : List α) : List α → List (α × List α)
    | [] => []
    | a :: as => (a, earlier) :: go (a :: earlier) as

/-- The members of a list whose key does not occur in front of them. -/
def firstByKey {α κ : Type} [BEq κ] (key : α → κ) (as : List α) : List α :=
  (withEarlier as).filterMap fun (a, earlier) =>
    if earlier.any fun b => key b == key a then none else some a

/-- What the host program keeps for a kernel. -/
inductive KernelPart
  | queue
  | kernel
  /-- The number of dimensions of its range. -/
  | workDim
  /-- The global sizes of its range. -/
  | globalSize
  /-- The local sizes of its range. -/
  | localSize
  deriving DecidableEq, Repr

namespace KernelPart

/-- The variable that holds the part for the kernel with an identifier. -/
def var (ident : String) : KernelPart → Var
  | .queue => .queue ident
  | .kernel => .kernel ident
  | .workDim => .workDim ident
  | .globalSize => .globalSize ident
  | .localSize => .localSize ident

/-- The part in words. -/
def title : KernelPart → String
  | .queue => "command queue"
  | .kernel => "kernel object"
  | .workDim => "work dimension"
  | .globalSize => "global size"
  | .localSize => "local size"

end KernelPart

/-- What the host program keeps for a variable besides its value. -/
inductive VariablePart
  | buffer
  | reference
  | tolerance
  deriving DecidableEq, Repr

namespace VariablePart

/-- The variable that holds the part for the variable with a name. -/
def var (name : String) : VariablePart → Var
  | .buffer => .buffer name
  | .reference => .reference name
  | .tolerance => .tolerance name

/-- The part in words. -/
def title : VariablePart → String
  | .buffer => "buffer"
  | .reference => "reference copy"
  | .tolerance => "tolerance"

end VariablePart

/-- What a derived name stands for. -/
inductive Holder
  | ofKernel (k : Kernel) (part : KernelPart)
  | ofVariable (v : Variable) (part : VariablePart)

namespace Holder

/-- The variable of the host program. -/
def var : Holder → Var
  | .ofKernel k part => part.var k.ident
  | .ofVariable v part => part.var v.name

/-- The derived name. -/
def name (h : Holder) : String :=
  h.var.text

/-- The holder in words. -/
def text : Holder → String
  | .ofKernel k part => s!"the {part.title} of kernel '{k.name}'"
  | .ofVariable v part => s!"the {part.title} of '{v.name}'"

/-- The place of the kernel or variable. -/
def span : Holder → Span
  | .ofKernel k _ => k.span
  | .ofVariable v _ => v.span

end Holder

/-- The parts that the host program keeps for a kernel. -/
def Kernel.parts (k : Kernel) : List KernelPart :=
  [.queue, .kernel, .workDim, .globalSize] ++
    if k.range.localSizes.isSome then [.localSize] else []

/-- The parts that the host program keeps for a variable with the given factor on its elements. -/
def Variable.parts (copies : Nat) (v : Variable) : List VariablePart :=
  (if v.role == .output || 1 < v.members * copies then [.buffer] else []) ++
    if v.validated then .reference :: if v.tolerance.isSome then [.tolerance] else [] else []

/-- The derived names of a manifest; a repeated kernel or variable derives none again. -/
def Manifest.holders (m : Manifest) : List Holder :=
  ((firstByKey Kernel.ident m.kernels).flatMap fun k => k.parts.map (.ofKernel k)) ++
    (firstByKey Variable.name (m.hostVariables.map (·.2))).flatMap fun v =>
      (v.parts m.settings.copies).map (.ofVariable v)

/-- The names that the host program and its headers use whatever the manifest says. -/
def reservedNames : List String :=
  ["main", "rv", "i", "j", "fRet", "platforms", "platformsLen", "devices", "devicesLen",
    "context", "programFile", "programSz", "programContent", "programRet", "program", "loopFlag",
    "invalidDataFound", "iterations", "then", "now", "execTime", "errno", "stderr", "malloc",
    "free", "printf", "fprintf", "fopen", "fseek", "ftell", "fread", "fclose", "strerror",
    "gettimeofday", "timeval", "NULL", "EXIT_SUCCESS", "EXIT_FAILURE", "TEST_EPSILON",
    "FUNCTION_ERROR_STATEMENTS", "POSIX_ERROR_STATEMENTS", "LOOKUP_ERROR_STATEMENTS",
    "ASSERT_CALL", "PRINT_STEP", "PRINT_SUCCESS", "PRINT_FAIL", "PREAMBLE", "POSTAMBLE",
    "LOOPPREAMBLE", "LOOPPOSTAMBLE", "CLEANUP"]

/-- Whether a name is that of the completion list of some tier. -/
def isTierList (name : String) : Bool :=
  match name.toList with
  | 't' :: 'i' :: 'e' :: 'r' :: rest =>
    let digits := rest.takeWhile Char.isDigit
    !digits.isEmpty && rest.drop digits.length == "Done".toList
  | _ => false

/-- Whether a name begins as the names of the runtime do. -/
def isRuntimeName (name : String) : Bool :=
  "cl_".toList.isPrefixOf name.toList || "CL_".toList.isPrefixOf name.toList

/-- Why a name cannot be given to a variable of the host or a generator, if it cannot. -/
def nameClash? (holders : List Holder) (name : String) : Option NameClash :=
  if Text.isKeyword name then some .keyword
  else if isRuntimeName name then some .runtimeName
  else if reservedNames.contains name || isTierList name then some .reserved
  else (holders.find? (·.name == name)).map fun h => .derived h.text

end KernelHost
