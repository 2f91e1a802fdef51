import KernelHost.CType.Scalar
import KernelHost.Checked
import KernelHost.Manifest.Basic

/-!
# Storage

How the host keeps a variable: as a single value or an array, where the contents come from, and
whether there is a reference copy to compare with.
-/

namespace KernelHost

/-- The shape of a variable on the host. -/
inductive Storage
  /-- One element. -/
  | single
  /-- Another number of elements. -/
  | array (count : Nat)
  deriving DecidableEq, Repr

namespace Storage

/-- The shape for a number of elements. -/
def ofCount (count : Nat) : Storage :=
  if count = 1 then .single else .array count

/-- The number of elements. -/
def count : Storage → Nat
  | .single => 1
  | .array count => count

/-- Whether the shape is an array. -/
def isArray : Storage → Bool
  | .single => false
  | .array _ => true

@[simp]
theorem count_ofCount (count : Nat) : (ofCount count).count = count := by
  unfold ofCount
  split
  · simp_all [Storage.count]
  · rfl

@[simp]
theorem isArray_ofCount (count : Nat) : (ofCount count).isArray = decide (count ≠ 1) := by
  unfold ofCount
  split <;> simp_all [isArray]

end Storage

/-- Where the contents of a variable come from. -/
inductive Contents
  /-- From text of the manifest. -/
  | literal (text : String)
  /-- From a function. -/
  | generator (name : String)
  /-- From a hook or the device. -/
  | outside
  deriving DecidableEq, Repr

/-- Where a variable asks for its contents to come from; text goes before a function. -/
def Variable.contents (v : Variable) : Contents :=
  match v.literal, v.generator with
  | some text, _ => .literal text
  | none, some name => .generator name
  | none, none => .outside

/-- How the host keeps a variable. -/
structure Layout where
  /-- What the variable is to its kernel. -/
  role : Role
  /-- Its shape. -/
  storage : Storage
  /-- Where its contents come from. -/
  initial : Contents
  /-- Where the contents of its reference copy come from, if it has one. -/
  reference : Option Contents
  /-- Its vector type, if its elements are vectors. -/
  vector : Option VectorType
  /-- The conversion of `printf` for an element or a lane. -/
  format : String
  deriving DecidableEq, Repr

namespace Layout

/-- Whether contents need memory that is allocated when the program starts. -/
def needsHeap : Contents → Bool
  | .literal _ => false
  | _ => true

/-- Whether the value lies in allocated memory. -/
def onHeap (l : Layout) : Bool :=
  l.role != .scratch && l.storage.isArray && needsHeap l.initial

/-- Whether the reference copy lies in allocated memory. -/
def referenceOnHeap (l : Layout) : Bool :=
  l.storage.isArray && l.reference.any needsHeap

/-- The vector type of a variable; a type that looks like one has to be one. -/
def vectorOf (v : Variable) : Checked (Option VectorType) :=
  match VectorType.ofName? v.type with
  | some vector => .ok (some vector)
  | none =>
    if VectorType.isVectorLike v.type then .fail (.unknownVector v.type) v.span else .ok none

/-- The number of elements of a variable; that of scratch memory has no factor. -/
def countOf (v : Variable) (copies : Nat) : Checked Nat :=
  match v.role with
  | .scratch => .ok v.members
  | _ =>
    if v.members * copies < twoTo 64 then .ok (v.members * copies)
    else .fail (.countOverflow v.name) v.span

/-- Decides how the host keeps a variable, with the factor on its elements. -/
def ofVariable (v : Variable) (copies : Nat) : Checked Layout := do
  let vector ← vectorOf v
  let count ← countOf v copies
  return {
    role := v.role
    storage := .ofCount count
    initial := if v.role == .input then v.contents else .outside
    reference := if v.validated then some v.contents else none
    vector
    format := CType.conversion (vector.elim v.type (·.lane.base)) }

end Layout

/-- A variable in its place, with its layout. -/
structure Placed where
  /-- The place in the manifest. -/
  slot : Slot
  /-- The kernel that is called on it. -/
  kernel : Kernel
  decl : Variable
  /-- How the host keeps it. -/
  layout : Layout
  deriving DecidableEq, Repr

end KernelHost
