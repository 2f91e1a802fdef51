import KernelHost.Checked
import KernelHost.Manifest.Basic

/-!
# Schedules

Kernels with one order key form a tier and run at the same time, each on its own queue.  The tiers
run in the order of their keys: the launches of a tier complete the slots of its list, and those of
the next tier wait for all of them.
-/

namespace KernelHost

/-- Kernels that run at the same time. -/
structure Tier where
  /-- Their key, if they have one. -/
  key : Option Int
  /-- Their indices in ascending order. -/
  kernels : List Nat
  deriving DecidableEq, Repr

/-- The tiers in the order in which they run. -/
structure Schedule where
  tiers : List Tier := []
  deriving DecidableEq, Repr

/-- A launch of a kernel. -/
structure Launch where
  /-- The index of the kernel. -/
  kernel : Nat
  /-- The tier whose list it waits for. -/
  wait : Option Nat
  /-- The tier whose list it completes a slot of, and the slot. -/
  signal : Option (Nat × Nat)
  deriving DecidableEq, Repr

namespace Schedule

/-- The keys of kernels, each once, in ascending order. -/
def keys (kernels : List Kernel) : List Int :=
  (kernels.filterMap (·.order)).eraseDups.mergeSort (· ≤ ·)

/-- The indices of the kernels with a key. -/
def indicesOf (kernels : List Kernel) (key : Option Int) : List Nat :=
  (kernels.zipIdx.filter fun (k, _) => k.order == key).map (·.2)

/-- The kernels without a key, if `ordered` is a kernel with one. -/
def unordered (kernels : List Kernel) (ordered : Kernel) : List (At Problem) :=
  (kernels.filter (·.order.isNone)).map fun k => ⟨.missingOrder k.name ordered.name, k.span⟩

/-- The tiers of kernels that all have a key, or of which none has one. -/
def tiersOf (kernels : List Kernel) : List Tier :=
  if kernels.isEmpty then []
  else if kernels.all (·.order.isNone) then [⟨none, indicesOf kernels none⟩]
  else (keys kernels).map fun key => ⟨some key, indicesOf kernels (some key)⟩

/-- Arranges kernels; either all of them have a key or none has one. -/
def ofKernels (kernels : List Kernel) : Checked Schedule := do
  match kernels.find? (·.order.isSome) with
  | none => return ⟨tiersOf kernels⟩
  | some ordered =>
    .ofProblems (unordered kernels ordered)
    return ⟨tiersOf kernels⟩

/-- The number of completion lists, one between each tier and the next. -/
def boundaries (s : Schedule) : Nat :=
  s.tiers.length - 1

/-- The number of slots of the list of a tier. -/
def listLength (s : Schedule) (tier : Nat) : Nat :=
  (s.tiers[tier]?).elim 0 (·.kernels.length)

/-- The launches of a tier with the given index. -/
def launchesOf (s : Schedule) (tier : Tier) (index : Nat) : List Launch :=
  tier.kernels.zipIdx.map fun (kernel, slot) =>
    { kernel
      wait := if 0 < index then some (index - 1) else none
      signal := if index < s.boundaries then some (index, slot) else none }

/-- All launches in order. -/
def launches (s : Schedule) : List Launch :=
  s.tiers.zipIdx.flatMap fun (tier, index) => s.launchesOf tier index

end Schedule
end KernelHost
