import KernelHost.Proofs.Execution.Quiet
import KernelHost.Proofs.Plan.Shape
import KernelHost.Proofs.Resources.Holding

/-!
# The handles of a plan

Everything that the host program of a plan acquires is kept in one of the plan's handles: allocated
storage, what the set-up gets hold of, and the slots of the completion lists.  On the main path the
handles that are still to be filled are null; at the clean-up any of them may be.
-/

namespace KernelHost.Host

open Code (Call Callee Condition Contract Expr Stmt Var)

/-- The handles of allocated storage. -/
def heapHandles (p : Plan) : List Handle :=
  (heap p).map (.ofVar .free)

/-- The queue of a kernel. -/
def queueHandle (k : PlannedKernel) : Handle :=
  .ofVar .clReleaseCommandQueue (.queue k.kernel.ident)

/-- The kernel object of a kernel. -/
def kernelHandle (k : PlannedKernel) : Handle :=
  .ofVar .clReleaseKernel (.kernel k.kernel.ident)

/-- The handle of a buffer. -/
def bufferHandle (b : Buffer) : Handle :=
  .ofVar .clReleaseMemObject b.handle

/-- What the set-up gets hold of before it looks for the program. -/
def deviceHandles (p : Plan) : List Handle :=
  [.ofVar .free .platforms, .ofVar .free .devices, .ofVar .clReleaseContext .context] ++
    p.kernels.map queueHandle

/-- What the program is loaded with. -/
def programHandles : List Handle :=
  [.ofVar .fclose .programFile, .ofVar .free .programContent, .ofVar .clReleaseProgram .program]

/-- What the set-up gets hold of, in this order. -/
def setupHandles (p : Plan) : List Handle :=
  deviceHandles p ++ programHandles ++ p.kernels.map kernelHandle ++ p.buffers.map bufferHandle

/-- The slot of a completion list. -/
def slotHandle (tier slot : Nat) : Handle :=
  ⟨.slot (.tierDone tier) slot, .clReleaseEvent⟩

/-- The slots of the completion list of a tier. -/
def tierHandles (p : Plan) (tier : Nat) : List Handle :=
  (List.range (p.schedule.listLength tier)).map (slotHandle tier)

/-- The slots of all completion lists. -/
def slotHandles (p : Plan) : List Handle :=
  (List.range p.schedule.boundaries).flatMap (tierHandles p)

/-- All handles of a plan. -/
def allHandles (p : Plan) : List Handle :=
  heapHandles p ++ setupHandles p ++ slotHandles p

/-! ## Handles are told apart -/

theorem mem_heapOf {v : Placed} {var : Var} (mem : var ∈ heapOf v) :
    var = .host v.decl.name ∨ var = .reference v.decl.name := by
  rw [heapOf] at mem
  split_ifs at mem <;> simp_all

theorem heap_nodup {p : Plan} (wellFormed : p.WellFormed) : (heap p).Nodup := by
  refine List.nodup_flatMap.mpr ⟨fun v _ => ?_, ?_⟩
  · rw [heapOf]
    split_ifs <;> simp
  · refine (List.pairwise_map.mp wellFormed.names_nodup).imp fun apart var left right => ?_
    rcases mem_heapOf left with rfl | rfl <;> rcases mem_heapOf right with same | same <;>
      simp_all

/-- Allocated storage is that of variables and reference copies. -/
theorem mem_heap {p : Plan} {var : Var} (mem : var ∈ heap p) :
    ∃ name, var = .host name ∨ var = .reference name := by
  obtain ⟨v, -, mem⟩ := List.mem_flatMap.mp mem
  exact ⟨_, mem_heapOf mem⟩

theorem places_nodup {p : Plan} (wellFormed : p.WellFormed) :
    ((allHandles p).map (·.place)).Nodup := by
  have storage : ((heap p).map Place.var).Nodup :=
    (heap_nodup wellFormed).map fun _ _ => by simp
  have queues : (p.kernels.map fun k => Place.var (.queue k.kernel.ident)).Nodup := by
    have := wellFormed.idents_nodup.map (f := fun ident => Place.var (.queue ident))
      fun _ _ => by simp
    simpa [Function.comp_def] using this
  have kernels : (p.kernels.map fun k => Place.var (.kernel k.kernel.ident)).Nodup := by
    have := wellFormed.idents_nodup.map (f := fun ident => Place.var (.kernel ident))
      fun _ _ => by simp
    simpa [Function.comp_def] using this
  have buffers : (p.buffers.map fun b => Place.var (.buffer b.host)).Nodup := by
    have := wellFormed.hosts_nodup.map (f := fun host => Place.var (.buffer host))
      fun _ _ => by simp
    simpa [Function.comp_def] using this
  have slots : ((slotHandles p).map (·.place)).Nodup := by
    rw [slotHandles, List.map_flatMap, List.nodup_flatMap]
    refine ⟨fun tier _ => ?_, List.nodup_range.imp fun apart place left right => ?_⟩
    · rw [tierHandles, List.map_map]
      exact List.nodup_range.map fun _ _ => by simp [slotHandle]
    · simp only [tierHandles, List.map_map, List.mem_map] at left right
      obtain ⟨_, -, rfl⟩ := left
      obtain ⟨_, -, same⟩ := right
      simp [slotHandle] at same
      exact apart same.1.symm
  have storage_apart : ∀ v ∈ heap p, ∃ name, v = .host name ∨ v = .reference name :=
    fun _ => mem_heap
  have slots_apart : ∀ h ∈ slotHandles p, ∀ v, h.place ≠ .var v := by
    intro h mem
    simp only [slotHandles, tierHandles, List.mem_flatMap, List.mem_map] at mem
    obtain ⟨tier, -, slot, -, rfl⟩ := mem
    simp [slotHandle]
  simp [allHandles, heapHandles, setupHandles, deviceHandles, programHandles, Function.comp_def,
    queueHandle, kernelHandle, bufferHandle, Handle.ofVar, List.nodup_append', List.disjoint_left,
    storage, queues, kernels, buffers, slots, Buffer.handle]
  refine ⟨?_, fun v mem => ?_⟩
  · simp +contextual [slots_apart]
  · obtain ⟨name, rfl | rfl⟩ := storage_apart v mem <;> simp +contextual [slots_apart]

end KernelHost.Host
