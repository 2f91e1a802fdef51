import KernelHost.Host.Program
import KernelHost.Proofs.Inert.Essence

/-!
# Host programs of one essence

Each section of a host program is the same for a plan and for its essence.  Only one of them looks
at anything that the essence leaves out: a variable is declared with its tolerance, but behind its
reference copy, and a variable that has one keeps its tolerance.
-/

namespace KernelHost

open Code (Stmt Var)

namespace Plan

variable {α : Type} (p : Plan)

/-- What is made for each kernel out of what is essential is made for the essence. -/
theorem map_kernels_essence {f : PlannedKernel → α} (same : ∀ k, f k.essence = f k) :
    p.essence.kernels.map f = p.kernels.map f := by
  simp [essence, Function.comp_def, same]

theorem flatMap_kernels_essence {f : PlannedKernel → List α} (same : ∀ k, f k.essence = f k) :
    p.essence.kernels.flatMap f = p.kernels.flatMap f := by
  rw [List.flatMap_def, map_kernels_essence p same, ← List.flatMap_def]

theorem hostPlaced_essence : p.essence.hostPlaced = p.hostPlaced.map Placed.essence := by
  simp [hostPlaced, placed, essence, PlannedKernel.essence, List.flatMap_map, List.map_flatMap,
    List.filter_flatMap, List.filter_map, Placed.essence, Function.comp_def]

end Plan

namespace Host

variable (p : Plan)

/-! ## Declarations -/

theorem declarations_essence : declarations p.essence = declarations p := by
  have queues := p.map_kernels_essence
    (f := fun k => declareHandle "cl_command_queue" (.queue k.kernel.ident)) fun _ => rfl
  have kernels := p.map_kernels_essence
    (f := fun k => declareHandle "cl_kernel" (.kernel k.kernel.ident)) fun _ => rfl
  have ranges := p.flatMap_kernels_essence (f := fun k => rangeDeclarations k.kernel) fun _ => rfl
  rw [declarations, declarations, setupDeclarations, setupDeclarations, queues, kernels, ranges]
  rfl

theorem declareStorage_essence (v : Placed) (var : Var) (contents : Contents) :
    declareStorage v.essence var contents = declareStorage v var contents := rfl

theorem declareVariable_essence {v : Placed} {k : Kernel} {copies : Nat}
    (stands : v.Stands k copies) (template : Template) :
    declareVariable template v.essence = declareVariable template v := by
  cases reference : v.layout.reference with
  | none =>
      simp only [declareVariable, Placed.fields_essence, Variable.fields_essence, reference,
        declareStorage_essence, Plan.buffer?_essence, Option.elim_none]
  | some contents =>
      have tolerance := Plan.tolerance_essence stands (by simp [reference])
      simp only [declareVariable, Placed.fields_essence, Variable.fields_essence, reference,
        declareStorage_essence, Plan.buffer?_essence, Option.elim_some, tolerance]

theorem heap_essence : heap p.essence = heap p := by
  rw [heap, Plan.hostPlaced_essence, List.flatMap_map]
  rfl

theorem hostVariables_essence
    (stand : ∀ k ∈ p.kernels, ∀ v ∈ k.placed, v.Stands k.kernel p.settings.copies) :
    hostVariables p.essence = hostVariables p := by
  have declared : p.essence.hostPlaced.flatMap (declareVariable p.template) =
      p.hostPlaced.flatMap (declareVariable p.template) := by
    rw [Plan.hostPlaced_essence, List.flatMap_map]
    refine List.flatMap_congr fun v mem => ?_
    obtain ⟨k, k_mem, v_mem, -⟩ := Plan.mem_hostPlaced.mp mem
    exact declareVariable_essence (stand k k_mem v v_mem) _
  have filled : p.essence.hostPlaced.flatMap fills = p.hostPlaced.flatMap fills := by
    rw [Plan.hostPlaced_essence, List.flatMap_map]
    rfl
  have template : p.essence.template = p.template := rfl
  rw [hostVariables, hostVariables, template, declared, allocationPhase, allocationPhase,
    heap_essence, fillPhase, fillPhase, filled]

/-! ## Set-up, run and release -/

theorem setup_essence : setup p.essence = setup p := by
  have queues := p.flatMap_kernels_essence (f := fun k => queuePhase p k.kernel) fun _ => rfl
  have kernels := p.flatMap_kernels_essence (f := fun k => kernelPhase k.kernel) fun _ => rfl
  have arguments := p.flatMap_kernels_essence (f := argumentPhase) fun _ => rfl
  have queue (k : Kernel) : queuePhase p.essence k = queuePhase p k := rfl
  simp only [setup, queue, queues, kernels, arguments]
  rfl

theorem launches_essence : launches p.essence = launches p := by
  rw [launches, launches]
  refine List.flatMap_congr fun l _ => ?_
  have found : p.essence.kernels[l.kernel]? = (p.kernels[l.kernel]?).map PlannedKernel.essence :=
    List.getElem?_map
  rw [found]
  cases p.kernels[l.kernel]? <;> rfl

theorem pass_essence (perPass : Bool) : pass p.essence perPass = pass p perPass := by
  have rebound : rebinds p.essence = rebinds p := p.flatMap_kernels_essence fun _ => rfl
  have finished := p.flatMap_kernels_essence
    (f := fun k => callForStatus ⟨.clFinish, [.var (.queue k.kernel.ident)]⟩ none) fun _ => rfl
  have sent : uploadPhase p.essence perPass = uploadPhase p perPass := by
    rw [uploadPhase, uploadPhase, rebound]
    rfl
  have launched : launchPhase p.essence perPass = launchPhase p perPass := by
    rw [launchPhase, launchPhase, launches_essence, finished]
    rfl
  rw [pass, pass, sent, launched]
  rfl

theorem run_essence : run p.essence = run p := by
  have template : p.essence.template = p.template := rfl
  rw [run, run, template, pass_essence, pass_essence]
  rfl

theorem cleanup_essence : cleanup p.essence = cleanup p := by
  have kernels := p.map_kernels_essence
    (f := fun k => release .clReleaseKernel (.kernel k.kernel.ident)) fun _ => rfl
  have queues := p.map_kernels_essence
    (f := fun k => release .clReleaseCommandQueue (.queue k.kernel.ident)) fun _ => rfl
  simp only [cleanup, List.map_reverse, kernels, queues, heap_essence]
  rfl

/-- A plan whose variables stand in their places has the host program of its essence. -/
theorem ofPlan_essence
    (stand : ∀ k ∈ p.kernels, ∀ v ∈ k.placed, v.Stands k.kernel p.settings.copies) :
    Program.ofPlan p.essence = Program.ofPlan p := by
  rw [Program.ofPlan, Program.ofPlan, body, body, declarations_essence,
    hostVariables_essence p stand, setup_essence, run_essence, cleanup_essence]
  rfl

end Host
end KernelHost
