import KernelHost.Proofs.Code.Declared
import Mathlib.Data.List.Perm.Basic

/-!
# Derived names

The checks of a manifest and the host program derive the same variables from kernels and variables:
what the program declares is, in another order, its variables with fixed names, its completion
lists, the variables of the holders that the checks look at, and the variables of the manifest.
-/

namespace KernelHost.Host

open Code (Stmt Var gather)

/-- The variables with fixed names. -/
def fixedVars (p : Plan) : List Var :=
  discoveryVars ++ loadingVars ++ runVars p

/-- The variables with fixed names where a loop is run and profiled. -/
def allFixedVars : List Var :=
  discoveryVars ++ loadingVars ++
    [Var.loopFlag, .invalidDataFound, .iterations, .timeBefore, .timeAfter, .execTime]

theorem fixedVars_sublist (p : Plan) : (fixedVars p).Sublist allFixedVars := by
  refine List.Sublist.append (.refl _) ?_
  unfold runVars
  split_ifs <;> decide

/-- The variables derived from a kernel. -/
def kernelVars (k : Kernel) : List Var :=
  k.parts.map (KernelPart.var k.ident)

/-- The variables derived from a variable of the host. -/
def variableVars (copies : Nat) (v : Variable) : List Var :=
  (v.parts copies).map (VariablePart.var v.name)

/-- The variables derived from kernels and variables. -/
def derivedVars (p : Plan) : List Var :=
  p.kernels.flatMap (kernelVars ·.kernel) ++
    p.hostPlaced.flatMap fun v => variableVars p.settings.copies v.decl

/-- The variables of the manifest. -/
def hostVars (p : Plan) : List Var :=
  p.hostPlaced.map (.host ·.decl.name)

theorem kernelVars_eq (k : Kernel) :
    kernelVars k = .queue k.ident :: .kernel k.ident :: rangeVars k := by
  cases sizes : k.range.localSizes <;>
    simp [kernelVars, rangeVars, Kernel.parts, KernelPart.var, sizes]

/-- The program keeps for a variable what the checks expect it to keep. -/
theorem copyVars_perm {p : Plan} (wellFormed : p.WellFormed) {v : Placed}
    (mem : v ∈ p.hostPlaced) :
    (copyVars p.template v).Perm (variableVars p.settings.copies v.decl) := by
  have onHost : v.decl.onHost := (Plan.mem_hostPlaced.mp mem).elim fun _ found => found.2.2
  have buffer :
      (v.buffer? p.template).toList.map (·.handle) =
        if v.decl.role == .output || 1 < v.decl.members * p.settings.copies then
          [.buffer v.decl.name]
        else [] := by
    have isSome := Placed.isSome_buffer?_iff onHost p.template
    rw [wellFormed.isArray_iff mem] at isSome
    cases made : v.buffer? p.template with
    | none => simpa [made] using isSome
    | some b =>
        obtain ⟨_, _, _, -, -, rfl⟩ := Placed.buffer?_eq_some_iff.mp made
        simp [made] at isSome
        simp [isSome, Buffer.handle]
  rw [copyVars, buffer, (wellFormed.fits mem).reference]
  refine List.perm_append_comm.trans (.of_eq ?_)
  simp only [variableVars, Variable.parts, List.map_append]
  congr 1
  · split_ifs <;> rfl
  · cases v.decl.validated <;> cases v.decl.tolerance <;> rfl

/-- What `main` declares, by what the names are made of. -/
theorem declares_body_perm {p : Plan} (wellFormed : p.WellFormed) :
    (gather Stmt.declares (body p)).Perm
      (fixedVars p ++ tierVars p ++ derivedVars p ++ hostVars p) := by
  have ofKernels :
      (p.kernels.map (fun k => Var.queue k.kernel.ident) ++
          (p.kernels.map (fun k => Var.kernel k.kernel.ident) ++
            p.kernels.flatMap (rangeVars ·.kernel))).Perm
        (p.kernels.flatMap (kernelVars ·.kernel)) := by
    simp only [kernelVars_eq]
    exact ((List.map_append_flatMap_perm ..).append_left _).trans
      (List.map_append_flatMap_perm ..)
  have ofVariables :
      (p.hostPlaced.flatMap fun v => .host v.decl.name :: copyVars p.template v).Perm
        (hostVars p ++ p.hostPlaced.flatMap fun v => variableVars p.settings.copies v.decl) :=
    (List.map_append_flatMap_perm ..).symm.trans <|
      (List.Perm.flatMap_left _ fun v mem => copyVars_perm wellFormed mem).append_left _
  rw [declares_body, List.perm_iff_count]
  intro var
  have kernels_count := ofKernels.count_eq var
  have variables_count := ofVariables.count_eq var
  simp only [List.count_append, fixedVars, derivedVars] at *
  omega

/-- The checks of a manifest look at exactly the variables that the program derives. -/
theorem holders_vars {p : Plan} {m : Manifest} (arranged : p.Arranges m)
    (admitted : m.Admitted) : m.holders.map (·.var) = derivedVars p := by
  have none := admitted.nameProblems_eq_nil
  simp only [Manifest.nameProblems, List.append_eq_nil_iff, Manifest.repeatedKernels_eq_nil_iff,
    Manifest.takenVariables_eq_nil_iff] at none
  obtain ⟨⟨⟨⟨idents, -⟩, -⟩, -, names⟩, -⟩ := none
  have names : ((m.hostVariables.map (·.2)).map (·.name)).Nodup := by
    simpa [Function.comp_def] using names
  rw [Manifest.holders, firstByKey_eq_self idents, firstByKey_eq_self names,
    ← arranged.kernels, ← arranged.hostPlaced_decls, ← arranged.settings]
  simp [derivedVars, kernelVars, variableVars, List.map_flatMap, List.flatMap_map,
    Function.comp_def, Holder.var]

end KernelHost.Host
