import KernelHost.Proofs.Names.Derived

/-!
# Claimed names

The checks of a manifest claim a name for everything that the host program keeps for a kernel or for
a variable besides its value.  `main` declares exactly what is claimed: nothing without a claim, and
nothing is claimed in vain.
-/

namespace KernelHost

open Code (Stmt Var gather)

/-- Whether a variable is kept for a kernel, or for a variable of the manifest besides its value. -/
def Code.Var.isDerived : Var → Bool
  | .queue _ | .kernel _ | .workDim _ | .globalSize _ | .localSize _ => true
  | .reference _ | .tolerance _ | .buffer _ => true
  | _ => false

namespace Host

theorem isDerived_of_mem_kernelVars {k : Kernel} {v : Var} (mem : v ∈ kernelVars k) :
    v.isDerived := by
  obtain ⟨part, -, rfl⟩ := List.mem_map.mp mem
  cases part <;> rfl

theorem isDerived_of_mem_variableVars {copies : Nat} {decl : Variable} {v : Var}
    (mem : v ∈ variableVars copies decl) : v.isDerived := by
  obtain ⟨part, -, rfl⟩ := List.mem_map.mp mem
  cases part <;> rfl

theorem isDerived_of_mem_derivedVars {p : Plan} {v : Var} (mem : v ∈ derivedVars p) :
    v.isDerived := by
  rcases List.mem_append.mp mem with ofKernel | ofVariable
  · obtain ⟨k, -, mem⟩ := List.mem_flatMap.mp ofKernel
    exact isDerived_of_mem_kernelVars mem
  · obtain ⟨w, -, mem⟩ := List.mem_flatMap.mp ofVariable
    exact isDerived_of_mem_variableVars mem

theorem not_isDerived_of_mem_fixedVars {p : Plan} {v : Var} (mem : v ∈ fixedVars p) :
    v.isDerived = false := by
  have all : ∀ w ∈ allFixedVars, w.isDerived = false := by decide
  exact all v ((fixedVars_sublist p).subset mem)

/-- Among all that `main` declares, the derived variables are those of the plan. -/
theorem filter_isDerived_perm {p : Plan} (wellFormed : p.WellFormed) :
    ((gather Stmt.declares (body p)).filter Var.isDerived).Perm (derivedVars p) := by
  have fixed : (fixedVars p).filter Var.isDerived = [] := by
    rw [List.filter_eq_nil_iff]
    intro v mem
    simp [not_isDerived_of_mem_fixedVars mem]
  have tiers : (tierVars p).filter Var.isDerived = [] := by
    rw [List.filter_eq_nil_iff]
    intro v mem
    obtain ⟨tier, -, rfl⟩ := List.mem_map.mp mem
    simp [Var.isDerived]
  have hosts : (hostVars p).filter Var.isDerived = [] := by
    rw [List.filter_eq_nil_iff]
    intro v mem
    obtain ⟨w, -, rfl⟩ := List.mem_map.mp mem
    simp [Var.isDerived]
  have derived : (derivedVars p).filter Var.isDerived = derivedVars p := by
    rw [List.filter_eq_self]
    intro v mem
    exact isDerived_of_mem_derivedVars mem
  have perm := (declares_body_perm wellFormed).filter Var.isDerived
  simpa [List.filter_append, fixed, tiers, hosts, derived] using perm

/-- The claims of an accepted manifest are the derived variables that `main` declares, each as often
as it is declared; so the claimed names are the declared ones. -/
theorem claimed_iff_declared {source : String} {m : Manifest} {p : Plan}
    (read : Manifest.read source = .ok m) (planned : Plan.ofManifest m = .ok p) :
    (m.holders.map (·.var)).Perm
        ((gather Stmt.declares (Program.ofPlan p).body).filter Var.isDerived) ∧
      ∀ name, name ∈ m.holders.map (·.name) ↔
        ∃ v ∈ gather Stmt.declares (Program.ofPlan p).body, v.isDerived ∧ v.text = name := by
  have admitted := Manifest.admitted_of_read read
  have arranged := Plan.arranges_of_ofManifest planned
  have perm : (m.holders.map (·.var)).Perm
      ((gather Stmt.declares (Program.ofPlan p).body).filter Var.isDerived) := by
    rw [holders_vars arranged admitted]
    exact (filter_isDerived_perm (arranged.wellFormed admitted)).symm
  refine ⟨perm, fun name => ?_⟩
  have names : m.holders.map (·.name) = (m.holders.map (·.var)).map Var.text := by
    rw [List.map_map]
    rfl
  rw [names, (perm.map Var.text).mem_iff, List.mem_map]
  constructor
  · rintro ⟨v, mem, rfl⟩
    obtain ⟨declared, derived⟩ := List.mem_filter.mp mem
    exact ⟨v, declared, derived, rfl⟩
  · rintro ⟨v, declared, derived, rfl⟩
    exact ⟨v, List.mem_filter.mpr ⟨declared, derived⟩, rfl⟩

theorem claimed_iff_declared_sampleManifest :
    ∃ m p, Manifest.read Plan.sampleManifest = .ok m ∧ Plan.ofManifest m = .ok p ∧
      p.kernels ≠ [] ∧
      (m.holders.map (·.var)).Perm
          ((gather Stmt.declares (Program.ofPlan p).body).filter Var.isDerived) ∧
        ∀ name, name ∈ m.holders.map (·.name) ↔
          ∃ v ∈ gather Stmt.declares (Program.ofPlan p).body, v.isDerived ∧ v.text = name := by
  obtain ⟨m, p, read, planned, kernels⟩ := Plan.sampleManifest_planned
  exact ⟨m, p, read, planned, kernels, claimed_iff_declared read planned⟩

end Host
end KernelHost
