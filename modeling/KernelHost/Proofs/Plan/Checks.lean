import KernelHost.Proofs.Plan.Shape

/-!
# The comparisons of a plan

Which comparisons a plan has: one for each output with a reference copy, in the order of the
variables, with a loop over the elements of an array and one over the lanes of a vector.
-/

namespace KernelHost

/-- A comparison is that of a variable with its reference copy. -/
structure Placed.ComparedBy (w : Placed) (c : Check) : Prop where
  role : w.decl.role = .output
  /-- There is a reference copy. -/
  copied : w.layout.reference.isSome
  output : c.output = w.decl.name
  comparison : c.comparison = w.decl.tolerance.elim .exact
    fun t => .within (.var (.tolerance w.decl.name)) t.text t.value
  format : c.format = w.layout.format
  /-- Elements are compared one by one in an array. -/
  elements : c.elements = if w.layout.storage.isArray then some w.layout.storage.count else none
  /-- Lanes are compared one by one in a vector. -/
  lanes : c.lanes = w.layout.vector.map (·.lanes)

namespace Placed

variable {w : Placed} {c : Check}

theorem comparedBy_of_check? (made : w.check? = some c) : w.ComparedBy c := by
  rw [check?] at made
  split at made
  · rename_i compared
    rw [Bool.and_eq_true, beq_iff_eq] at compared
    obtain rfl := Option.some.inj made
    refine ⟨compared.1, compared.2, rfl, ?_, rfl, rfl, rfl⟩
    cases w.decl.tolerance <;> rfl
  · simp at made

theorem isSome_check?_iff :
    w.check?.isSome ↔ w.decl.role = .output ∧ w.layout.reference.isSome := by
  rw [check?]
  split <;> simp_all

end Placed

namespace Plan.Arranges

variable {p : Plan} {m : Manifest} (arranged : p.Arranges m)

include arranged

/-- Only variables of the host are compared. -/
theorem checks_eq : p.checks = p.hostPlaced.filterMap (·.check?) := by
  rw [arranged.checks, hostPlaced, List.filterMap_filter]
  refine List.filterMap_congr fun w _ => ?_
  cases role : w.decl.role <;> simp [Variable.onHost, role, Placed.check?]

theorem exists_of_mem_checks {c : Check} (mem : c ∈ p.checks) :
    ∃ w ∈ p.hostPlaced, w.ComparedBy c := by
  rw [arranged.checks_eq] at mem
  obtain ⟨w, w_mem, made⟩ := List.mem_filterMap.mp mem
  exact ⟨w, w_mem, Placed.comparedBy_of_check? made⟩

end Plan.Arranges
end KernelHost
