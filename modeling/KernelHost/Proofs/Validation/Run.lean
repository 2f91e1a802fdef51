import KernelHost.Proofs.Validation.Places

/-!
# The run of the validation

The validation of a planned manifest can be run from its announcement to its verdict, and comes to
all places that have to be compared on the way.
-/

namespace KernelHost

open Code (Machine Stmt)
open Host (validation compareOutput)
open Validation

/-! ## The variables of a manifest -/

namespace Manifest

variable {m : Manifest} {v : Variable}

theorem names_nodup (admitted : m.Admitted) : (m.hostVariables.map (·.2.name)).Nodup := by
  have none := admitted.nameProblems_eq_nil
  simp only [nameProblems, List.append_eq_nil_iff, takenVariables_eq_nil_iff] at none
  exact none.1.2.2

theorem named?_eq_some (admitted : m.Admitted) (mem : v ∈ m.hostVariables.map (·.2)) :
    m.named? v.name = some v := by
  have nodup : ((m.hostVariables.map (·.2)).map (·.name)).Nodup := by
    simpa [Function.comp_def] using names_nodup admitted
  cases found : m.named? v.name with
  | none =>
      have other := List.find?_eq_none.mp found v mem
      simp at other
  | some u =>
      have name : u.name = v.name := by simpa using List.find?_some found
      rw [List.inj_on_of_nodup_map nodup (List.mem_of_find?_eq_some found) mem name]

/-- A validated output is stored with its copy. -/
theorem stored_of_mem (admitted : m.Admitted) (mem : v ∈ m.hostVariables.map (·.2))
    (validated : v.validated) : Stored m.grid? m.settings.copies v := by
  have named := named?_eq_some admitted mem
  refine ⟨by simp [grid?, named], by simp [grid?, named, validated], fun given => ?_, rfl, rfl⟩
  obtain ⟨t, tolerance⟩ := Option.isSome_iff_exists.mp given
  simp [grid?, named, tolerance]

end Manifest

/-! ## The comparisons of a plan -/

namespace Plan

variable {p : Plan} {m : Manifest} {w : Placed} {c : Check}

/-- The comparison of a variable is made for its storage. -/
theorem compares_of_comparedBy (wellFormed : p.WellFormed) (mem : w ∈ p.hostPlaced)
    (compared : w.ComparedBy c) : Compares c w.decl p.settings.copies := by
  have fits := wellFormed.fits mem
  obtain ⟨-, -, -, onHost⟩ := mem_hostPlaced.mp mem
  refine ⟨compared.output, compared.comparison, ?_, ?_⟩
  · rw [compared.format, fits.format, fits.vector]
    rfl
  · rw [cells, compared.elements, compared.lanes, fits.storage, fits.vector, if_pos onHost,
      Storage.isArray_ofCount, Storage.count_ofCount]
    simp only [Variable.grid, decide_eq_true_eq, ne_eq, ite_not]

theorem isSome_check?_iff_validated (wellFormed : p.WellFormed) (mem : w ∈ p.hostPlaced) :
    w.check?.isSome ↔ w.decl.validated := by
  rw [Placed.isSome_check?_iff, (wellFormed.fits mem).reference]
  unfold Variable.validated
  cases w.decl.role <;> cases w.decl.unvalidated <;> simp

end Plan

theorem Plan.Arranges.probes_eq {p : Plan} {m : Manifest} (arranged : p.Arranges m) :
    m.probes = p.hostPlaced.flatMap (·.decl.probes m.settings.copies) := by
  have decls := congrArg (List.flatMap (Variable.probes m.settings.copies))
    arranged.hostPlaced_decls
  simpa [Manifest.probes, List.flatMap_map] using decls.symm

theorem Variable.probes_eq {v : Variable} {copies : Nat} {c : Check}
    (compares : Compares c v copies) (validated : v.validated) :
    v.probes copies = (List.range (c.elements.getD 1)).flatMap fun k =>
      (cells c).places.map fun l => ⟨v, k, l⟩ := by
  have elements : (v.grid copies).elements = c.elements := by rw [compares.cells, cells]
  have count : c.elements.getD 1 = v.members * copies := by
    rw [← elements, Variable.grid]
    split <;> simp_all
  rw [Variable.probes, if_pos validated, compares.cells, count]

theorem Manifest.probes_eq_nil {m : Manifest} (none : m.validates = false) : m.probes = [] := by
  refine List.flatMap_eq_nil_iff.mpr fun x mem => ?_
  have unvalidated : x.2.validated = false := by
    simpa using List.any_eq_false.mp none x mem
  simp [Variable.probes, unvalidated]

namespace Validation

variable {α : Type} {M : Memory α} {p : Plan} {m : Manifest} {program : List Stmt}
  {exit : Option Value} {start trace : List Event} {done : List Probe} {found : Bool}

/-! ## The run -/

/-- All that the validation does. -/
def story (M : Memory α) (m : Manifest) : List Event :=
  if m.validates then
    .called .printStep :: record M m.settings.copies false m.probes ++
      if m.probes.any (·.differs M) then [] else [.called .printSuccess]
  else []

/-- The exit code behind the validation. -/
def exitOf (M : Memory α) (m : Manifest) (exit : Option Value) : Option Value :=
  if m.probes.any (·.differs M) then some (.constant "EXIT_FAILURE") else exit

/-- The verdict tells whether a difference was found. -/
theorem achieves_verdict :
    (machine m.grid? M).Achieves program (Stage exit trace found [])
      [.choose (.not (.var .invalidDataFound)) [Host.succeed]
        [.assign (.var .exitCode) (.constant "EXIT_FAILURE")]]
      fun b => b.trace = trace ++ (if found then [] else [.called .printSuccess]) ∧
        b.values .exitCode = if found then some (.constant "EXIT_FAILURE") else exit := by
  refine .choose (R := fun a => found = false ∧ Stage exit trace found [] a)
    (S := fun a => found = true ∧ Stage exit trace found [] a) (fun a stage => ⟨!found, a, ?_, ?_⟩)
    (.plain rfl ?_) (.plain rfl ?_)
  · simp [machine, State.test?, stage.found]
  · cases found <;> simpa using stage
  · rintro a ⟨rfl, stage⟩
    exact ⟨_, rfl, by simp [stage.trace], by simp [stage.exit]⟩
  · rintro a ⟨rfl, stage⟩
    exact ⟨_, rfl, by simp [stage.trace], by simp⟩

section Planned

variable (arranged : p.Arranges m) (admitted : m.Admitted)

include arranged admitted

/-- The comparison of a variable, if there is one, does all places where it has to be compared. -/
theorem achieves_check {w : Placed} (mem : w ∈ p.hostPlaced) :
    (machine m.grid? M).Achieves program (Done M m.settings.copies exit start done [])
      (w.check?.toList.flatMap compareOutput)
      (Done M m.settings.copies exit start (done ++ w.decl.probes m.settings.copies) []) := by
  have wellFormed := arranged.wellFormed admitted
  have validated := Plan.isSome_check?_iff_validated wellFormed mem
  cases made : w.check? with
  | none =>
      have unvalidated : w.decl.validated = false := by simpa [made] using validated
      have none : w.decl.probes m.settings.copies = [] := by simp [Variable.probes, unvalidated]
      simpa [none] using Machine.Achieves.nil fun _ stage => stage
  | some c =>
      replace validated : w.decl.validated := by simpa [made] using validated
      have decl_mem : w.decl ∈ m.hostVariables.map (·.2) := by
        rw [← arranged.hostPlaced_decls]
        exact List.mem_map_of_mem mem
      have compares := Plan.compares_of_comparedBy wellFormed mem (Placed.comparedBy_of_check? made)
      rw [arranged.settings] at compares
      have stored := Manifest.stored_of_mem admitted decl_mem validated
      rw [Variable.probes_eq compares validated]
      simpa using achieves_compareOutput fun k inside l lane =>
        meets_of_compares compares stored inside lane

theorem achieves_checks :
    (machine m.grid? M).Achieves program (Done M m.settings.copies exit start [] [])
      (p.checks.flatMap compareOutput) (Done M m.settings.copies exit start m.probes []) := by
  have row : p.checks.flatMap compareOutput =
      p.hostPlaced.flatMap fun w => w.check?.toList.flatMap compareOutput := by
    rw [arranged.checks_eq, List.filterMap_eq_flatMap_toList, List.flatMap_assoc]
  rw [row, arranged.probes_eq]
  refine Machine.Achieves.composes.flatMap (fun before : List Placed =>
    Done M m.settings.copies exit start
      (before.flatMap (·.decl.probes m.settings.copies)) []) fun before w behind split => ?_
  have mem : w ∈ p.hostPlaced := by simp [split]
  simpa using achieves_check arranged admitted mem

/-- A plan has comparisons if its manifest has a validated output. -/
theorem isEmpty_checks : p.checks.isEmpty = !m.validates := by
  have wellFormed := arranged.wellFormed admitted
  have none : p.checks = [] ↔ ∀ w ∈ p.hostPlaced, w.decl.validated = false := by
    rw [arranged.checks_eq, List.filterMap_eq_nil_iff]
    refine forall₂_congr fun w mem => ?_
    rw [← Bool.not_eq_true, ← Plan.isSome_check?_iff_validated wellFormed mem]
    simp
  have validates : m.validates = p.hostPlaced.any (·.decl.validated) := by
    have same := congrArg (List.any · Variable.validated) arranged.hostPlaced_decls
    simpa [Manifest.validates, Function.comp_def] using same.symm
  rw [validates, Bool.eq_iff_iff, List.isEmpty_iff, none]
  simp

theorem achieves_validation :
    (machine m.grid? M).Achieves program (Stage exit [] false []) (validation p) fun b =>
      b.trace = story M m ∧ b.values .exitCode = exitOf M m exit := by
  unfold validation
  rw [isEmpty_checks arranged admitted, story]
  cases validates : m.validates with
  | false =>
      refine .nil fun a stage => ⟨stage.trace, ?_⟩
      simp [exitOf, Manifest.probes_eq_nil validates, stage.exit]
  | true =>
      have announced : (machine m.grid? M).Achieves program (Stage exit [] false [])
          [.blank, .comment "Validate received data",
            Host.announce false "Validating received data..."]
          (Done M m.settings.copies exit [.called .printStep] [] []) := by
        refine .cons (.idle rfl) (.cons (.idle rfl) (.plain rfl fun a stage => ⟨_, rfl, ?_⟩))
        exact stage.record _
      have compared := announced.append (achieves_checks arranged admitted)
      refine (compared.append achieves_verdict).weaken (fun _ => id) fun b done => ?_
      simpa [exitOf] using done

end Planned

end Validation
end KernelHost
