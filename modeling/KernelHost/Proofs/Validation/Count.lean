import KernelHost.Proofs.Code.Loops
import KernelHost.Proofs.Code.Sizes
import KernelHost.Proofs.Validation.Outcome

/-!
# The number of comparisons

The loops around a comparison come to each pair of an element and a lane once, so there are as many
comparisons as the product of their bounds.  Only the number of elements is checked when a program
is planned, and with the lanes the product may be too large for 64 bits.
-/

namespace KernelHost

open Code (Reaches Var)
open Host (compareOutput)
open Validation

/-! ## Pairs of indices -/

namespace Check

variable (c : Check)

/-- The product of the bounds of the loops. -/
def visits : Nat :=
  (c.loops.map (·.2)).prod

/-- The pairs of an element and a lane, in the order of the storage. -/
def pairs : List (Nat × Option Nat) :=
  (List.range (c.elements.getD 1)).flatMap fun k => (cells c).places.map (k, ·)

/-- What is compared for a pair. -/
def comparedAt (pair : Nat × Option Nat) : Cell × Cell × Option Cell :=
  (⟨.reference c.output, pair.1, pair.2⟩, ⟨.host c.output, pair.1, pair.2⟩,
    match c.comparison with
    | .exact => none
    | .within _ _ _ => some ⟨.tolerance c.output, 0, none⟩)

theorem visits_eq : c.visits = c.elements.getD 1 * c.lanes.getD 1 := by
  unfold visits loops
  cases c.elements <;> cases c.lanes <;> simp

/-- The number of comparisons is the product of the bounds, if it fits 64 bits. -/
theorem comparisons?_eq :
    c.comparisons? = if c.visits < twoTo 64 then some c.visits else none := by
  rw [visits_eq]
  rfl

theorem length_pairs : c.pairs.length = c.visits := by
  have lanes : (cells c).places.length = c.lanes.getD 1 := by
    unfold cells Grid.places
    cases c.lanes <;> simp
  simp [pairs, visits_eq, lanes, List.length_flatMap]

theorem nodup_pairs : c.pairs.Nodup := by
  rw [pairs, List.nodup_flatMap]
  constructor
  · intro k _
    exact (Grid.nodup_places _).map fun _ _ same => (Prod.mk.inj same).2
  · refine List.nodup_range.imp fun {k k'} apart => List.disjoint_left.mpr ?_
    rintro x here there
    obtain ⟨l, -, rfl⟩ := List.mem_map.mp here
    obtain ⟨l', -, same⟩ := List.mem_map.mp there
    exact apart (Prod.mk.inj same).1.symm

end Check

/-- The lanes of the elements of a variable. -/
def Variable.laneCount (v : Variable) : Nat :=
  (VectorType.ofName? v.type).elim 1 (·.lanes)

namespace Validation

variable {v : Variable} {copies : Nat} {c : Check}

/-- The places of an output are the pairs of its comparison. -/
theorem Compares.probes_eq (compares : Compares c v copies) (validated : v.validated) :
    (v.probes copies).map (fun q => (q.expected, q.actual, q.tolerance)) =
      c.pairs.map c.comparedAt := by
  have tolerance (k : Nat) (l : Option Nat) : (Probe.mk v k l).tolerance =
      (c.comparedAt (k, l)).2.2 := by
    unfold Probe.tolerance Check.comparedAt
    rw [compares.comparison, compares.output]
    cases v.tolerance <;> rfl
  rw [Variable.probes_eq compares validated, Check.pairs, List.map_flatMap, List.map_flatMap]
  refine List.flatMap_congr fun k _ => ?_
  rw [List.map_map, List.map_map]
  refine List.map_congr_left fun l _ => ?_
  simp [tolerance, Probe.expected, Probe.actual, Check.comparedAt, compares.output]

theorem Compares.visits_eq (compares : Compares c v copies) :
    c.visits = v.members * copies * v.laneCount := by
  have elements : c.elements = if v.members * copies = 1 then none else some (v.members * copies) :=
    congrArg Grid.elements compares.cells.symm
  have lanes : c.lanes = (VectorType.ofName? v.type).map (·.lanes) :=
    congrArg Grid.lanes compares.cells.symm
  rw [Check.visits_eq, elements, lanes, Variable.laneCount]
  congr 1
  · split_ifs <;> simp_all
  · cases VectorType.ofName? v.type <;> rfl

end Validation

/-- A comparison that is planned comes to each pair of an element and a lane once, and to as many as
the product of the bounds of its loops.  Their number is told if it fits 64 bits. -/
theorem comparisons_of_planned {source : String} {m : Manifest} {p : Plan}
    (read : Manifest.read source = .ok m) (planned : Plan.ofManifest m = .ok p) {c : Check}
    (mem : c ∈ p.checks) {α : Type} (M : Memory α) {a : State} (fresh : a.trace = [])
    (unset : a.flag? .invalidDataFound = some false) :
    (c.comparisons? = if c.visits < twoTo 64 then some c.visits else none) ∧
      c.pairs.Nodup ∧ c.pairs.length = c.visits ∧
      (∃ x ∈ m.hostVariables, c.output = x.2.name ∧ x.2.members * m.settings.copies < twoTo 64 ∧
        x.2.laneCount ≤ 16 ∧ c.visits = x.2.members * m.settings.copies * x.2.laneCount) ∧
      ∃ b, b.trace.filterMap Event.compared? = c.pairs.map c.comparedAt ∧
        ∀ d, Reaches (machine m.grid? M) (compareOutput c) ⟨compareOutput c, a⟩ d →
          Reaches (machine m.grid? M) (compareOutput c) d ⟨[], b⟩ := by
  have arranged := Plan.arranges_of_ofManifest planned
  have admitted := Manifest.admitted_of_read read
  have wellFormed := arranged.wellFormed admitted
  rw [arranged.checks_eq] at mem
  obtain ⟨w, w_mem, made⟩ := List.mem_filterMap.mp mem
  have compares := Plan.compares_of_comparedBy wellFormed w_mem (Placed.comparedBy_of_check? made)
  rw [arranged.settings] at compares
  have validated : w.decl.validated := by
    rw [← Plan.isSome_check?_iff_validated wellFormed w_mem, made]
    rfl
  refine ⟨c.comparisons?_eq, c.nodup_pairs, c.length_pairs, ?_, ?_⟩
  · obtain ⟨x, x_mem, same, -, countable⟩ := Plan.exists_of_mem_hostPlaced planned w_mem
    rw [← same] at compares countable
    refine ⟨x, x_mem, compares.output, countable, ?_, compares.visits_eq⟩
    rw [Variable.laneCount]
    cases named : VectorType.ofName? x.2.type with
    | none => simp
    | some vector => exact (VectorType.ofName?_eq_some_iff.mp named).1.lanes_le
  · have stage : Done M m.settings.copies (a.values .exitCode) [] [] [] a :=
      ⟨by simpa [record] using fresh, unset, rfl, by simp [Indexed]⟩
    have compared : (machine m.grid? M).Achieves (compareOutput c)
        (Done M m.settings.copies (a.values .exitCode) [] [] [])
        (w.check?.toList.flatMap compareOutput)
        (Done M m.settings.copies (a.values .exitCode) []
          ([] ++ w.decl.probes m.settings.copies) []) :=
      achieves_check arranged admitted w_mem
    simp only [made, Option.toList_some, List.flatMap_singleton, List.nil_append] at compared
    obtain ⟨b, done, always⟩ := compared.always (determined_machine m.grid? M) stage
    refine ⟨b, ?_, always⟩
    rw [done.trace, List.nil_append, compared_record, compares.probes_eq validated]

set_option maxRecDepth 100000 in
theorem comparisons_of_planned_sampleManifest :
    ∃ m p c, Manifest.read Plan.sampleManifest = .ok m ∧ Plan.ofManifest m = .ok p ∧
      c ∈ p.checks ∧ sampleState.trace = [] ∧
      sampleState.flag? .invalidDataFound = some false ∧
      c.comparisons? = some 2 ∧ c.pairs.length = 2 ∧
      ∃ b, b.trace.filterMap Event.compared? = c.pairs.map c.comparedAt ∧
        Reaches (machine m.grid? sampleMemory) (compareOutput c)
          ⟨compareOutput c, sampleState⟩ ⟨[], b⟩ := by
  obtain ⟨m, p, read, planned, holds⟩ := Plan.exists_planned Plan.sampleManifest
    (fun _ p => p.checks.any fun c => c.visits == 2) (by decide +kernel)
  simp only [List.any_eq_true, beq_iff_eq] at holds
  obtain ⟨c, mem, two⟩ := holds
  obtain ⟨told, -, length, -, b, compared, always⟩ :=
    comparisons_of_planned read planned mem sampleMemory (a := sampleState) rfl rfl
  rw [two, if_pos (by decide)] at told
  rw [two] at length
  exact ⟨m, p, c, read, planned, mem, rfl, rfl, told, length, b, compared, always _ .refl⟩

set_option maxRecDepth 100000 in
/-- The lanes make two to the power of 64 comparisons of a number of elements that is accepted, and
their number is not told. -/
theorem uncounted_of_generate :
    ∃ g m p c, generate (arrayManifest "cl_int16" "1152921504606846976") = .ok g ∧
      Manifest.read (arrayManifest "cl_int16" "1152921504606846976") = .ok m ∧
      Plan.ofManifest m = .ok p ∧ c ∈ p.checks ∧
      (c.loops.map (·.2)).prod = twoTo 64 ∧ c.comparisons? = none := by
  obtain ⟨m, p, read, planned, holds⟩ :=
    Plan.exists_planned (arrayManifest "cl_int16" "1152921504606846976")
      (fun _ p => p.checks.any fun c => c.visits == twoTo 64) (by decide +kernel)
  simp only [List.any_eq_true, beq_iff_eq] at holds
  obtain ⟨c, mem, large⟩ := holds
  have generated := Plan.generate_eq_ok.mpr ⟨m, p, read, planned, rfl⟩
  have untold : c.comparisons? = none := by
    rw [c.comparisons?_eq, large]
    rfl
  exact ⟨_, m, p, c, generated, read, planned, mem, large, untold⟩

end KernelHost
