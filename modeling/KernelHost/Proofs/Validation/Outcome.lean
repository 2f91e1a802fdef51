import KernelHost.Proofs.Validation.Run
import Mathlib.Data.List.Nodup

/-!
# The outcome of the validation

Running the validation of a planned manifest compares each place of each validated output once and
nothing else, has one line for each difference, and tells success from failure.  Without a validated
output it does nothing, so it does not report success either.
-/

namespace KernelHost

open Code (Callee Reaches)
open Host (validation)
open Validation

/-! ## No place twice -/

theorem Validation.Grid.nodup_places (g : Grid) : g.places.Nodup := by
  unfold places
  cases g.lanes with
  | none => simp
  | some n => exact List.nodup_range.map fun _ _ => Option.some.inj

theorem Variable.nodup_probes (v : Variable) (copies : Nat) :
    ((v.probes copies).map (·.actual)).Nodup := by
  unfold probes
  split
  · rw [List.map_flatMap, List.nodup_flatMap]
    constructor
    · intro k _
      rw [List.map_map]
      refine (Grid.nodup_places _).map fun l l' same => ?_
      simpa [Probe.actual] using same
    · refine List.nodup_range.imp fun {k k'} apart => List.disjoint_left.mpr ?_
      intro x here there
      simp only [List.map_map, List.mem_map] at here there
      obtain ⟨l, -, rfl⟩ := here
      obtain ⟨l', -, same⟩ := there
      exact apart (congrArg Cell.element same).symm
  · simp

theorem Manifest.nodup_probes {m : Manifest} (admitted : m.Admitted) :
    (m.probes.map (·.actual)).Nodup := by
  rw [probes, List.map_flatMap, List.nodup_flatMap]
  refine ⟨fun x _ => x.2.nodup_probes _, ?_⟩
  refine (List.pairwise_map.mp (names_nodup admitted)).imp fun {x y} apart =>
    List.disjoint_left.mpr ?_
  intro cell here there
  obtain ⟨q, q_mem, rfl⟩ := List.mem_map.mp here
  obtain ⟨r, r_mem, same⟩ := List.mem_map.mp there
  have names : r.output.name = q.output.name := Code.Var.host.inj (congrArg Cell.var same)
  rw [(Variable.mem_probes.mp q_mem).2.1, (Variable.mem_probes.mp r_mem).2.1] at names
  exact apart names.symm

namespace Validation

/-- The conversion that an argument is printed by, given that of contents. -/
def Argument.conversion (contents : String) : Argument → String
  | .index _ => "d"
  | .cell _ => contents

/-- What running the validation of a manifest comes to. -/
structure Outcome {α : Type} (M : Memory α) (m : Manifest) (a b : State) : Prop where
  /-- The comparisons are those of the places, in their order. -/
  compared : b.trace.filterMap Event.compared? =
    m.probes.map fun q => (q.expected, q.actual, q.tolerance)
  /-- No place is compared twice. -/
  once : (m.probes.map (·.actual)).Nodup
  /-- The lines are those of the differences. -/
  printed : b.trace.filterMap Event.printed? =
    (m.probes.filter (·.differs M)).map fun q =>
      (q.output.message m.settings.copies, q.args m.settings.copies)
  /-- A line has one conversion for each of its arguments. -/
  fitting : ∀ q ∈ m.probes, conversions (q.output.message m.settings.copies) =
    (q.args m.settings.copies).map (Argument.conversion q.output.conversion)
  failed : b.trace.count (.called .printFail) = if m.probes.any (·.differs M) then 1 else 0
  /-- Success needs something that is validated. -/
  succeeded : b.trace.count (.called .printSuccess) =
    if m.validates && !m.probes.any (·.differs M) then 1 else 0
  exitCode : b.values .exitCode =
    if m.probes.any (·.differs M) then some (.constant "EXIT_FAILURE") else a.values .exitCode

variable {α : Type} {M : Memory α} {p : Plan} {m : Manifest}

theorem conversions_of_mem {source : String} (read : Manifest.read source = .ok m)
    (arranged : p.Arranges m) {q : Probe} (mem : q ∈ m.probes) :
    conversions (q.output.message m.settings.copies) =
      (q.args m.settings.copies).map (Argument.conversion q.output.conversion) := by
  have wellFormed := arranged.wellFormed (Manifest.admitted_of_read read)
  rw [arranged.probes_eq] at mem
  obtain ⟨w, w_mem, mem⟩ := List.mem_flatMap.mp mem
  obtain ⟨output, element, lane⟩ := q
  obtain ⟨validated, rfl, -, place⟩ := Variable.mem_probes.mp mem
  obtain ⟨c, made⟩ : ∃ c, w.check? = some c := by
    rwa [← Option.isSome_iff_exists, Plan.isSome_check?_iff_validated wellFormed w_mem]
  have compares := Plan.compares_of_comparedBy wellFormed w_mem (Placed.comparedBy_of_check? made)
  rw [arranged.settings] at compares
  have decl_mem : w.decl ∈ m.hostVariables.map (·.2) := by
    rw [← arranged.hostPlaced_decls]
    exact List.mem_map_of_mem w_mem
  obtain ⟨x, x_mem, decl⟩ := List.mem_map.mp decl_mem
  have identifier : Text.isIdentifier w.decl.name := by
    rw [← decl]
    exact (Manifest.isIdentifier_of_read read x_mem).1
  rw [conversions_message compares (k := element) identifier (by rwa [← compares.cells])]
  simp [Probe.args, Argument.conversion, Function.comp_def]

theorem outcome_of_story {a b : State} {source : String} (read : Manifest.read source = .ok m)
    (arranged : p.Arranges m) (trace : b.trace = story M m)
    (exitCode : b.values .exitCode = exitOf M m (a.values .exitCode)) : Outcome M m a b := by
  refine
    { once := Manifest.nodup_probes (Manifest.admitted_of_read read)
      fitting := fun q mem => conversions_of_mem read arranged mem
      exitCode := exitCode
      compared := ?_
      printed := ?_
      failed := ?_
      succeeded := ?_ }
  all_goals
    rw [trace, story]
    cases validates : m.validates with
    | false => simp [Manifest.probes_eq_nil validates]
    | true =>
        cases differs : m.probes.any (·.differs M) <;>
          simp [List.filterMap_cons, Event.compared?, Event.printed?, compared_record,
            printed_record, count_printFail_record, count_printSuccess_record, differs]

/-- Every execution of the validation of a planned manifest comes to the same outcome, whatever the
storage holds. -/
theorem outcome_of_planned {source : String} (read : Manifest.read source = .ok m)
    (planned : Plan.ofManifest m = .ok p) (M : Memory α) {a : State} (fresh : a.trace = [])
    (unset : a.flag? .invalidDataFound = some false) :
    ∃ b, Outcome M m a b ∧
      ∀ d, Reaches (machine m.grid? M) (validation p) ⟨validation p, a⟩ d →
        Reaches (machine m.grid? M) (validation p) d ⟨[], b⟩ := by
  have arranged := Plan.arranges_of_ofManifest planned
  have admitted := Manifest.admitted_of_read read
  have stage : Stage (a.values .exitCode) [] false [] a := ⟨fresh, unset, rfl, by simp [Indexed]⟩
  obtain ⟨b, ⟨trace, exitCode⟩, always⟩ :=
    (achieves_validation arranged admitted).always (determined_machine m.grid? M) stage
  exact ⟨b, outcome_of_story read arranged trace exitCode, always⟩

/-- A memory in which all outputs differ from their copies. -/
def sampleMemory : Memory Nat where
  contents c :=
    match c.var with
    | .host _ => 1
    | _ => 0
  unequal x y := x != y
  outside x y t := x + t < y || y + t < x

/-- A state in front of the validation. -/
def sampleState : State :=
  ⟨fun _ => some (.constant "false"), []⟩

set_option maxRecDepth 100000 in
theorem outcome_of_planned_sampleManifest :
    ∃ m p, Manifest.read Plan.sampleManifest = .ok m ∧ Plan.ofManifest m = .ok p ∧
      m.probes.length = 2 ∧ (∀ q ∈ m.probes, q.differs sampleMemory) ∧
      sampleState.trace = [] ∧ sampleState.flag? .invalidDataFound = some false ∧
      ∃ b, Outcome sampleMemory m sampleState b ∧
        ∀ d, Reaches (machine m.grid? sampleMemory) (validation p) ⟨validation p, sampleState⟩ d →
          Reaches (machine m.grid? sampleMemory) (validation p) d ⟨[], b⟩ := by
  obtain ⟨m, p, read, planned, evaluated⟩ := Plan.exists_planned Plan.sampleManifest
    (fun m _ => m.probes.length == 2 && m.probes.all (·.differs sampleMemory)) (by decide +kernel)
  rw [Bool.and_eq_true_iff, beq_iff_eq, List.all_eq_true] at evaluated
  exact ⟨m, p, read, planned, evaluated.1, evaluated.2, rfl, rfl,
    outcome_of_planned read planned sampleMemory rfl rfl⟩

/-- A manifest without outputs. -/
def silentManifest : String :=
  "<k program='p'><kernel name='f'><input name='a' type='int' nmemb='1' arg='0'/>" ++
    "<ndrange><global>1</global></ndrange></kernel></k>"

set_option maxRecDepth 100000 in
/-- No comparison shows a difference where there is none, yet success is not reported. -/
theorem silent_of_silentManifest :
    ∃ m p b, Manifest.read silentManifest = .ok m ∧ Plan.ofManifest m = .ok p ∧
      Reaches (machine m.grid? sampleMemory) (validation p) ⟨validation p, sampleState⟩ ⟨[], b⟩ ∧
      (∀ q ∈ m.probes, q.differs sampleMemory = false) ∧ .called .printSuccess ∉ b.trace := by
  obtain ⟨m, p, read, planned, silent⟩ := Plan.exists_planned silentManifest
    (fun m _ => !m.validates) (by decide +kernel)
  rw [Bool.not_eq_true'] at silent
  have empty : validation p = [] := by
    rw [validation, isEmpty_checks (Plan.arranges_of_ofManifest planned)
      (Manifest.admitted_of_read read), silent]
    rfl
  refine ⟨m, p, sampleState, read, planned, ?_, ?_, by simp [sampleState]⟩
  · rw [empty]
    exact .refl
  · simp [Manifest.probes_eq_nil silent]

end Validation
end KernelHost
