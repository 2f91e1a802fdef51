import KernelHost.Manifest.Check
import Mathlib.Data.List.Induction
import Mathlib.Data.List.Nodup

/-!
# What the checks of names decide

Each check looks at the members of a list with those in front of them.  It finds nothing exactly if
the keys that it compares are told apart, so the checks together decide a few `Nodup` conditions and
one condition on each name.
-/

namespace KernelHost

/-! ## Members with those in front of them -/

section Earlier

variable {α κ : Type}

theorem forall_mem_go {P : α → List α → Prop} {earlier as : List α} :
    (∀ x ∈ withEarlier.go earlier as, P x.1 x.2) ↔
      ∀ front a back, as = front ++ a :: back → P a (front.reverse ++ earlier) := by
  induction as generalizing earlier with
  | nil => simp [withEarlier.go]
  | cons a as ih =>
      simp only [withEarlier.go, List.forall_mem_cons, ih]
      constructor
      · rintro ⟨head, tail⟩ front b back split
        cases front with
        | nil =>
            obtain ⟨rfl, rfl⟩ := List.cons.inj split
            simpa using head
        | cons c front =>
            obtain ⟨rfl, rfl⟩ := List.cons.inj split
            simpa using tail front b back rfl
      · intro all
        refine ⟨all [] a as rfl, fun front b back split => ?_⟩
        simpa using all (a :: front) b back (by rw [split]; rfl)

theorem forall_mem_withEarlier {P : α → List α → Prop} {as : List α} :
    (∀ x ∈ withEarlier as, P x.1 x.2) ↔
      ∀ front a back, as = front ++ a :: back → P a front.reverse := by
  simpa [withEarlier] using @forall_mem_go _ P [] as

/-- Of a condition that leaves the members in front out, only the members remain. -/
theorem forall_mem_withEarlier_fst {P : α → Prop} {as : List α} :
    (∀ x ∈ withEarlier as, P x.1) ↔ ∀ a ∈ as, P a := by
  rw [forall_mem_withEarlier (P := fun a _ => P a)]
  refine ⟨fun all a mem => ?_, fun all front a back split => all a (by simp [split])⟩
  obtain ⟨front, back, split⟩ := List.append_of_mem mem
  exact all front a back split

/-- Keys are told apart if no member has the key of one in front of it. -/
theorem nodup_map_iff_withEarlier (key : α → κ) {as : List α} :
    (as.map key).Nodup ↔ ∀ x ∈ withEarlier as, ∀ b ∈ x.2, key b ≠ key x.1 := by
  rw [forall_mem_withEarlier (P := fun a earlier => ∀ b ∈ earlier, key b ≠ key a)]
  constructor
  · rintro nodup front a back rfl b mem equal
    simp only [List.map_append, List.map_cons, List.nodup_append] at nodup
    have front_mem : key b ∈ front.map key := List.mem_map_of_mem (List.mem_reverse.mp mem)
    exact nodup.2.2 (key b) front_mem (key a) List.mem_cons_self equal
  · intro apart
    induction as using List.reverseRecOn with
    | nil => simp
    | append_singleton as a ih =>
        have front_nodup : (as.map key).Nodup :=
          ih fun front b back split => apart front b (back ++ [a]) (by simp [split])
        rw [List.map_append, List.nodup_append]
        refine ⟨front_nodup, List.nodup_singleton _, fun k mem l last => ?_⟩
        obtain ⟨b, b_mem, rfl⟩ := List.mem_map.mp mem
        obtain rfl : l = key a := by simpa using last
        exact apart as a [] (by simp) b (by simpa using b_mem)

theorem find?_earlier_eq_none [DecidableEq κ] {key : α → κ} {a : α} {earlier : List α} :
    (earlier.find? fun b => key b == key a) = none ↔ ∀ b ∈ earlier, key b ≠ key a := by
  simp

/-- Nothing is left out if the keys are told apart. -/
theorem firstByKey_eq_self [DecidableEq κ] {key : α → κ} {as : List α}
    (nodup : (as.map key).Nodup) : firstByKey key as = as := by
  have fresh := (nodup_map_iff_withEarlier key).mp nodup
  have kept : firstByKey key as = (withEarlier as).map (·.1) := by
    rw [firstByKey, ← List.filterMap_eq_map]
    refine List.filterMap_congr fun x mem => ?_
    simpa using fresh x mem
  have fst_go (earlier as : List α) : (withEarlier.go earlier as).map (·.1) = as := by
    induction as generalizing earlier with
    | nil => rfl
    | cons a as ih => simp [withEarlier.go, ih]
  rw [kept]
  exact fst_go [] as

end Earlier

/-! ## The checks -/

namespace Manifest

theorem repeatedArguments_eq_nil_iff {k : Kernel} :
    repeatedArguments k = [] ↔ (k.vars.map (·.argument)).Nodup := by
  simp only [repeatedArguments, List.filterMap_eq_nil_iff, Option.map_eq_none_iff,
    find?_earlier_eq_none, nodup_map_iff_withEarlier]

theorem repeatedKernels_eq_nil_iff {m : Manifest} :
    m.repeatedKernels = [] ↔
      (m.kernels.map (·.ident)).Nodup ∧
        ∀ k ∈ m.kernels, (k.vars.map (·.argument)).Nodup := by
  simp only [repeatedKernels, List.flatMap_eq_nil_iff, List.append_eq_nil_iff,
    Option.toList_eq_nil_iff, Option.map_eq_none_iff, repeatedArguments_eq_nil_iff,
    find?_earlier_eq_none, nodup_map_iff_withEarlier Kernel.ident, forall_and,
    forall_mem_withEarlier_fst (P := fun k : Kernel => (k.vars.map (·.argument)).Nodup)]

theorem ambiguousNames_eq_nil_iff {holders : List Holder} :
    ambiguousNames holders = [] ↔ (holders.map (·.name)).Nodup := by
  simp only [ambiguousNames, List.filterMap_eq_nil_iff, Option.map_eq_none_iff,
    find?_earlier_eq_none, nodup_map_iff_withEarlier Holder.name, List.mem_reverse]

theorem takenVariables_eq_nil_iff {m : Manifest} {holders : List Holder} :
    m.takenVariables holders = [] ↔
      (∀ x ∈ m.hostVariables, nameClash? holders x.2.name = none) ∧
        (m.hostVariables.map (·.2.name)).Nodup := by
  simp only [takenVariables, List.flatMap_eq_nil_iff, List.append_eq_nil_iff,
    Option.toList_eq_nil_iff, Option.map_eq_none_iff, find?_earlier_eq_none,
    nodup_map_iff_withEarlier fun x : Kernel × Variable => x.2.name, forall_and,
    forall_mem_withEarlier_fst
      (P := fun x : Kernel × Variable => nameClash? holders x.2.name = none)]

theorem takenGenerators_eq_nil_iff {m : Manifest} {holders : List Holder} :
    m.takenGenerators holders = [] ↔
      ∀ x ∈ m.hostVariables, ∀ name ∈ x.2.generator, m.generatorClash? holders name = none := by
  simp only [takenGenerators, List.filterMap_eq_nil_iff]
  refine forall₂_congr fun x _ => ?_
  cases x.2.generator with
  | none => simp
  | some name => cases clash : m.generatorClash? holders name <;> simp [clash]

/-- A name is free for a generator if nothing of the host program and no variable has it. -/
theorem generatorClash?_eq_none_iff {m : Manifest} {holders : List Holder} {name : String} :
    m.generatorClash? holders name = none ↔
      nameClash? holders name = none ∧ ∀ x ∈ m.hostVariables, x.2.name ≠ name := by
  simp [generatorClash?]

theorem nameProblems_eq_nil_iff {m : Manifest} :
    m.nameProblems = [] ↔
      (m.kernels.map (·.ident)).Nodup ∧ (∀ k ∈ m.kernels, (k.vars.map (·.argument)).Nodup) ∧
        (m.holders.map (·.name)).Nodup ∧
        (∀ x ∈ m.hostVariables, nameClash? m.holders x.2.name = none) ∧
        (m.hostVariables.map (·.2.name)).Nodup ∧
        ∀ x ∈ m.hostVariables, ∀ name ∈ x.2.generator,
          nameClash? m.holders name = none ∧ ∀ y ∈ m.hostVariables, y.2.name ≠ name := by
  simp only [nameProblems, List.append_eq_nil_iff, repeatedKernels_eq_nil_iff,
    ambiguousNames_eq_nil_iff, takenVariables_eq_nil_iff, takenGenerators_eq_nil_iff,
    generatorClash?_eq_none_iff, and_assoc]

end Manifest

/-- A name is free if it is no word, no name of the runtime, not reserved and not derived. -/
theorem nameClash?_eq_none_iff {holders : List Holder} {name : String} :
    nameClash? holders name = none ↔
      ¬ Text.isKeyword name ∧ ¬ isRuntimeName name ∧ name ∉ reservedNames ∧
        ¬ isTierList name ∧ ∀ h ∈ holders, h.name ≠ name := by
  rw [nameClash?]
  split_ifs with keyword runtime reserved
  · simp [keyword]
  · simp [runtime]
  · simp only [Bool.or_eq_true, List.contains_eq_mem, decide_eq_true_eq] at reserved
    simp only [false_iff]
    tauto
  · simp only [Bool.or_eq_true, List.contains_eq_mem, decide_eq_true_eq, not_or] at reserved
    simp [keyword, runtime, reserved]

/-- Of derived names only the names matter, and not their order. -/
theorem nameClash?_eq_none_congr {holders holders' : List Holder} {name : String}
    (same : (holders'.map (·.name)).Perm (holders.map (·.name))) :
    nameClash? holders' name = none ↔ nameClash? holders name = none := by
  have derived (hs : List Holder) : (∀ h ∈ hs, h.name ≠ name) ↔ name ∉ hs.map (·.name) := by
    simp
  rw [nameClash?_eq_none_iff, nameClash?_eq_none_iff, derived, derived, same.mem_iff]

end KernelHost
