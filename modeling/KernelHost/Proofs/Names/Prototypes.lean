import KernelHost.Proofs.Hooks.Calls
import KernelHost.Proofs.Manifest.Exactness
import Mathlib.Data.List.Perm.Basic

/-!
# Names in prototypes

The name for an element count in a prototype is derived from the name of an array or of a reference
copy, as those of buffers, reference copies and tolerances are, but the checks do not know it.  So
the names in a prototype are told apart unless some variable is named like an element count; a
manifest with such a variable is accepted, too.
-/

namespace KernelHost

/-- Some variable has the name that prototypes give to the element count of an array or of its
reference copy. -/
def Manifest.NamedAsCount (m : Manifest) : Prop :=
  ∃ x ∈ m.hostVariables, 1 < x.2.members * m.settings.copies ∧
    ∃ name ∈ x.2.handedNames, ∃ y ∈ m.hostVariables, y.2.name = name ++ "Sz"

/-- Names of which some are followed by a name derived from them are told apart if no name is a
derived one. -/
theorem nodup_flatMap_derived {α : Type} {as : List α} {name : α → String} {p : α → Prop}
    [DecidablePred p] {suffix : String} (nodup : (as.map name).Nodup) :
    (as.flatMap fun a => name a :: if p a then [name a ++ suffix] else []).Nodup ↔
      ∀ a ∈ as, p a → name a ++ suffix ∉ as.map name := by
  have names : (as.flatMap fun a => [name a]) = as.map name := by
    rw [List.map_eq_flatMap]
  have derived : (as.flatMap fun a => if p a then [name a ++ suffix] else []) =
      ((as.filter p).map name).map (· ++ suffix) := by
    clear nodup names
    induction as with
    | nil => rfl
    | cons a as ih => by_cases held : p a <;> simp [held, ih]
  have apart : (((as.filter p).map name).map (· ++ suffix)).Nodup :=
    ((List.filter_sublist.map name).nodup nodup).map fun _ _ => (String.append_left_inj suffix).mp
  have perm := List.flatMap_append_perm as (fun a => [name a])
    fun a => if p a then [name a ++ suffix] else []
  rw [names, derived] at perm
  have split := perm.nodup_iff.symm
  simp only [List.singleton_append] at split
  rw [split, List.nodup_append]
  constructor
  · rintro ⟨-, -, disjoint⟩ a mem held taken
    refine disjoint _ taken _ ?_ rfl
    simpa using ⟨a, ⟨mem, held⟩, rfl⟩
  · intro free
    refine ⟨nodup, apart, fun text taken other mem same => ?_⟩
    simp only [List.map_map, List.mem_map, List.mem_filter, Function.comp_apply] at mem
    obtain ⟨a, ⟨a_mem, held⟩, rfl⟩ := mem
    exact free a a_mem (of_decide_eq_true held) (same ▸ taken)

namespace Manifest

/-- Variables and reference copies are told apart by their names. -/
theorem handedNames_nodup {m : Manifest} (admitted : m.Admitted) :
    (m.hostVariables.flatMap (·.2.handedNames)).Nodup := by
  have untroubled := nameProblems_eq_nil_iff.mp admitted.nameProblems_eq_nil
  obtain ⟨idents, -, -, free, names, -⟩ := untroubled
  refine (nodup_flatMap_derived (p := fun x : Kernel × Variable => x.2.validated) names).mpr ?_
  intro x mem validated taken
  obtain ⟨y, y_mem, same⟩ := List.mem_map.mp taken
  have derived : y.2.name ∈ m.holders.map (·.name) := by
    rw [holders_names idents names, derivedNames, same]
    refine List.mem_append_right _ (List.mem_flatMap.mpr ⟨x, mem, ?_⟩)
    have output : x.2.role = .output ∧ x.2.unvalidated = false := by
      simpa [Variable.validated] using validated
    simp [Variable.derivedNames, output]
  obtain ⟨h, h_mem, named⟩ := List.mem_map.mp derived
  exact (nameClash?_eq_none_iff.mp (free y y_mem)).2.2.2.2 h h_mem named

/-- Variables and reference copies by name, with their numbers of elements. -/
def counted (m : Manifest) : List (String × Nat) :=
  m.hostVariables.flatMap fun x => x.2.handedNames.map (·, x.2.members * m.settings.copies)

theorem map_counted (m : Manifest) :
    m.counted.map (·.1) = m.hostVariables.flatMap (·.2.handedNames) := by
  simp [counted, List.map_flatMap, Function.comp_def]

theorem names_handed (m : Manifest) :
    (m.hostVariables.flatMap (·.2.handed m.settings.copies)).map (·.1) =
      m.counted.flatMap fun x => x.1 :: if 1 < x.2 then [x.1 ++ "Sz"] else [] := by
  have columns (x : String × Nat) : (handedAs x.1 x.2).map (·.1) =
      x.1 :: if 1 < x.2 then [x.1 ++ "Sz"] else [] := by
    rw [handedAs]
    split <;> rfl
  simp only [counted, List.flatMap_assoc, List.flatMap_map, List.map_flatMap, Variable.handed,
    ← columns]

/-- Only variables themselves can be named like an element count: the name of a reference copy ends
in another letter. -/
theorem count_mem_iff (m : Manifest) (name : String) :
    name ++ "Sz" ∈ m.hostVariables.flatMap (·.2.handedNames) ↔
      ∃ y ∈ m.hostVariables, y.2.name = name ++ "Sz" := by
  have suffixed (text : String) : text ++ "C" ≠ name ++ "Sz" := by
    intro same
    have ends := congrArg (·.toList.getLast?) same
    simp at ends
  simp only [List.mem_flatMap, Variable.handedNames]
  refine exists_congr fun y => and_congr_right fun _ => ?_
  split <;> simp [eq_comm, Ne.symm (suffixed _)]

section Accepted

variable {source : String} {m : Manifest} (read : Manifest.read source = .ok m)

include read

/-- The condition of the loop is named like nothing else. -/
theorem nodup_handed_iff_of_loopFlag (hook : Hook) : ((m.handed hook).map (·.1)).Nodup ↔
    ((m.hostVariables.flatMap (·.2.handed m.settings.copies)).map (·.1)).Nodup := by
  have apart := (loopFlag_not_mem read).1
  rw [map_handed m hook rfl]
  split
  · rw [List.nodup_append]
    refine ⟨And.left, fun nodup => ⟨nodup, List.nodup_singleton _, fun name mem flag last => ?_⟩⟩
    rw [List.mem_singleton.mp last]
    exact ne_of_mem_of_not_mem mem apart
  · rw [List.append_nil]

/-- The names in a prototype are told apart unless a variable is named like an element count. -/
theorem nodup_handed_iff (hook : Hook) :
    ((m.handed hook).map (·.1)).Nodup ↔ ¬ m.NamedAsCount := by
  have firsts : (m.counted.map (·.1)).Nodup :=
    m.map_counted ▸ handedNames_nodup (admitted_of_read read)
  rw [nodup_handed_iff_of_loopFlag read, names_handed, nodup_flatMap_derived firsts, map_counted]
  constructor
  · rintro free ⟨x, x_mem, array, name, name_mem, named⟩
    refine free (name, x.2.members * m.settings.copies) ?_ array
      ((m.count_mem_iff name).mpr named)
    exact List.mem_flatMap.mpr ⟨x, x_mem, List.mem_map_of_mem name_mem⟩
  · intro free a mem array taken
    obtain ⟨x, x_mem, of⟩ := List.mem_flatMap.mp mem
    obtain ⟨name, name_mem, rfl⟩ := List.mem_map.mp of
    exact free ⟨x, x_mem, array, name, name_mem, (m.count_mem_iff name).mp taken⟩

end Accepted

end Manifest

/-- The names in the prototypes of a generated program are told apart unless some variable has the
name of an element count. -/
theorem nodup_prototypes_of_generate {source : String} {g : Generated}
    (generated : generate source = .ok g) :
    ∃ m p, Manifest.read source = .ok m ∧ Plan.ofManifest m = .ok p ∧
      g.program = (Host.Program.ofPlan p).text ∧
      ∀ prototype ∈ Host.prototypes p, prototype.names.Nodup ↔ ¬ m.NamedAsCount := by
  simp only [generate, Checked.bind_eq_ok, Checked.pure_eq_ok] at generated
  obtain ⟨m, read, p, planned, rfl⟩ := generated
  refine ⟨m, p, read, planned, rfl, fun prototype mem => ?_⟩
  obtain ⟨hook, -, rfl⟩ := List.mem_map.mp mem
  rw [Signature.formalNames_eq (Plan.arranges_of_ofManifest planned) hook]
  exact Manifest.nodup_handed_iff read hook

theorem nodup_prototypes_of_generate_sampleManifest :
    ∃ g, generate Plan.sampleManifest = .ok g ∧
      ∃ m p, Manifest.read Plan.sampleManifest = .ok m ∧ Plan.ofManifest m = .ok p ∧
        g.program = (Host.Program.ofPlan p).text ∧
        ∀ prototype ∈ Host.prototypes p, prototype.names.Nodup ↔ ¬ m.NamedAsCount := by
  obtain ⟨m, p, read, planned, -⟩ := Plan.sampleManifest_planned
  have generated : generate Plan.sampleManifest = .ok (m.generated p) := by
    simp [generate, read, planned]
  exact ⟨m.generated p, generated, nodup_prototypes_of_generate generated⟩

/-- A manifest with an array and a value that is named like its element count. -/
def miscountedManifest : String :=
  "<k program='p' preamble='yes'><kernel name='f'>" ++
    "<input name='a' type='int' nmemb='2' arg='0'/>" ++
    "<input name='aSz' type='int' nmemb='1' arg='1'/>" ++
    "<ndrange><global>1</global></ndrange></kernel></k>"

set_option maxRecDepth 100000 in
theorem miscountedManifest_planned :
    ∃ m p, Manifest.read miscountedManifest = .ok m ∧ Plan.ofManifest m = .ok p ∧
      Host.prototypes p = [⟨.preamble, ["a", "aSz", "aSz"]⟩] := by
  obtain ⟨m, p, read, planned, prototypes⟩ := Plan.exists_planned miscountedManifest
    (fun _ p => Host.prototypes p = [⟨.preamble, ["a", "aSz", "aSz"]⟩]) (by decide +kernel)
  exact ⟨m, p, read, planned, of_decide_eq_true prototypes⟩

/-- The manifest is accepted, and the prototype of the hook has a name twice. -/
theorem repeated_of_generate :
    ∃ g m p, generate miscountedManifest = .ok g ∧ Manifest.read miscountedManifest = .ok m ∧
      Plan.ofManifest m = .ok p ∧ g.program = (Host.Program.ofPlan p).text ∧
      ∃ prototype ∈ Host.prototypes p, prototype.line ∈ (Host.Program.ofPlan p).header ∧
        ¬ prototype.names.Nodup := by
  obtain ⟨m, p, read, planned, prototypes⟩ := miscountedManifest_planned
  have mem : ⟨.preamble, ["a", "aSz", "aSz"]⟩ ∈ Host.prototypes p := by simp [prototypes]
  exact ⟨m.generated p, m, p, by simp [generate, read, planned], read, planned, rfl, _, mem,
    Host.mem_header_of_mem_prototypes mem, by decide⟩

end KernelHost
