import KernelHost.Proofs.Checked
import KernelHost.Proofs.Manifest.Naming

/-!
# The checks of names are exact

`Manifest.Unconfused` says, without a word about checks, when the names of a manifest can be told
apart from one another and from those of the host program.  The checks succeed on exactly these
manifests.  A repeated kernel or variable derives no names in the checks; that hides nothing, for
its repetition is itself a problem.
-/

namespace KernelHost

/-- The names that the host program derives from a kernel. -/
def Kernel.derivedNames (k : Kernel) : List String :=
  ["queue" ++ k.ident, "kernel" ++ k.ident, "workDim" ++ k.ident, "globalSize" ++ k.ident] ++
    if k.range.localSizes.isSome then ["localSize" ++ k.ident] else []

/-- The names that the host program derives from a variable with the given factor on its
elements. -/
def Variable.derivedNames (copies : Nat) (v : Variable) : List String :=
  (if v.role = .output ∨ 1 < v.members * copies then [v.name ++ "K"] else []) ++
    (if v.role = .output ∧ v.unvalidated = false then
      (v.name ++ "C") :: if v.tolerance.isSome then [v.name ++ "Epsilon"] else []
    else [])

/-- A name has the form of those of completion lists: `tier`, digits, `Done`. -/
def NamesTierList (name : String) : Prop :=
  ∃ digits : List Char, digits ≠ [] ∧ (∀ d ∈ digits, d.isDigit) ∧
    name.toList = "tier".toList ++ digits ++ "Done".toList

namespace Manifest

/-- The names that the host program derives from all kernels and variables. -/
def derivedNames (m : Manifest) : List String :=
  m.kernels.flatMap Kernel.derivedNames ++
    m.hostVariables.flatMap (·.2.derivedNames m.settings.copies)

/-- A name is one that C, the runtime or the host program has a use for. -/
def Takes (m : Manifest) (name : String) : Prop :=
  name ∈ Text.keywords ∨ "cl_".toList <+: name.toList ∨ "CL_".toList <+: name.toList ∨
    name ∈ reservedNames ∨ NamesTierList name ∨ name ∈ m.derivedNames

/-- The names of a manifest are told apart. -/
structure Unconfused (m : Manifest) : Prop where
  idents : (m.kernels.map (·.ident)).Nodup
  /-- The arguments of each kernel are, those that are scratch memory among them. -/
  arguments : ∀ k ∈ m.kernels, (k.vars.map (·.argument)).Nodup
  names : (m.hostVariables.map (·.2.name)).Nodup
  derived : m.derivedNames.Nodup
  variable_free : ∀ x ∈ m.hostVariables, ¬ m.Takes x.2.name
  /-- Generators have names of their own. -/
  generator_free : ∀ x ∈ m.hostVariables, ∀ name ∈ x.2.generator,
    ¬ m.Takes name ∧ ∀ y ∈ m.hostVariables, y.2.name ≠ name

end Manifest

/-! ## Completion lists -/

theorem isTierList_iff {name : String} : isTierList name ↔ NamesTierList name := by
  constructor
  · intro list
    rw [isTierList] at list
    split at list
    · rename_i rest split
      simp only [Bool.and_eq_true, beq_iff_eq, Bool.not_eq_true', List.isEmpty_eq_false_iff] at list
      obtain ⟨behind, parted⟩ := List.takeWhile_prefix (l := rest) Char.isDigit
      have done : behind = "Done".toList := by
        rw [← list.2]
        nth_rewrite 2 [← parted]
        rw [List.drop_left]
      have digits : ∀ d ∈ rest.takeWhile Char.isDigit, d.isDigit :=
        List.all_eq_true.mp List.all_takeWhile
      refine ⟨rest.takeWhile Char.isDigit, list.1, digits, ?_⟩
      rw [split, List.append_assoc, ← done, parted]
      rfl
    · simp at list
  · rintro ⟨digits, nonempty, all, split⟩
    have taken : (digits ++ "Done".toList).takeWhile Char.isDigit = digits := by
      rw [List.takeWhile_append_of_pos all]
      simp
    have shape : name.toList = 't' :: 'i' :: 'e' :: 'r' :: (digits ++ "Done".toList) := split
    rw [isTierList, shape]
    simp only [taken, List.drop_left]
    simp [nonempty]

/-! ## Derived names -/

theorem Kernel.holders_names (k : Kernel) :
    (k.parts.map fun part => (Holder.ofKernel k part).name) = k.derivedNames := by
  cases sizes : k.range.localSizes <;> simp [Kernel.parts, Kernel.derivedNames, Holder.name,
    Holder.var, KernelPart.var, Code.Var.text, sizes]

theorem Variable.holders_names (copies : Nat) (v : Variable) :
    ((v.parts copies).map fun part => (Holder.ofVariable v part).name) =
      v.derivedNames copies := by
  have validated : v.validated = true ↔ v.role = .output ∧ v.unvalidated = false := by
    simp [Variable.validated]
  simp only [Variable.parts, Variable.derivedNames, validated, Bool.or_eq_true, beq_iff_eq,
    decide_eq_true_eq, List.map_append]
  congr 1
  · split_ifs <;> rfl
  · split_ifs <;> rfl

namespace Manifest

variable {m : Manifest}

/-- Where kernels and variables are not repeated, no derivation is left out. -/
theorem holders_names (idents : (m.kernels.map (·.ident)).Nodup)
    (names : (m.hostVariables.map (·.2.name)).Nodup) :
    m.holders.map (·.name) = m.derivedNames := by
  have names : ((m.hostVariables.map (·.2)).map (·.name)).Nodup := by
    simpa [Function.comp_def] using names
  rw [holders, firstByKey_eq_self idents, firstByKey_eq_self names, derivedNames]
  simp only [List.map_append, List.map_flatMap, List.map_map, Function.comp_def,
    Kernel.holders_names, Variable.holders_names, List.flatMap_map]

/-- Where no name is in the way of another one, none is in a manifest that has the same names, in
whatever order, and asks for no other generators. -/
theorem nameProblems_eq_nil_of_perm {m' : Manifest} (untroubled : m.nameProblems = [])
    (idents : m'.kernels.map (·.ident) = m.kernels.map (·.ident))
    (arguments : ∀ k ∈ m'.kernels, (k.vars.map (·.argument)).Nodup)
    (derived : m'.derivedNames.Perm m.derivedNames)
    (names : (m'.hostVariables.map (·.2.name)).Perm (m.hostVariables.map (·.2.name)))
    (asked : ∀ y ∈ m'.hostVariables, ∀ name ∈ y.2.generator,
      ∃ x ∈ m.hostVariables, name ∈ x.2.generator) :
    m'.nameProblems = [] := by
  rw [nameProblems_eq_nil_iff] at untroubled ⊢
  obtain ⟨identsApart, -, holdersApart, free, namesApart, generatorsFree⟩ := untroubled
  have identsApart' := idents ▸ identsApart
  have namesApart' := names.nodup_iff.mpr namesApart
  have holders : (m'.holders.map (·.name)).Perm (m.holders.map (·.name)) := by
    rwa [holders_names identsApart namesApart, holders_names identsApart' namesApart']
  have namesake : ∀ y ∈ m'.hostVariables, ∃ x ∈ m.hostVariables, x.2.name = y.2.name :=
    fun y mem => List.mem_map.mp (names.subset (List.mem_map_of_mem mem))
  refine ⟨identsApart', arguments, holders.nodup_iff.mpr holdersApart, fun y mem => ?_,
    namesApart', fun y mem name asks => ?_⟩
  · obtain ⟨x, x_mem, named⟩ := namesake y mem
    rw [nameClash?_eq_none_congr holders, ← named]
    exact free x x_mem
  · obtain ⟨x, x_mem, asks⟩ := asked y mem name asks
    obtain ⟨unclaimed, other⟩ := generatorsFree x x_mem name asks
    refine ⟨(nameClash?_eq_none_congr holders).mpr unclaimed, fun z z_mem => ?_⟩
    obtain ⟨w, w_mem, named⟩ := namesake z z_mem
    rw [← named]
    exact other w w_mem

theorem nameClash?_eq_none_iff_not_takes {name : String}
    (holders : m.holders.map (·.name) = m.derivedNames) :
    nameClash? m.holders name = none ↔ ¬ m.Takes name := by
  have derived : (∀ h ∈ m.holders, h.name ≠ name) ↔ name ∉ m.derivedNames := by
    rw [← holders]
    simp
  have keyword : Text.isKeyword name = true ↔ name ∈ Text.keywords := by
    simp [Text.isKeyword]
  have runtime : isRuntimeName name = true ↔
      "cl_".toList <+: name.toList ∨ "CL_".toList <+: name.toList := by
    simp only [isRuntimeName, Bool.or_eq_true, List.isPrefixOf_iff_prefix]
  rw [nameClash?_eq_none_iff, derived, keyword, runtime, isTierList_iff, Takes]
  tauto

/-- The checks succeed on a manifest exactly if its names are told apart. -/
theorem check_eq_ok_iff_unconfused : m.check = .ok () ↔ m.Unconfused := by
  rw [check, Checked.ofProblems_eq_ok, nameProblems]
  simp only [List.append_eq_nil_iff, repeatedKernels_eq_nil_iff, ambiguousNames_eq_nil_iff,
    takenVariables_eq_nil_iff, takenGenerators_eq_nil_iff, generatorClash?_eq_none_iff]
  constructor
  · rintro ⟨⟨⟨⟨idents, arguments⟩, derived⟩, free, names⟩, generators⟩
    have holders := holders_names idents names
    simp only [nameClash?_eq_none_iff_not_takes holders] at free generators
    exact ⟨idents, arguments, names, holders ▸ derived, free, generators⟩
  · rintro ⟨idents, arguments, names, derived, free, generators⟩
    have holders := holders_names idents names
    simp only [nameClash?_eq_none_iff_not_takes holders]
    exact ⟨⟨⟨⟨idents, arguments⟩, holders ▸ derived⟩, free, names⟩, generators⟩

end Manifest
end KernelHost
