import KernelHost.Proofs.Manifest.Exactness
import KernelHost.Proofs.Plan.Shape

/-!
# The essence of a manifest

A manifest holds things that nothing behind its reading depends on: where it was declared, what
scratch memory would begin with, a generator beside a text, the tolerance of a variable that is not
compared.  Its essence is the manifest without them.  Two manifests of one essence derive the same
names and have plans of one essence, or none of them has a plan.
-/

namespace KernelHost

/-! ## Manifests -/

/-- A variable without what it declares in vain, at no place. -/
def Variable.essence (v : Variable) : Variable :=
  { v with
    literal := if v.onHost then v.literal else none
    generator := if v.onHost && v.literal.isNone then v.generator else none
    unvalidated := v.role == .output && v.unvalidated
    tolerance := if v.validated then v.tolerance else none
    span := .nowhere }

def WorkRange.essence (r : WorkRange) : WorkRange :=
  { r with span := .nowhere }

def Kernel.essence (k : Kernel) : Kernel :=
  { k with range := k.range.essence, vars := k.vars.map Variable.essence, span := .nowhere }

/-- A manifest with the essence of its kernels, and without remarks. -/
def Manifest.essence (m : Manifest) : Manifest where
  settings := m.settings
  kernels := m.kernels.map Kernel.essence

namespace Variable

variable {v : Variable}

@[simp]
theorem fields_essence (v : Variable) :
    v.essence.name = v.name ∧ v.essence.type = v.type ∧ v.essence.members = v.members ∧
      v.essence.role = v.role ∧ v.essence.argument = v.argument :=
  ⟨rfl, rfl, rfl, rfl, rfl⟩

@[simp]
theorem onHost_essence : v.essence.onHost = v.onHost := rfl

@[simp]
theorem validated_essence : v.essence.validated = v.validated := by
  rcases v with ⟨_, _, _, _ | _ | _, _⟩ <;> rfl

@[simp]
theorem contents_essence (onHost : v.onHost) : v.essence.contents = v.contents := by
  cases literal : v.literal <;> simp [contents, essence, onHost, literal]

@[simp]
theorem derivedNames_essence (copies : Nat) :
    v.essence.derivedNames copies = v.derivedNames copies := by
  cases role : v.role <;> cases off : v.unvalidated <;>
    simp [derivedNames, essence, validated, role, off]

/-- The essence only looks at contents on the host, at a generator where there is no text, at the
validation of outputs, and at the tolerance of what is validated. -/
theorem essence_eq {literal generator : Option String} {unvalidated : Bool}
    {tolerance : Option Tolerance} {span : Span}
    (sameLiteral : v.onHost → literal = v.literal)
    (sameGenerator : v.onHost → v.literal = none → generator = v.generator)
    (sameValidation : v.role = .output → unvalidated = v.unvalidated)
    (sameTolerance : v.validated → tolerance = v.tolerance) :
    essence { v with literal, generator, unvalidated, tolerance, span } = v.essence := by
  cases role : v.role with
  | scratch =>
      simp [essence, onHost, validated, role]
      rfl
  | input =>
      obtain rfl := sameLiteral (by simp [onHost, role])
      have sameGenerator := sameGenerator (by simp [onHost, role])
      cases text : v.literal <;> simp_all [essence, onHost, validated] <;> rfl
  | output =>
      obtain rfl := sameLiteral (by simp [onHost, role])
      obtain rfl := sameValidation role
      have sameGenerator := sameGenerator (by simp [onHost, role])
      cases text : v.literal <;> cases off : v.unvalidated <;>
        simp_all [essence, onHost, validated]

end Variable

@[simp]
theorem Kernel.ident_essence (k : Kernel) : k.essence.ident = k.ident := rfl

@[simp]
theorem Kernel.derivedNames_essence (k : Kernel) : k.essence.derivedNames = k.derivedNames := rfl

namespace Manifest

variable {m m' : Manifest}

theorem idents_essence : m.essence.kernels.map (·.ident) = m.kernels.map (·.ident) := by
  simp [essence]

theorem arguments_essence :
    (m.essence.kernels.map fun k => k.vars.map (·.argument)) =
      m.kernels.map fun k => k.vars.map (·.argument) := by
  simp [essence, Kernel.essence, Variable.essence]

theorem hostVariables_essence :
    m.essence.hostVariables = m.hostVariables.map fun x => (x.1.essence, x.2.essence) := by
  simp [hostVariables, allVariables, essence, Kernel.essence, List.filter_flatMap,
    List.map_flatMap, List.flatMap_map, List.filter_map, Function.comp_def]

theorem names_essence :
    m.essence.hostVariables.map (·.2.name) = m.hostVariables.map (·.2.name) := by
  simp [hostVariables_essence, Variable.essence]

theorem derivedNames_essence : m.essence.derivedNames = m.derivedNames := by
  rw [derivedNames, derivedNames, hostVariables_essence]
  simp [essence, List.flatMap_map]

end Manifest

/-! ## Manifests that ask for less -/

/-- Of the same essence, with the same generator or with none. -/
structure Variable.ReducesTo (v v' : Variable) : Prop where
  essence : v'.essence = v.essence
  generator : ∀ name ∈ v'.generator, name ∈ v.generator

theorem Variable.ReducesTo.name {v v' : Variable} (less : v.ReducesTo v') : v'.name = v.name := by
  obtain ⟨same, -⟩ := v'.fields_essence
  rw [← same, less.essence, v.fields_essence.1]

structure Kernel.ReducesTo (k k' : Kernel) : Prop where
  name : k'.name = k.name
  order : k'.order = k.order
  range : k'.range.essence = k.range.essence
  vars : List.Forall₂ Variable.ReducesTo k.vars k'.vars

structure Manifest.ReducesTo (m m' : Manifest) : Prop where
  settings : m'.settings = m.settings
  kernels : List.Forall₂ Kernel.ReducesTo m.kernels m'.kernels

theorem Kernel.ReducesTo.essence {k k' : Kernel} (less : k.ReducesTo k') :
    k'.essence = k.essence := by
  have vars : k'.vars.map Variable.essence = k.vars.map Variable.essence := by
    rw [← List.forall₂_eq_eq_eq, List.forall₂_map_left_iff, List.forall₂_map_right_iff]
    exact (less.vars.imp fun _ _ less => less.essence).flip
  rw [Kernel.essence, Kernel.essence, vars, less.name, less.order, less.range]

namespace Manifest.ReducesTo

variable {m m' : Manifest} (less : m.ReducesTo m')

include less

theorem essence : m'.essence = m.essence := by
  have kernels : m'.kernels.map Kernel.essence = m.kernels.map Kernel.essence := by
    rw [← List.forall₂_eq_eq_eq, List.forall₂_map_left_iff, List.forall₂_map_right_iff]
    exact (less.kernels.imp fun _ _ less => less.essence).flip
  rw [Manifest.essence, Manifest.essence, kernels, less.settings]

theorem hostVariables :
    List.Forall₂ (fun x y => x.2.ReducesTo y.2) m.hostVariables m'.hostVariables := by
  refine List.rel_filter (fun x y less => ?_) (List.rel_flatMap less.kernels fun k k' less => ?_)
  · have onHost : y.2.onHost = x.2.onHost := by
      rw [← Variable.onHost_essence, less.essence, Variable.onHost_essence]
    exact iff_of_eq (congrArg (· = true) onHost.symm)
  · rw [List.forall₂_map_left_iff, List.forall₂_map_right_iff]
    exact less.vars

/-- Where no name is in the way of another one, none is in a manifest that asks for less. -/
theorem nameProblems_eq_nil (untroubled : m.nameProblems = []) : m'.nameProblems = [] := by
  have same := less.essence
  have idents : m'.kernels.map (·.ident) = m.kernels.map (·.ident) := by
    rw [← idents_essence, same, idents_essence]
  have arguments : (m'.kernels.map fun k => k.vars.map (·.argument)) =
      m.kernels.map fun k => k.vars.map (·.argument) := by
    rw [← arguments_essence, same, arguments_essence]
  have names : m'.hostVariables.map (·.2.name) = m.hostVariables.map (·.2.name) := by
    rw [← names_essence, same, names_essence]
  have nodup : ∀ l ∈ m.kernels.map fun k => k.vars.map (·.argument), l.Nodup := by
    simpa using (nameProblems_eq_nil_iff.mp untroubled).2.1
  have asked : ∀ y ∈ m'.hostVariables, ∀ name ∈ y.2.generator,
      ∃ x ∈ m.hostVariables, name ∈ x.2.generator := by
    refine forall_mem_of_forall₂ (p := (· ∈ m.hostVariables)) less.hostVariables ?_ fun _ => id
    exact fun x y less mem name asks => ⟨x, mem, less.generator name asks⟩
  refine nameProblems_eq_nil_of_perm untroubled idents ?_ ?_ (.of_eq names) asked
  · rw [← arguments] at nodup
    simpa using nodup
  · rw [← derivedNames_essence, same, derivedNames_essence]

end Manifest.ReducesTo

/-! ## Plans -/

def Placed.essence (p : Placed) : Placed :=
  { p with kernel := p.kernel.essence, decl := p.decl.essence }

@[simp]
theorem Placed.fields_essence (p : Placed) :
    p.essence.slot = p.slot ∧ p.essence.kernel = p.kernel.essence ∧
      p.essence.decl = p.decl.essence ∧ p.essence.layout = p.layout :=
  ⟨rfl, rfl, rfl, rfl⟩

/-- A planned kernel with the essence of what it is planned for. -/
def PlannedKernel.essence (k : PlannedKernel) : PlannedKernel :=
  { k with kernel := k.kernel.essence, placed := k.placed.map Placed.essence }

def Plan.essence (p : Plan) : Plan :=
  { p with kernels := p.kernels.map PlannedKernel.essence }

theorem Layout.toOption_ofVariable_essence (v : Variable) (copies : Nat) :
    (ofVariable v.essence copies).toOption = (ofVariable v copies).toOption := by
  have vector : (vectorOf v.essence).toOption = (vectorOf v).toOption := by
    cases named : VectorType.ofName? v.type <;> by_cases like : VectorType.isVectorLike v.type <;>
      simp [vectorOf, Variable.essence, named, like]
  have count : (countOf v.essence copies).toOption = (countOf v copies).toOption := by
    cases role : v.role <;> by_cases small : v.members * copies < twoTo 64 <;>
      simp [countOf, Variable.essence, role, small]
  have initial (input : v.role = .input) : v.essence.contents = v.contents := by
    simp [Variable.onHost, input]
  have reference (validated : v.validated) : v.essence.contents = v.contents := by
    cases role : v.role <;> simp_all [Variable.onHost, Variable.validated]
  simp only [ofVariable, Checked.toOption_bind, Checked.toOption_pure, vector, count,
    Variable.validated_essence, Variable.fields_essence, beq_iff_eq]
  simp +contextual only [initial, reference]

theorem Schedule.tiersOf_essence (kernels : List Kernel) :
    tiersOf (kernels.map Kernel.essence) = tiersOf kernels := by
  simp [tiersOf, keys, indicesOf, Kernel.essence, List.filterMap_map, List.zipIdx_map,
    List.filter_map, Function.comp_def]

theorem Schedule.toOption_ofKernels_essence (kernels : List Kernel) :
    (ofKernels (kernels.map Kernel.essence)).toOption = (ofKernels kernels).toOption := by
  have found : (kernels.map Kernel.essence).find? (·.order.isSome) =
      (kernels.find? (·.order.isSome)).map Kernel.essence := List.find?_map
  rw [ofKernels, ofKernels, found]
  cases kernels.find? (·.order.isSome) with
  | none => simp [tiersOf_essence]
  | some ordered =>
      simp only [Option.map_some, Checked.toOption_bind, Checked.toOption_ofProblems,
        Checked.toOption_pure, tiersOf_essence]
      simp [unordered, List.filter_map, Kernel.essence, Function.comp_def]

namespace Plan

/-- The essence of a kernel that is laid out. -/
def rowEssence (row : Kernel × List Placed) : Kernel × List Placed :=
  (row.1.essence, row.2.map Placed.essence)

theorem toOption_placeKernel_essence (copies : Nat) (k : Kernel) (index : Nat) :
    (placeKernel copies k.essence index).toOption =
      (placeKernel copies k index).toOption.map rowEssence := by
  have vars : k.essence.vars.zipIdx = k.vars.zipIdx.map (Prod.map Variable.essence id) := by
    simp [Kernel.essence, List.zipIdx_map]
  have places := Checked.toOption_each_map (Prod.map Variable.essence id) Placed.essence
    (f := fun x => (Layout.ofVariable x.1 copies).map fun layout => ⟨⟨index, x.2⟩, k, x.1, layout⟩)
    (g := fun x => (Layout.ofVariable x.1 copies).map fun layout =>
      ⟨⟨index, x.2⟩, k.essence, x.1, layout⟩)
    (fun x => by simp [Layout.toOption_ofVariable_essence, Placed.essence, Function.comp_def])
    k.vars.zipIdx
  simp [placeKernel, vars, places, rowEssence, Function.comp_def]

theorem toOption_placeKernels_essence (copies : Nat) (kernels : List Kernel) :
    (placeKernels copies (kernels.map Kernel.essence)).toOption =
      (placeKernels copies kernels).toOption.map (List.map rowEssence) := by
  rw [placeKernels, placeKernels, List.zipIdx_map,
    Checked.toOption_each_map (Prod.map Kernel.essence id) rowEssence]
  exact fun x => toOption_placeKernel_essence copies x.1 x.2

/-! ### Everything else in a plan -/

theorem buffer?_essence (template : Template) (v : Placed) :
    v.essence.buffer? template = v.buffer? template := rfl

theorem toArgument_essence (template : Template) (v : Placed) :
    v.essence.toArgument template = v.toArgument template := rfl

theorem argumentsOf_essence (template : Template) (vs : List Placed) :
    argumentsOf template (vs.map Placed.essence) = argumentsOf template vs := by
  simp [argumentsOf, toArgument_essence, Function.comp_def]

theorem ofPlaced_essence (vs : List Placed) :
    Signature.ofPlaced (vs.map Placed.essence) = Signature.ofPlaced vs := by
  simp [Signature.ofPlaced, List.flatMap_map]
  rfl

/-- A variable has a tolerance wherever it is looked at. -/
theorem tolerance_essence {v : Placed} {k : Kernel} {copies : Nat} (stands : v.Stands k copies)
    (compared : v.layout.reference.isSome) : v.decl.essence.tolerance = v.decl.tolerance := by
  have validated : v.decl.validated := by
    by_contra off
    simp [stands.layout.reference, off] at compared
  simp [Variable.essence, validated]

theorem check?_essence {v : Placed} {k : Kernel} {copies : Nat} (stands : v.Stands k copies) :
    v.essence.check? = v.check? := by
  cases compared : v.layout.reference.isSome with
  | false => simp [Placed.check?, Placed.essence, compared]
  | true =>
      simp only [Placed.check?, Placed.essence, compared, tolerance_essence stands compared]
      rfl

theorem assemble_essence {settings : Settings} {rows : List (Kernel × List Placed)}
    {schedule : Schedule} {copies : Nat}
    (stand : ∀ row ∈ rows, ∀ v ∈ row.2, v.Stands row.1 copies) :
    (assemble settings rows schedule).essence =
      assemble settings (rows.map rowEssence) schedule := by
  have placed : (rows.map rowEssence).flatMap (·.2) =
      (rows.flatMap (·.2)).map Placed.essence := by
    simp [rowEssence, List.flatMap_map, List.map_flatMap]
  have buffers : ((rows.flatMap (·.2)).map Placed.essence).filterMap
        (·.buffer? settings.template) =
      (rows.flatMap (·.2)).filterMap (·.buffer? settings.template) := by
    simp [List.filterMap_map, Function.comp_def, buffer?_essence]
  have checks : ((rows.flatMap (·.2)).map Placed.essence).filterMap (·.check?) =
      (rows.flatMap (·.2)).filterMap (·.check?) := by
    rw [List.filterMap_map]
    refine List.filterMap_congr fun v mem => ?_
    obtain ⟨row, row_mem, v_mem⟩ := List.mem_flatMap.mp mem
    exact check?_essence (stand row row_mem v v_mem)
  simp [assemble, essence, PlannedKernel.essence, placed, ofPlaced_essence, buffers, checks,
    rowEssence, argumentsOf_essence]

/-- Manifests of one essence have plans of one essence. -/
theorem exists_ofManifest_of_essence {m m' : Manifest} {p : Plan}
    (same : m'.essence = m.essence) (planned : ofManifest m = .ok p) :
    ∃ p', ofManifest m' = .ok p' ∧ p'.essence = p.essence := by
  obtain ⟨settings, kernels⟩ : m'.settings = m.settings ∧
      m'.kernels.map Kernel.essence = m.kernels.map Kernel.essence := by
    simpa [Manifest.essence] using same
  simp only [ofManifest, Checked.bind_eq_ok, Checked.both_eq_ok, Checked.pure_eq_ok] at planned ⊢
  obtain ⟨⟨rows, schedule⟩, ⟨placed, scheduled⟩, rfl⟩ := planned
  -- The rows of both manifests have the rows of the common essence.
  have rows_eq : (placeKernels m'.settings.copies m'.kernels).toOption.map (List.map rowEssence) =
      some (rows.map rowEssence) := by
    rw [← toOption_placeKernels_essence, kernels, settings, toOption_placeKernels_essence, placed]
    rfl
  obtain ⟨rows', placed', common⟩ := Option.map_eq_some_iff.mp rows_eq
  have scheduled' : (Schedule.ofKernels m'.kernels).toOption = some schedule := by
    rw [← Schedule.toOption_ofKernels_essence, kernels, Schedule.toOption_ofKernels_essence,
      scheduled]
    rfl
  rw [Checked.toOption_eq_some] at placed' scheduled'
  refine ⟨_, ⟨(rows', schedule), ⟨placed', scheduled'⟩, rfl⟩, ?_⟩
  have stand {copies : Nat} {kernels : List Kernel} {rows : List (Kernel × List Placed)}
      (placed : placeKernels copies kernels = .ok rows) :
      ∀ row ∈ rows, ∀ v ∈ row.2, v.Stands row.1 copies :=
    fun row mem => ((placeKernels_eq_ok placed).2 row mem).2
  rw [assemble_essence (stand placed'), assemble_essence (stand placed), common, settings]

end Plan

end KernelHost
