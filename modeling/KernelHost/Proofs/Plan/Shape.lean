import KernelHost.Generation
import KernelHost.Proofs.Manifest.Reading
import KernelHost.Proofs.Manifest.Naming

/-!
# The shape of a plan

A plan has the kernels and the variables of its manifest, each in its place, and everything else in
it is computed from them.  `Plan.WellFormed` gathers what holds of the plan of every manifest that
was read and checked; the properties of host programs are proved from it.
-/

namespace KernelHost

namespace Layout

/-- What a layout says about the shape of its variable. -/
structure Fits (l : Layout) (v : Variable) (copies : Nat) : Prop where
  /-- The role is that of the variable. -/
  role : l.role = v.role
  /-- Scratch memory has the elements of the variable, and all else the factor on them. -/
  storage : l.storage = .ofCount (if v.onHost then v.members * copies else v.members)
  /-- Only an input has contents of its own. -/
  initial : l.initial = if v.role = .input then v.contents else .outside
  /-- A validated output has a reference copy with the contents of the variable. -/
  reference : l.reference = if v.validated then some v.contents else none
  /-- Elements are vectors if the type is a vector type. -/
  vector : l.vector = VectorType.ofName? v.type
  /-- The elements, or their lanes, are shown as their type asks for. -/
  format : l.format = CType.conversion (l.vector.elim v.type (·.lane.base))

theorem vectorOf_eq_ok {v : Variable} {vector : Option VectorType}
    (found : vectorOf v = .ok vector) : vector = VectorType.ofName? v.type := by
  rw [vectorOf] at found
  split at found
  · simp_all
  · split at found <;> simp_all

theorem fits_of_ofVariable {v : Variable} {copies : Nat} {l : Layout}
    (laid : ofVariable v copies = .ok l) : l.Fits v copies := by
  simp only [ofVariable, Checked.bind_eq_ok, Checked.pure_eq_ok] at laid
  obtain ⟨vector, vectored, count, counted, rfl⟩ := laid
  have count_eq : count = if v.onHost then v.members * copies else v.members := by
    rw [countOf] at counted
    split at counted
    · simp_all [Variable.onHost]
    · rename_i role
      split at counted
      · simp_all [Variable.onHost]
      · simp at counted
  exact
    { role := rfl
      storage := by rw [count_eq]
      initial := by simp
      reference := rfl
      vector := vectorOf_eq_ok vectored
      format := rfl }

end Layout

/-- A variable stands in its place: for its kernel, and with a layout that fits it. -/
structure Placed.Stands (p : Placed) (k : Kernel) (copies : Nat) : Prop where
  /-- The kernel is the one that is called on the variable. -/
  kernel : p.kernel = k
  /-- The layout fits the variable. -/
  layout : p.layout.Fits p.decl copies

namespace Placed

/-- The buffer of a variable, if it needs one, is made from the variable and its layout. -/
theorem buffer?_eq_some_iff {v : Placed} {template : Template} {b : Buffer} :
    v.buffer? template = some b ↔
      ∃ access upload download,
        Buffer.traffic? v.decl.role template = some (access, upload, download) ∧
          (v.decl.role = .input → v.layout.storage.isArray) ∧
          b =
            { slot := v.slot, host := v.decl.name, type := v.decl.type,
              storage := v.layout.storage, access, upload, download,
              queue := v.kernel.ident } := by
  rw [buffer?]
  cases Buffer.traffic? v.decl.role template with
  | none => simp
  | some traffic =>
      obtain ⟨access, upload, download⟩ := traffic
      simp only [Option.bind_eq_bind, Option.bind_some]
      split_ifs with skipped
      · simp [skipped]
      · simp only [not_and, Bool.not_eq_true, Bool.not_eq_false] at skipped
        constructor
        · intro built
          exact ⟨access, upload, download, rfl, skipped, (Option.some.inj built).symm⟩
        · rintro ⟨_, _, _, same, -, rfl⟩
          cases same
          rfl

/-- Outputs and arrays of the host have a buffer. -/
theorem isSome_buffer?_iff {v : Placed} (onHost : v.decl.onHost) (template : Template) :
    (v.buffer? template).isSome ↔ v.decl.role = .output ∨ v.layout.storage.isArray := by
  simp only [Option.isSome_iff_exists, buffer?_eq_some_iff]
  cases role : v.decl.role with
  | input => cases template <;> simp [Buffer.traffic?]
  | output => cases template <;> simp [Buffer.traffic?]
  | scratch => simp [Variable.onHost, role] at onHost

end Placed

namespace Plan

theorem placeKernel_eq_ok {copies index : Nat} {k : Kernel} {row : Kernel × List Placed}
    (placed : placeKernel copies k index = .ok row) :
    row.1 = k ∧ row.2.map (·.decl) = k.vars ∧ ∀ p ∈ row.2, p.Stands k copies := by
  simp only [placeKernel, Checked.map_eq_ok] at placed
  obtain ⟨ps, each, rfl⟩ := placed
  refine ⟨rfl, ?_, fun p mem => ?_⟩
  · have decls := Checked.map_eq_of_each (g := (·.decl)) (h := (·.1)) each fun x p laid => by
      obtain ⟨l, -, rfl⟩ := Checked.map_eq_ok.mp laid
      rfl
    simpa using decls
  · obtain ⟨x, -, laid⟩ := Checked.mem_of_each each mem
    obtain ⟨l, laidOut, rfl⟩ := Checked.map_eq_ok.mp laid
    exact ⟨rfl, Layout.fits_of_ofVariable laidOut⟩

theorem placeKernels_eq_ok {copies : Nat} {kernels : List Kernel}
    {rows : List (Kernel × List Placed)} (placed : placeKernels copies kernels = .ok rows) :
    rows.map (·.1) = kernels ∧
      ∀ row ∈ rows, row.2.map (·.decl) = row.1.vars ∧ ∀ p ∈ row.2, p.Stands row.1 copies := by
  rw [placeKernels] at placed
  refine ⟨?_, fun row mem => ?_⟩
  · have firsts := Checked.map_eq_of_each (g := (·.1)) (h := (·.1)) placed
      fun x row step => (placeKernel_eq_ok step).1
    simpa using firsts
  · obtain ⟨x, -, step⟩ := Checked.mem_of_each placed mem
    obtain ⟨kernel, each⟩ := placeKernel_eq_ok step
    rwa [← kernel] at each

/-- How the plan of a manifest is put together. -/
structure Arranges (p : Plan) (m : Manifest) : Prop where
  /-- The settings are those of the manifest. -/
  settings : p.settings = m.settings
  /-- So are the kernels. -/
  kernels : p.kernels.map (·.kernel) = m.kernels
  /-- Each kernel has its variables. -/
  decls : ∀ k ∈ p.kernels, k.placed.map (·.decl) = k.kernel.vars
  /-- Each variable stands in its place. -/
  stands : ∀ k ∈ p.kernels, ∀ v ∈ k.placed, v.Stands k.kernel p.settings.copies
  /-- The arguments of a kernel are those of its variables. -/
  arguments : ∀ k ∈ p.kernels, k.arguments = argumentsOf p.template k.placed
  /-- The signature is that of all variables. -/
  signature : p.signature = .ofPlaced p.placed
  /-- The kernels are arranged. -/
  schedule : Schedule.ofKernels m.kernels = .ok p.schedule
  /-- The buffers are those of all variables. -/
  buffers : p.buffers = p.placed.filterMap (·.buffer? p.template)
  /-- So are the comparisons. -/
  checks : p.checks = p.placed.filterMap (·.check?)

theorem arranges_of_ofManifest {m : Manifest} {p : Plan} (planned : ofManifest m = .ok p) :
    p.Arranges m := by
  simp only [ofManifest, Checked.bind_eq_ok, Checked.both_eq_ok, Checked.pure_eq_ok] at planned
  obtain ⟨⟨rows, schedule⟩, ⟨placed, scheduled⟩, rfl⟩ := planned
  obtain ⟨kernels, each⟩ := placeKernels_eq_ok placed
  have placed_eq : (assemble m.settings rows schedule).placed = rows.flatMap (·.2) := by
    simp [assemble, Plan.placed, List.flatMap_map]
  have mem {k : PlannedKernel} (k_mem : k ∈ (assemble m.settings rows schedule).kernels) :
      ∃ row ∈ rows, row.1 = k.kernel ∧ row.2 = k.placed ∧
        k.arguments = argumentsOf m.settings.template row.2 := by
    obtain ⟨row, row_mem, rfl⟩ := List.mem_map.mp k_mem
    exact ⟨row, row_mem, rfl, rfl, rfl⟩
  refine
    { settings := rfl
      kernels := by simpa [assemble, Function.comp_def] using kernels
      decls := fun k k_mem => ?_
      stands := fun k k_mem => ?_
      arguments := fun k k_mem => ?_
      signature := by rw [placed_eq]; rfl
      schedule := scheduled
      buffers := by rw [placed_eq]; rfl
      checks := by rw [placed_eq]; rfl }
  · obtain ⟨row, row_mem, kernel, placed, -⟩ := mem k_mem
    rw [← kernel, ← placed]
    exact (each row row_mem).1
  · obtain ⟨row, row_mem, kernel, placed, -⟩ := mem k_mem
    rw [← kernel, ← placed]
    exact (each row row_mem).2
  · obtain ⟨row, row_mem, kernel, placed, arguments⟩ := mem k_mem
    rw [arguments, placed]
    rfl

namespace Arranges

variable {p : Plan} {m : Manifest} (arranged : p.Arranges m)

include arranged

/-- The variables of the plan are those of the manifest. -/
theorem allVariables_eq :
    p.kernels.flatMap (fun k => k.placed.map fun v => (k.kernel, v.decl)) = m.allVariables := by
  rw [Manifest.allVariables, ← arranged.kernels, List.flatMap_map]
  refine List.flatMap_congr fun k k_mem => ?_
  rw [← arranged.decls k k_mem, List.map_map]
  rfl

/-- The variables of the host are those of the manifest. -/
theorem hostPlaced_decls :
    p.hostPlaced.map (·.decl) = m.hostVariables.map (·.2) := by
  rw [Manifest.hostVariables, ← arranged.allVariables_eq, hostPlaced, placed]
  simp [List.filter_flatMap, List.map_flatMap, List.filter_map, Function.comp_def]

end Arranges

/-- What holds of the plan of every manifest that was read and checked. -/
structure WellFormed (p : Plan) : Prop where
  /-- Kernels are told apart by their identifiers. -/
  idents_nodup : (p.kernels.map (·.kernel.ident)).Nodup
  /-- The variables of a kernel are told apart by their arguments. -/
  arguments_nodup : ∀ k ∈ p.kernels, (k.placed.map (·.decl.argument)).Nodup
  /-- The variables of the host are told apart by their names. -/
  names_nodup : (p.hostPlaced.map (·.decl.name)).Nodup
  /-- Each variable stands in its place. -/
  stands : ∀ k ∈ p.kernels, ∀ v ∈ k.placed, v.Stands k.kernel p.settings.copies
  /-- No variable of the host is without elements. -/
  count_pos : ∀ v ∈ p.hostPlaced, 0 < v.decl.members * p.settings.copies
  /-- The arguments of a kernel are those of its variables. -/
  arguments : ∀ k ∈ p.kernels, k.arguments = argumentsOf p.template k.placed
  /-- The kernels are arranged. -/
  schedule : Schedule.ofKernels (p.kernels.map (·.kernel)) = .ok p.schedule
  /-- The buffers are those of all variables. -/
  buffers : p.buffers = p.placed.filterMap (·.buffer? p.template)
  /-- The signature is that of all variables. -/
  signature : p.signature = .ofPlaced p.placed

theorem Arranges.wellFormed {p : Plan} {m : Manifest} (arranged : p.Arranges m)
    (admitted : m.Admitted) : p.WellFormed := by
  have none := admitted.nameProblems_eq_nil
  simp only [Manifest.nameProblems, List.append_eq_nil_iff, Manifest.repeatedKernels_eq_nil_iff,
    Manifest.takenVariables_eq_nil_iff] at none
  obtain ⟨⟨⟨⟨idents, arguments⟩, -⟩, -, names⟩, -⟩ := none
  have kernel_mem {k : PlannedKernel} (k_mem : k ∈ p.kernels) : k.kernel ∈ m.kernels := by
    rw [← arranged.kernels]
    exact List.mem_map_of_mem k_mem
  refine
    { idents_nodup := ?_
      arguments_nodup := fun k k_mem => ?_
      names_nodup := ?_
      stands := arranged.stands
      count_pos := fun v v_mem => ?_
      arguments := arranged.arguments
      schedule := by rw [arranged.kernels, arranged.schedule]
      buffers := arranged.buffers
      signature := arranged.signature }
  · rw [← arranged.kernels, List.map_map] at idents
    exact idents
  · have decls := arguments k.kernel (kernel_mem k_mem)
    rw [← arranged.decls k k_mem, List.map_map] at decls
    exact decls
  · have decls : p.hostPlaced.map (·.decl.name) = m.hostVariables.map (·.2.name) := by
      have := congrArg (List.map Variable.name) arranged.hostPlaced_decls
      simpa [Function.comp_def] using this
    rwa [decls]
  · simp only [hostPlaced, placed, List.mem_filter, List.mem_flatMap] at v_mem
    obtain ⟨⟨k, k_mem, v_mem⟩, -⟩ := v_mem
    have decl_mem : v.decl ∈ k.kernel.vars := by
      rw [← arranged.decls k k_mem]
      exact List.mem_map_of_mem v_mem
    have members := admitted.one_le_members k.kernel (kernel_mem k_mem) v.decl decl_mem
    have copies := admitted.one_le_copies
    rw [arranged.settings]
    exact Nat.mul_pos members copies

/-- What is evaluated to hold of a manifest and its plan holds of them, and there are both. -/
theorem exists_planned (source : String) (holds : Manifest → Plan → Bool)
    (evaluated : (Xml.root? source).any fun root =>
      (do let m ← Manifest.ofRoot root; m.check; return m : Checked Manifest).toOption.any
        fun m => (ofManifest m).toOption.any (holds m)) :
    ∃ m p, Manifest.read source = .ok m ∧ ofManifest m = .ok p ∧ holds m p := by
  obtain ⟨-, m, -, read, planned⟩ := Manifest.exists_read source _ evaluated
  cases made : ofManifest m with
  | error problems => simp [made, Except.toOption] at planned
  | ok p => exact ⟨m, p, read, made, by simpa [made, Except.toOption] using planned⟩

/-- A program is generated exactly for a manifest that can be read and planned. -/
theorem generate_eq_ok {source : String} {g : Generated} :
    generate source = .ok g ↔
      ∃ m p, Manifest.read source = .ok m ∧ ofManifest m = .ok p ∧ g = m.generated p := by
  simp only [generate, Checked.bind_eq_ok, Checked.pure_eq_ok]
  constructor
  · rintro ⟨m, read, p, planned, rfl⟩
    exact ⟨m, p, read, planned, rfl⟩
  · rintro ⟨m, p, read, planned, rfl⟩
    exact ⟨m, read, p, planned, rfl⟩

/-- A manifest with a loop, an input that a generator fills and an output that is compared. -/
def sampleManifest : String :=
  "<k program='p' looppreamble='yes'><kernel name='f'>" ++
    "<input name='a' type='int' nmemb='2' arg='0' generator='fill'/>" ++
    "<output name='b' type='float' nmemb='2' arg='1' epsilon='0.5'/>" ++
    "<ndrange><global>2</global></ndrange></kernel></k>"

set_option maxRecDepth 100000 in
theorem sampleManifest_planned_loop :
    ∃ m p, Manifest.read sampleManifest = .ok m ∧ ofManifest m = .ok p ∧ p.kernels ≠ [] ∧
      p.settings.hooks.enabled .loopPreamble := by
  obtain ⟨m, p, read, planned, holds⟩ := exists_planned sampleManifest
    (fun _ p => !p.kernels.isEmpty && p.settings.hooks.enabled .loopPreamble) (by decide +kernel)
  rw [Bool.and_eq_true] at holds
  exact ⟨m, p, read, planned, by simpa using holds.1, holds.2⟩

theorem sampleManifest_planned :
    ∃ m p, Manifest.read sampleManifest = .ok m ∧ ofManifest m = .ok p ∧ p.kernels ≠ [] := by
  obtain ⟨m, p, read, planned, kernels, -⟩ := sampleManifest_planned_loop
  exact ⟨m, p, read, planned, kernels⟩

theorem mem_hostPlaced {p : Plan} {v : Placed} :
    v ∈ p.hostPlaced ↔ ∃ k ∈ p.kernels, v ∈ k.placed ∧ v.decl.onHost := by
  simp only [hostPlaced, placed, List.mem_filter, List.mem_flatMap]
  tauto

namespace WellFormed

variable {p : Plan} (wellFormed : p.WellFormed)

include wellFormed

theorem fits {v : Placed} (mem : v ∈ p.hostPlaced) : v.layout.Fits v.decl p.settings.copies := by
  obtain ⟨k, k_mem, v_mem, -⟩ := mem_hostPlaced.mp mem
  exact (wellFormed.stands k k_mem v v_mem).layout

/-- Only variables of the host have buffers. -/
theorem buffers_eq : p.buffers = p.hostPlaced.filterMap (·.buffer? p.template) := by
  rw [wellFormed.buffers, hostPlaced, List.filterMap_filter]
  refine List.filterMap_congr fun v _ => ?_
  cases role : v.decl.role <;>
    simp [Variable.onHost, role, Placed.buffer?, Buffer.traffic?]

/-- The buffers are told apart by the names of their variables. -/
theorem hosts_nodup : (p.buffers.map (·.host)).Nodup := by
  rw [wellFormed.buffers_eq]
  refine List.pairwise_map.mpr (.filterMap _ ?_ (List.pairwise_map.mp wellFormed.names_nodup))
  intro v w apart b made c made'
  obtain ⟨_, _, _, -, -, rfl⟩ := Placed.buffer?_eq_some_iff.mp made
  obtain ⟨_, _, _, -, -, rfl⟩ := Placed.buffer?_eq_some_iff.mp made'
  exact apart

/-- A variable of the host is an array if it has more than one element. -/
theorem isArray_iff {v : Placed} (mem : v ∈ p.hostPlaced) :
    v.layout.storage.isArray ↔ 1 < v.decl.members * p.settings.copies := by
  have positive := wellFormed.count_pos v mem
  obtain ⟨-, -, -, onHost⟩ := mem_hostPlaced.mp mem
  rw [(wellFormed.fits mem).storage, if_pos onHost, Storage.isArray_ofCount, decide_eq_true_iff]
  omega

end WellFormed

end Plan
end KernelHost
