import KernelHost.Proofs.Plan.Checks
import KernelHost.Proofs.Report.Rejection
import KernelHost.Proofs.Schedule.Tiers

/-!
# What can be planned

A manifest is planned exactly if the host can keep each of its variables and either all kernels have
an order or none has one; otherwise there is one problem for each variable that cannot be kept, and
one for each kernel without an order where there are others with one.  A plan has a place for each
variable of its manifest and no other places, so what is looked up for a variable is always there.
-/

namespace KernelHost

/-! ## Acceptance -/

/-- The host can keep a variable. -/
structure Variable.Keepable (v : Variable) (copies : Nat) : Prop where
  /-- Its type is one of vectors, or does not look like one. -/
  type : (VectorType.ofName? v.type).isSome ∨ ¬ VectorType.isVectorLike v.type
  /-- The elements of an input or an output can be counted. -/
  count : v.role = .input ∨ v.role = .output → v.members * copies < twoTo 64

theorem Variable.misfit?_eq_none_iff {v : Variable} {copies : Nat} :
    v.misfit? copies = none ↔ v.Keepable copies := by
  have type : v.unknownVector? = none ↔
      (VectorType.ofName? v.type).isSome ∨ ¬ VectorType.isVectorLike v.type := by
    rw [unknownVector?]
    cases VectorType.ofName? v.type <;> simp
  have count : v.countOverflow? copies = none ↔
      (v.role = .input ∨ v.role = .output → v.members * copies < twoTo 64) := by
    rw [countOverflow?, onHost]
    cases v.role <;> simp
  have both : v.misfit? copies = none ↔
      v.unknownVector? = none ∧ v.countOverflow? copies = none := by
    rw [misfit?]
    cases v.unknownVector? <;> simp
  rw [both, type, count]
  constructor
  · rintro ⟨type, count⟩
    exact ⟨type, count⟩
  · rintro ⟨type, count⟩
    exact ⟨type, count⟩

instance (v : Variable) (copies : Nat) : Decidable (v.Keepable copies) :=
  decidable_of_iff _ Variable.misfit?_eq_none_iff

/-- What some members of a list are turned into, member by member. -/
theorem forall₂_filterMap {α β : Type} {R : α → β → Prop} {f : α → Option β} {p : α → Bool}
    {as : List α} (chosen : ∀ a ∈ as, (f a).isSome = p a)
    (related : ∀ a ∈ as, ∀ b, f a = some b → R a b) :
    List.Forall₂ R (as.filter p) (as.filterMap f) := by
  induction as with
  | nil => exact .nil
  | cons a as ih =>
      obtain ⟨here, rest⟩ := List.forall_mem_cons.mp chosen
      obtain ⟨relates, relatesRest⟩ := List.forall_mem_cons.mp related
      have tail := ih rest relatesRest
      cases made : f a with
      | none =>
          rw [made, Option.isSome_none] at here
          rwa [List.filter_cons_of_neg (by simp [← here]), List.filterMap_cons_none made]
      | some b =>
          rw [made, Option.isSome_some] at here
          rw [List.filter_cons_of_pos here.symm, List.filterMap_cons_some made]
          exact .cons (relates b made) tail

namespace Manifest

/-- Every variable can be kept, and the kernels are ordered throughout or not at all. -/
structure Plannable (m : Manifest) : Prop where
  keepable : ∀ k ∈ m.kernels, ∀ v ∈ k.vars, v.Keepable m.settings.copies
  orders : (∀ k ∈ m.kernels, k.order = none) ∨ ∀ k ∈ m.kernels, k.order.isSome

theorem disordered_eq_nil_iff {m : Manifest} :
    m.disordered = [] ↔ (∀ k ∈ m.kernels, k.order = none) ∨ ∀ k ∈ m.kernels, k.order.isSome := by
  rw [← Plan.problems_ofKernels, Checked.problems_eq_nil_iff, Schedule.exists_ofKernels_iff]

theorem misfits_eq_nil_iff {m : Manifest} : m.misfits = [] ↔ m.Plannable := by
  rw [misfits, List.append_eq_nil_iff, disordered_eq_nil_iff, List.filterMap_eq_nil_iff]
  constructor
  · rintro ⟨kept, orders⟩
    refine ⟨fun k k_mem v v_mem => ?_, orders⟩
    refine Variable.misfit?_eq_none_iff.mp (kept (k, v) ?_)
    exact List.mem_flatMap.mpr ⟨k, k_mem, List.mem_map_of_mem v_mem⟩
  · rintro ⟨keepable, orders⟩
    refine ⟨fun x mem => ?_, orders⟩
    obtain ⟨k, k_mem, of⟩ := List.mem_flatMap.mp mem
    obtain ⟨v, v_mem, rfl⟩ := List.mem_map.mp of
    exact Variable.misfit?_eq_none_iff.mpr (keepable k k_mem v v_mem)

/-- Each variable that cannot be kept has its problem, in the order of the declarations. -/
theorem forall₂_misfit? (m : Manifest) :
    List.Forall₂ (fun x e => x.2.misfit? m.settings.copies = some e)
      (m.allVariables.filter fun x => ¬ x.2.Keepable m.settings.copies)
      (m.allVariables.filterMap fun x => x.2.misfit? m.settings.copies) := by
  refine forall₂_filterMap (fun x _ => ?_) fun x _ e made => made
  rw [Bool.eq_iff_iff, decide_eq_true_eq, ← Variable.misfit?_eq_none_iff,
    Option.isSome_iff_ne_none]

/-! ## Places -/

/-- The variables of each kernel with their places. -/
def slotted (m : Manifest) : List (List (Slot × Variable)) :=
  m.kernels.zipIdx.map fun (k, index) => k.vars.zipIdx.map fun (v, i) => (⟨index, i⟩, v)

/-- The variable in a place. -/
def declAt? (m : Manifest) (slot : Slot) : Option Variable :=
  (m.kernels[slot.kernel]?).bind (·.vars[slot.index]?)

theorem declAt?_eq (m : Manifest) (slot : Slot) :
    (m.slotted[slot.kernel]?).bind (·[slot.index]?) = (m.declAt? slot).map (slot, ·) := by
  rw [slotted, declAt?, List.getElem?_map, List.getElem?_zipIdx]
  cases m.kernels[slot.kernel]? with
  | none => rfl
  | some k =>
      simp only [Option.map_some, Option.bind_some, List.getElem?_map, List.getElem?_zipIdx]
      cases k.vars[slot.index]? <;> simp

end Manifest

namespace Plan

/-- What is planned for the variable in a place. -/
def placed? (p : Plan) (slot : Slot) : Option Placed :=
  (p.kernels[slot.kernel]?).bind (·.placed[slot.index]?)

theorem slotted_of_ofManifest {m : Manifest} {p : Plan} (planned : ofManifest m = .ok p) :
    (p.kernels.map fun k => k.placed.map fun w => (w.slot, w.decl)) = m.slotted := by
  simp only [ofManifest, Checked.bind_eq_ok, Checked.both_eq_ok, Checked.pure_eq_ok] at planned
  obtain ⟨⟨rows, schedule⟩, ⟨placed, -⟩, rfl⟩ := planned
  have row {k : Kernel} {index : Nat} {x : Kernel × List Placed}
      (step : placeKernel m.settings.copies k index = .ok x) :
      (x.2.map fun w => (w.slot, w.decl)) =
        k.vars.zipIdx.map fun (v, i) => ((⟨index, i⟩, v) : Slot × Variable) := by
    rw [placeKernel, Checked.map_eq_ok] at step
    obtain ⟨ps, each, rfl⟩ := step
    refine Checked.map_eq_of_each each fun y w laid => ?_
    obtain ⟨l, -, rfl⟩ := Checked.map_eq_ok.mp laid
    rfl
  have all := Checked.map_eq_of_each (g := fun x => x.2.map fun w => (w.slot, w.decl))
    placed fun x y step => row step
  rw [Manifest.slotted, ← all]
  simp [assemble, Function.comp_def]

end Plan

/-! ## Buffers and comparisons -/

namespace Variable

/-- A variable has memory of the device: it is an output, or an input of not just one element. -/
def isBuffered (copies : Nat) (v : Variable) : Bool :=
  v.role == .output || v.role == .input && v.members * copies != 1

/-- A buffer is that of a variable in a place. -/
structure BufferedBy (copies : Nat) (x : Slot × Variable) (b : Buffer) : Prop where
  slot : b.slot = x.1
  host : b.host = x.2.name
  type : b.type = x.2.type
  count : b.storage.count = x.2.members * copies

/-- A comparison is that of a variable with its reference copy, element by element and lane by
lane. -/
structure ComparedBy (copies : Nat) (x : Slot × Variable) (c : Check) : Prop where
  output : c.output = x.2.name
  comparison : c.comparison = x.2.tolerance.elim .exact
    fun t => .within (.var (.tolerance x.2.name)) t.text t.value
  elements : c.elements =
    if x.2.members * copies = 1 then none else some (x.2.members * copies)
  lanes : c.lanes = (VectorType.ofName? x.2.type).map (·.lanes)

end Variable

namespace Placed

variable {w : Placed} {copies : Nat} (fits : w.layout.Fits w.decl copies)

include fits

theorem isSome_buffer? (template : Template) :
    (w.buffer? template).isSome = w.decl.isBuffered copies := by
  rw [buffer?, Variable.isBuffered, fits.storage, Variable.onHost]
  cases w.decl.role <;> cases template <;> simp [Buffer.traffic?]
  all_goals split_ifs <;> simp_all

theorem bufferedBy_of_buffer? {template : Template} {b : Buffer}
    (made : w.buffer? template = some b) : Variable.BufferedBy copies (w.slot, w.decl) b := by
  obtain ⟨access, upload, download, traffic, -, rfl⟩ := buffer?_eq_some_iff.mp made
  have onHost : w.decl.onHost := by
    cases role : w.decl.role <;> simp_all [Variable.onHost, Buffer.traffic?]
  exact ⟨rfl, rfl, rfl, by simp [fits.storage, onHost]⟩

theorem isSome_check? : w.check?.isSome = w.decl.validated := by
  rw [Bool.eq_iff_iff, isSome_check?_iff, fits.reference, Variable.validated]
  cases w.decl.role <;> cases w.decl.unvalidated <;> simp

theorem comparedBy_decl_of_check? {c : Check} (made : w.check? = some c) :
    Variable.ComparedBy copies (w.slot, w.decl) c := by
  have compared := comparedBy_of_check? made
  have onHost : w.decl.onHost := by simp [Variable.onHost, compared.role]
  refine ⟨compared.output, compared.comparison, ?_, ?_⟩
  · rw [compared.elements, fits.storage, if_pos onHost]
    by_cases one : w.decl.members * copies = 1 <;> simp [one]
  · rw [compared.lanes, fits.vector]

end Placed

namespace Plan

/-- The shape of the plan of a manifest. -/
structure Shaped (p : Plan) (m : Manifest) : Prop where
  kernels : p.kernels.map (·.kernel) = m.kernels
  /-- The variables stand in the rows and the columns of the manifest. -/
  rows : (p.kernels.map fun k => k.placed.map fun w => (w.slot, w.decl)) = m.slotted
  /-- For each variable of the manifest there is a layout in its place. -/
  layouts : ∀ slot v, m.declAt? slot = some v →
    ∃ w, p.placed? slot = some w ∧ w.slot = slot ∧ w.decl = v ∧
      w.layout.Fits v m.settings.copies
  /-- The arguments of a kernel are those of its variables. -/
  arguments : List.Forall₂ (fun k row => (k.arguments.map (·.slot)).Perm (row.map (·.1)))
    p.kernels m.slotted
  buffers : List.Forall₂ (Variable.BufferedBy m.settings.copies)
    (m.slotted.flatten.filter (·.2.isBuffered m.settings.copies)) p.buffers
  checks : List.Forall₂ (Variable.ComparedBy m.settings.copies)
    (m.slotted.flatten.filter (·.2.validated)) p.checks

section Planned

variable {m : Manifest} {p : Plan} (planned : ofManifest m = .ok p)

include planned

theorem fits_of_mem_placed {w : Placed} (mem : w ∈ p.placed) :
    w.layout.Fits w.decl m.settings.copies := by
  have arranged := arranges_of_ofManifest planned
  obtain ⟨k, k_mem, w_mem⟩ := List.mem_flatMap.mp mem
  rw [← arranged.settings]
  exact (arranged.stands k k_mem w w_mem).layout

theorem map_placed_eq : (p.placed.map fun w => (w.slot, w.decl)) = m.slotted.flatten := by
  rw [← slotted_of_ofManifest planned, placed, List.flatMap, List.map_flatten, List.map_map]
  rfl

theorem exists_placed? {slot : Slot} {v : Variable} (declared : m.declAt? slot = some v) :
    ∃ w, p.placed? slot = some w ∧ w.slot = slot ∧ w.decl = v ∧
      w.layout.Fits v m.settings.copies := by
  have found := m.declAt?_eq slot
  rw [declared, ← slotted_of_ofManifest planned, List.getElem?_map] at found
  rw [placed?]
  cases at_kernel : p.kernels[slot.kernel]? with
  | none => simp [at_kernel] at found
  | some k =>
      simp only [at_kernel, Option.map_some, Option.bind_some, List.getElem?_map,
        Option.map_eq_some_iff, Prod.mk.injEq] at found
      obtain ⟨w, at_slot, here, rfl⟩ := found
      refine ⟨w, at_slot, here, rfl, fits_of_mem_placed planned ?_⟩
      exact List.mem_flatMap.mpr
        ⟨k, List.mem_of_getElem? at_kernel, List.mem_of_getElem? at_slot⟩

theorem plannable_of_ofManifest : m.Plannable := by
  have problems := problems_ofManifest m
  rw [planned] at problems
  exact Manifest.misfits_eq_nil_iff.mp problems.symm

theorem shaped_of_ofManifest : p.Shaped m := by
  have arranged := arranges_of_ofManifest planned
  have fits {w : Placed} (mem : w ∈ p.placed) := fits_of_mem_placed planned mem
  refine
    { kernels := arranged.kernels
      rows := slotted_of_ofManifest planned
      layouts := fun slot v => exists_placed? planned
      arguments := ?_
      buffers := ?_
      checks := ?_ }
  · rw [← slotted_of_ofManifest planned, List.forall₂_map_right_iff, List.forall₂_same]
    intro k mem
    rw [arranged.arguments k mem, argumentsOf, List.map_map]
    refine ((List.mergeSort_perm ..).map _).trans (.of_eq ?_)
    rw [List.map_map]
    rfl
  · rw [← map_placed_eq planned, List.filter_map, List.forall₂_map_left_iff, arranged.buffers]
    exact forall₂_filterMap (fun w mem => Placed.isSome_buffer? (fits mem) _)
      fun w mem b made => Placed.bufferedBy_of_buffer? (fits mem) made
  · rw [← map_placed_eq planned, List.filter_map, List.forall₂_map_left_iff, arranged.checks]
    exact forall₂_filterMap (fun w mem => Placed.isSome_check? (fits mem))
      fun w mem c made => Placed.comparedBy_decl_of_check? (fits mem) made

end Planned

/-- A manifest is planned, each variable in its place, if it can be.  Otherwise each variable that
the host cannot keep is reported, and behind them each kernel without an order where others have
one. -/
theorem shaped_or_refused (m : Manifest) :
    match ofManifest m with
    | .ok p => m.Plannable ∧ p.Shaped m
    | .error ps => ¬ m.Plannable ∧ ∃ ofVariables, ps.toList = ofVariables ++ m.disordered ∧
      List.Forall₂ (fun x e => x.2.misfit? m.settings.copies = some e)
        (m.allVariables.filter fun x => ¬ x.2.Keepable m.settings.copies) ofVariables := by
  have problems := problems_ofManifest m
  cases planned : ofManifest m with
  | ok p =>
      rw [planned] at problems
      exact ⟨Manifest.misfits_eq_nil_iff.mp problems.symm, shaped_of_ofManifest planned⟩
  | error ps =>
      rw [planned] at problems
      refine ⟨fun plannable => ?_, _, problems, m.forall₂_misfit?⟩
      rw [Manifest.misfits_eq_nil_iff.mpr plannable] at problems
      exact ps.toList_ne_nil problems

end Plan

end KernelHost
