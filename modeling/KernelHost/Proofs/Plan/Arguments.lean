import KernelHost.Proofs.Inert.Essence
import KernelHost.Proofs.Plan.Acceptance
import Mathlib.Data.List.Perm.Basic
import Mathlib.Data.List.Sigma

/-!
# Arguments

What a kernel is called on is decided twice: the planner of buffers chooses the variables that have
one, and the planner of arguments looks them up.  Both agree, so each buffer is the argument of its
own variable and of no other one.  The arguments are sorted by indices that the checks of the
manifest tell apart; so the order in which a kernel declares its variables does not matter.
-/

namespace KernelHost

/-! ## The argument of a variable -/

namespace Variable

/-- The argument of a variable is what its role and its number of elements ask for. -/
structure BoundBy (template : Template) (copies : Nat) (v : Variable) (a : Argument) : Prop where
  index : a.index = v.argument
  /-- A single element is passed by its value. -/
  value : v.role = .input → v.members * copies = 1 →
    a.binding = .value v.name v.type ∧ a.label = v.name
  /-- Arrays and all outputs are passed by their buffers. -/
  handle : v.role = .output ∨ v.role = .input ∧ v.members * copies ≠ 1 →
    a.binding = .handle v.name ∧ a.label = v.name ++ "K"
  /-- Memory of a work group does not grow with the factor. -/
  scratch : v.role = .scratch →
    a.binding = .scratch v.members v.type ∧ a.label = "__local " ++ toString v.argument
  /-- Values are bound anew in each pass of the loop, and nothing else is. -/
  everyPass : a.everyPass ↔ template = .loop ∧ a.binding.isValue

/-- What is passed for a variable, and its name in messages. -/
def binding (copies : Nat) (v : Variable) : Binding × String :=
  match v.role with
  | .scratch => (.scratch v.members v.type, s!"__local {v.argument}")
  | _ =>
    if v.isBuffered copies then (.handle v.name, (Code.Var.buffer v.name).text)
    else (.value v.name v.type, v.name)

/-- What a call of a kernel shows of an argument. -/
def passed (template : Template) (copies : Nat) (v : Variable) :
    Nat × String × Binding × Bool :=
  let (binding, label) := v.binding copies
  (v.argument, label, binding, template == .loop && binding.isValue)

end Variable

/-- What a call of a kernel shows of an argument: all but the place of its variable. -/
def Argument.passed (a : Argument) : Nat × String × Binding × Bool :=
  (a.index, a.label, a.binding, a.everyPass)

namespace Placed

variable {w : Placed} {copies : Nat} {template : Template}

/-- An argument is a buffer exactly if the variable has that buffer. -/
theorem binding_eq_handle_iff {host : String} :
    (w.toArgument template).binding = .handle host ↔
      ∃ b, w.buffer? template = some b ∧ b.host = host := by
  have noBuffer (scratch : w.decl.role = .scratch) : w.buffer? template = none := by
    simp [buffer?, scratch, Buffer.traffic?]
  cases role : w.decl.role <;> cases made : w.buffer? template <;>
    simp_all [toArgument, binding]

variable (fits : w.layout.Fits w.decl copies)

include fits

theorem binding_eq : w.binding template = w.decl.binding copies := by
  have isSome := isSome_buffer? fits template
  cases role : w.decl.role with
  | scratch => simp [binding, Variable.binding, role, fits.storage, Variable.onHost]
  | input | output =>
      cases made : w.buffer? template with
      | none => simp_all [binding, Variable.binding]
      | some b =>
          have host := (bufferedBy_of_buffer? fits made).host
          simp_all [binding, Variable.binding, Buffer.handle]

theorem passed_toArgument :
    (w.toArgument template).passed = w.decl.passed template copies := by
  simp only [toArgument, Argument.passed, Variable.passed, binding_eq fits]

theorem boundBy_toArgument : w.decl.BoundBy template copies (w.toArgument template) where
  index := rfl
  value input single := by
    simp [toArgument, binding_eq fits, Variable.binding, Variable.isBuffered, input, single]
  handle buffered := by
    have chosen : w.decl.isBuffered copies = true := by simpa [Variable.isBuffered] using buffered
    obtain role | ⟨role, -⟩ := buffered <;>
      simp [toArgument, binding_eq fits, Variable.binding, chosen, role, Code.Var.text]
  scratch role := by
    simp [toArgument, binding_eq fits, Variable.binding, role]
    rfl
  everyPass := by simp [toArgument]

end Placed

/-! ## All arguments -/

theorem pairwise_mergeSort_key {α : Type} (key : α → Nat) (as : List α) :
    (as.mergeSort (key · ≤ key ·)).Pairwise (key · ≤ key ·) := by
  refine (List.pairwise_mergeSort ?_ ?_ as).imp of_decide_eq_true
  · intro a b c
    simpa using Nat.le_trans
  · intro a b
    simpa using Nat.le_total (key a) (key b)

theorem argumentsOf_perm (template : Template) (ps : List Placed) :
    (argumentsOf template ps).Perm (ps.map (·.toArgument template)) :=
  List.mergeSort_perm ..

/-- Indices that are told apart ascend. -/
theorem argumentsOf_ascending {template : Template} {ps : List Placed}
    (nodup : (ps.map (·.decl.argument)).Nodup) :
    (argumentsOf template ps).Pairwise (·.index < ·.index) := by
  have sorted : (argumentsOf template ps).Pairwise (·.index ≤ ·.index) :=
    pairwise_mergeSort_key Argument.index _
  have apart : ((argumentsOf template ps).map (·.index)).Nodup := by
    refine ((argumentsOf_perm template ps).map _).nodup_iff.mpr ?_
    rw [List.map_map]
    exact nodup
  exact sorted.imp₂ (fun _ _ => Nat.lt_of_le_of_ne) (List.pairwise_map.mp apart)

namespace Manifest

theorem mem_slotted_iff {m : Manifest} {x : Slot × Variable} :
    x ∈ m.slotted.flatten ↔ m.declAt? x.1 = some x.2 := by
  obtain ⟨⟨kernel, index⟩, v⟩ := x
  simp only [slotted, declAt?, List.mem_flatten, List.mem_map, Option.bind_eq_some_iff]
  constructor
  · rintro ⟨_, ⟨⟨k, i⟩, k_mem, rfl⟩, mem⟩
    obtain ⟨⟨w, j⟩, w_mem, same⟩ := List.mem_map.mp mem
    cases same
    exact ⟨k, List.mem_zipIdx_iff_getElem?.mp k_mem, List.mem_zipIdx_iff_getElem?.mp w_mem⟩
  · rintro ⟨k, k_at, v_at⟩
    exact ⟨_, ⟨(k, kernel), List.mem_zipIdx_iff_getElem?.mpr k_at, rfl⟩,
      List.mem_map.mpr ⟨(v, index), List.mem_zipIdx_iff_getElem?.mpr v_at, rfl⟩⟩

/-- Variables are told apart by their places. -/
theorem slots_nodup (m : Manifest) : (m.slotted.flatten.map (·.1)).Nodup := by
  have kernels : m.kernels.zipIdx.Pairwise fun x y => x.2 ≠ y.2 :=
    List.pairwise_map.mp (List.nodup_zipIdx_map_snd m.kernels)
  rw [slotted, ← List.flatMap, List.map_flatMap, List.nodup_flatMap]
  refine ⟨fun x _ => ?_, kernels.imp fun {x y} apart slot x_mem y_mem => ?_⟩
  · refine List.Nodup.of_map (·.index) ?_
    simpa [Function.comp_def] using List.nodup_zipIdx_map_snd x.1.vars
  · simp only [List.mem_map] at x_mem y_mem
    obtain ⟨_, ⟨_, _, rfl⟩, rfl⟩ := x_mem
    obtain ⟨_, ⟨_, _, rfl⟩, same⟩ := y_mem
    exact apart (congrArg Slot.kernel same).symm

end Manifest

namespace Plan

/-- The arguments of all kernels. -/
def arguments (p : Plan) : List Argument :=
  p.kernels.flatMap (·.arguments)

/-- The kernels of a plan are called on the variables of a manifest. -/
structure Binds (p : Plan) (m : Manifest) : Prop where
  /-- Each kernel is called on its variables and on nothing else. -/
  slots : List.Forall₂ (fun k row => (k.arguments.map (·.slot)).Perm (row.map (·.1)))
    p.kernels m.slotted
  ascending : ∀ k ∈ p.kernels, k.arguments.Pairwise (·.index < ·.index)
  bound : ∀ a ∈ p.arguments, ∃ v, m.declAt? a.slot = some v ∧
    v.BoundBy p.template m.settings.copies a
  /-- Each buffer is one argument, the one of its variable. -/
  buffers : ∀ b ∈ p.buffers, ∃ a,
    p.arguments.filter (·.binding = .handle b.host) = [a] ∧ a.slot = b.slot
  /-- The buffer of an argument is the one that is found for its variable. -/
  handles : ∀ a ∈ p.arguments, ∀ host, a.binding = .handle host →
    ∃ b, p.buffers.find? (·.slot = a.slot) = some b ∧ b.host = host

section Planned

variable {m : Manifest} {p : Plan} (planned : ofManifest m = .ok p)

include planned

theorem arguments_perm : p.arguments.Perm (p.placed.map (·.toArgument p.template)) := by
  rw [arguments, placed, List.map_flatMap]
  refine List.Perm.flatMap_left _ fun k mem => ?_
  rw [(arranges_of_ofManifest planned).arguments k mem]
  exact argumentsOf_perm ..

theorem mem_arguments_iff {a : Argument} :
    a ∈ p.arguments ↔ ∃ w ∈ p.placed, w.toArgument p.template = a := by
  rw [(arguments_perm planned).mem_iff, List.mem_map]

theorem placedSlots_nodup : (p.placed.map (·.slot)).Nodup := by
  have slots := m.slots_nodup
  rwa [← map_placed_eq planned, List.map_map] at slots

theorem argumentSlots_nodup : (p.arguments.map (·.slot)).Nodup := by
  refine ((arguments_perm planned).map _).nodup_iff.mpr ?_
  rw [List.map_map]
  exact placedSlots_nodup planned

theorem bufferSlots_nodup : (p.buffers.map (·.slot)).Nodup := by
  rw [(arranges_of_ofManifest planned).buffers]
  refine List.pairwise_map.mpr (.filterMap _ ?_ (List.pairwise_map.mp (placedSlots_nodup planned)))
  intro v w apart b made c made'
  obtain ⟨_, _, _, -, -, rfl⟩ := Placed.buffer?_eq_some_iff.mp made
  obtain ⟨_, _, _, -, -, rfl⟩ := Placed.buffer?_eq_some_iff.mp made'
  exact apart

/-- A buffer of a variable is found by the place of the variable. -/
theorem find?_buffers {w : Placed} {b : Buffer} (mem : w ∈ p.placed)
    (made : w.buffer? p.template = some b) : p.buffers.find? (·.slot = w.slot) = some b := by
  have b_mem : b ∈ p.buffers := by
    rw [(arranges_of_ofManifest planned).buffers]
    exact List.mem_filterMap.mpr ⟨w, mem, made⟩
  have slot := (Placed.bufferedBy_of_buffer? (fits_of_mem_placed planned mem) made).slot
  cases found : p.buffers.find? (·.slot = w.slot) with
  | none => simpa [slot] using List.find?_eq_none.mp found b b_mem
  | some c =>
      have same : c.slot = b.slot := by simpa [slot] using List.find?_some found
      rw [List.inj_on_of_nodup_map (bufferSlots_nodup planned) (List.mem_of_find?_eq_some found)
        b_mem same]

/-- No other argument is the buffer of a variable. -/
theorem filter_arguments_handle (wellFormed : p.WellFormed) {w : Placed} {b : Buffer}
    (mem : w ∈ p.placed) (made : w.buffer? p.template = some b) :
    p.arguments.filter (·.binding = .handle b.host) = [w.toArgument p.template] := by
  have buffered {v : Placed} {c : Buffer} (mem : v ∈ p.placed)
      (made : v.buffer? p.template = some c) : c ∈ p.buffers ∧ c.slot = v.slot := by
    have found := find?_buffers planned mem made
    exact ⟨List.mem_of_find?_eq_some found, by simpa using List.find?_some found⟩
  have nodup : p.arguments.Nodup := (argumentSlots_nodup planned).of_map
  refine List.perm_singleton.mp ?_
  rw [List.perm_ext_iff_of_nodup (nodup.filter _) (List.nodup_singleton _)]
  intro a
  simp only [List.mem_filter, mem_arguments_iff planned, decide_eq_true_eq, List.mem_singleton]
  constructor
  · rintro ⟨⟨v, v_mem, rfl⟩, handle⟩
    obtain ⟨c, made', host⟩ := Placed.binding_eq_handle_iff.mp handle
    obtain ⟨b_mem, slot⟩ := buffered mem made
    obtain ⟨c_mem, slot'⟩ := buffered v_mem made'
    obtain rfl : c = b := List.inj_on_of_nodup_map wellFormed.hosts_nodup c_mem b_mem host
    rw [List.inj_on_of_nodup_map (placedSlots_nodup planned) v_mem mem (slot'.symm.trans slot)]
  · rintro rfl
    exact ⟨⟨w, mem, rfl⟩, Placed.binding_eq_handle_iff.mpr ⟨b, made, rfl⟩⟩

theorem binds_of_ofManifest (wellFormed : p.WellFormed) : p.Binds m := by
  have arranged := arranges_of_ofManifest planned
  refine
    { slots := ?_
      ascending := fun k mem => ?_
      bound := fun a mem => ?_
      buffers := fun b mem => ?_
      handles := fun a mem host handle => ?_ }
  · rw [← slotted_of_ofManifest planned, List.forall₂_map_right_iff, List.forall₂_same]
    intro k mem
    rw [arranged.arguments k mem, List.map_map]
    refine ((argumentsOf_perm ..).map _).trans (.of_eq ?_)
    rw [List.map_map]
    rfl
  · rw [wellFormed.arguments k mem]
    exact argumentsOf_ascending (wellFormed.arguments_nodup k mem)
  · obtain ⟨w, w_mem, rfl⟩ := (mem_arguments_iff planned).mp mem
    refine ⟨w.decl, ?_, Placed.boundBy_toArgument (fits_of_mem_placed planned w_mem)⟩
    have slotted : (w.slot, w.decl) ∈ m.slotted.flatten := by
      rw [← map_placed_eq planned]
      exact List.mem_map_of_mem w_mem
    exact Manifest.mem_slotted_iff.mp slotted
  · rw [arranged.buffers] at mem
    obtain ⟨w, w_mem, made⟩ := List.mem_filterMap.mp mem
    have slot := (Placed.bufferedBy_of_buffer? (fits_of_mem_placed planned w_mem) made).slot
    exact ⟨_, filter_arguments_handle planned wellFormed w_mem made, slot.symm⟩
  · obtain ⟨w, w_mem, rfl⟩ := (mem_arguments_iff planned).mp mem
    obtain ⟨b, made, named⟩ := Placed.binding_eq_handle_iff.mp handle
    exact ⟨b, find?_buffers planned w_mem made, named⟩

end Planned

end Plan

/-! ## Variables in another order -/

/-- A variable at no place. -/
def Variable.placeless (v : Variable) : Variable :=
  { v with span := .nowhere }

theorem Variable.keepable_placeless {v : Variable} {copies : Nat} :
    v.placeless.Keepable copies ↔ v.Keepable copies :=
  ⟨fun ⟨type, count⟩ => ⟨type, count⟩, fun ⟨type, count⟩ => ⟨type, count⟩⟩

/-- Two kernels declare the same variables, each in its own order. -/
structure Kernel.Shuffles (k k' : Kernel) : Prop where
  name : k'.name = k.name
  order : k'.order = k.order
  /-- They are launched over the same range. -/
  range : k'.range.essence = k.range.essence
  vars : (k'.vars.map Variable.placeless).Perm (k.vars.map Variable.placeless)

/-- Two manifests declare the same kernels, each with the variables in its own order. -/
structure Manifest.Shuffles (m m' : Manifest) : Prop where
  settings : m'.settings = m.settings
  kernels : List.Forall₂ Kernel.Shuffles m.kernels m'.kernels

/-- What lists are turned into is the same up to the order if it is so member by member. -/
theorem perm_flatMap_of_forall₂ {α β γ : Type} {R : α → β → Prop} {f : α → List γ}
    {g : β → List γ} {as : List α} {bs : List β} (related : List.Forall₂ R as bs)
    (perm : ∀ a b, R a b → (g b).Perm (f a)) : (bs.flatMap g).Perm (as.flatMap f) := by
  induction related with
  | nil => exact .refl _
  | cons head _ ih =>
      rw [List.flatMap_cons, List.flatMap_cons]
      exact (perm _ _ head).append ih

namespace Kernel.Shuffles

variable {k k' : Kernel} (shuffled : k.Shuffles k')

include shuffled

theorem ident : k'.ident = k.ident := by
  rw [Kernel.ident, Kernel.ident, shuffled.name]

theorem derivedNames : k'.derivedNames = k.derivedNames := by
  have sizes : k'.range.localSizes = k.range.localSizes := by
    simpa [WorkRange.essence] using congrArg WorkRange.localSizes shuffled.range
  rw [Kernel.derivedNames, Kernel.derivedNames, shuffled.ident, sizes]

/-- What does not look at the place of a variable is the same up to the order. -/
theorem map_vars {α : Type} (f : Variable → α) (same : ∀ v, f v.placeless = f v) :
    (k'.vars.map f).Perm (k.vars.map f) := by
  have perm := shuffled.vars.map f
  simpa [List.map_map, Function.comp_def, same] using perm

theorem exists_mem {v : Variable} (mem : v ∈ k'.vars) :
    ∃ w ∈ k.vars, w.placeless = v.placeless :=
  List.mem_map.mp (shuffled.vars.subset (List.mem_map_of_mem mem))

end Kernel.Shuffles

namespace Manifest.Shuffles

variable {m m' : Manifest} (shuffled : m.Shuffles m')

include shuffled

theorem hostVariables : (m'.hostVariables.map (·.2.placeless)).Perm
    (m.hostVariables.map (·.2.placeless)) := by
  have eq (m : Manifest) : m.hostVariables.map (·.2.placeless) =
      m.kernels.flatMap fun k => (k.vars.map Variable.placeless).filter (·.onHost) := by
    simp only [Manifest.hostVariables, allVariables, List.filter_flatMap, List.map_flatMap,
      List.filter_map, List.map_map]
    rfl
  rw [eq, eq]
  exact perm_flatMap_of_forall₂ shuffled.kernels fun k k' shuffled => shuffled.vars.filter _

theorem map_kernels {α : Type} (f : Kernel → α) (same : ∀ k k', k.Shuffles k' → f k' = f k) :
    m'.kernels.map f = m.kernels.map f := by
  rw [← List.forall₂_eq_eq_eq, List.forall₂_map_left_iff, List.forall₂_map_right_iff]
  exact (shuffled.kernels.imp fun k k' shuffled => (same k k' shuffled).symm).flip.imp
    fun _ _ => Eq.symm

theorem derivedNames : m'.derivedNames.Perm m.derivedNames := by
  have perm := shuffled.hostVariables.flatMap_right (·.derivedNames m.settings.copies)
  rw [Manifest.derivedNames, Manifest.derivedNames]
  refine .append (.of_eq ?_) ?_
  · rw [List.flatMap, List.flatMap,
      shuffled.map_kernels _ fun k k' shuffled => shuffled.derivedNames]
  · rw [shuffled.settings]
    rw [List.flatMap_map, List.flatMap_map] at perm
    exact perm

theorem nameProblems_eq_nil (untroubled : m.nameProblems = []) : m'.nameProblems = [] := by
  have names := shuffled.hostVariables.map (·.name)
  simp only [List.map_map] at names
  have arguments := (nameProblems_eq_nil_iff.mp untroubled).2.1
  refine nameProblems_eq_nil_of_perm untroubled
    (shuffled.map_kernels _ fun k k' shuffled => shuffled.ident) ?_ shuffled.derivedNames names
    fun y mem name asks => ?_
  · refine forall_mem_of_forall₂ shuffled.kernels (fun k k' shuffled nodup => ?_) arguments
    exact (shuffled.map_vars (·.argument) fun _ => rfl).nodup_iff.mpr nodup
  · obtain ⟨x, x_mem, same⟩ := List.mem_map.mp
      (shuffled.hostVariables.subset (List.mem_map_of_mem mem))
    have generator : x.2.generator = y.2.generator := by
      simpa [Variable.placeless] using congrArg Variable.generator same
    exact ⟨x, x_mem, generator ▸ asks⟩

theorem plannable (plannable : m.Plannable) : m'.Plannable where
  keepable := by
    rw [shuffled.settings]
    refine forall_mem_of_forall₂ shuffled.kernels (fun k k' shuffled keepable v mem => ?_)
      plannable.keepable
    obtain ⟨w, w_mem, same⟩ := shuffled.exists_mem mem
    rw [← Variable.keepable_placeless, ← same, Variable.keepable_placeless]
    exact keepable w w_mem
  orders := by
    refine plannable.orders.imp ?_ ?_ <;>
      refine forall_mem_of_forall₂ shuffled.kernels fun k k' shuffled ordered => ?_
    · rw [shuffled.order, ordered]
    · rwa [shuffled.order]

end Manifest.Shuffles

/-- Members with keys that are told apart are sorted in one way only. -/
theorem mergeSort_eq_of_perm {α : Type} {as bs : List (Nat × α)} (perm : bs.Perm as)
    (nodup : (as.map (·.1)).Nodup) :
    bs.mergeSort (·.1 ≤ ·.1) = as.mergeSort (·.1 ≤ ·.1) := by
  have same : (bs.mergeSort (·.1 ≤ ·.1)).Perm (as.mergeSort (·.1 ≤ ·.1)) :=
    (List.mergeSort_perm ..).trans (perm.trans (List.mergeSort_perm ..).symm)
  refine same.eq_of_pairwise (fun a b a_mem b_mem forth back => ?_)
    (pairwise_mergeSort_key (·.1) bs) (pairwise_mergeSort_key (·.1) as)
  exact List.inj_on_of_nodup_map nodup (perm.subset (List.mem_mergeSort.mp a_mem))
    (List.mem_mergeSort.mp b_mem) (Nat.le_antisymm forth back)

namespace Plan

/-- What a kernel shows of its arguments is what its variables do, sorted by their indices. -/
theorem map_passed {m : Manifest} {p : Plan} (planned : ofManifest m = .ok p) :
    p.kernels.map (fun k => k.arguments.map (·.passed)) = m.kernels.map fun k =>
      (k.vars.map (·.passed m.settings.template m.settings.copies)).mergeSort (·.1 ≤ ·.1) := by
  have arranged := arranges_of_ofManifest planned
  rw [← arranged.kernels, List.map_map]
  refine List.map_congr_left fun k mem => ?_
  rw [arranged.arguments k mem, Function.comp_apply, ← arranged.decls k mem, argumentsOf]
  have sorted (as : List Argument) : (as.mergeSort (·.index ≤ ·.index)).map (·.passed) =
      (as.map (·.passed)).mergeSort (·.1 ≤ ·.1) :=
    List.map_mergeSort fun _ _ _ _ => rfl
  rw [sorted, List.map_map, List.map_map, template, arranged.settings]
  congr 1
  refine List.map_congr_left fun w w_mem => ?_
  exact Placed.passed_toArgument
    (fits_of_mem_placed planned (List.mem_flatMap.mpr ⟨k, mem, w_mem⟩))

/-- What kernels are called on does not depend on the order of their variables. -/
theorem map_passed_of_shuffles {m m' : Manifest} {p p' : Plan} (planned : ofManifest m = .ok p)
    (planned' : ofManifest m' = .ok p') (shuffled : m.Shuffles m')
    (nodup : ∀ k ∈ m.kernels, (k.vars.map (·.argument)).Nodup) :
    p'.kernels.map (fun k => k.arguments.map (·.passed)) =
      p.kernels.map fun k => k.arguments.map (·.passed) := by
  rw [map_passed planned, map_passed planned', shuffled.settings, ← List.forall₂_eq_eq_eq,
    List.forall₂_map_left_iff, List.forall₂_map_right_iff]
  refine ((List.forall₂_and_left ..).mpr ⟨nodup, shuffled.kernels⟩).flip.imp ?_
  rintro k' k ⟨nodup, shuffled⟩
  refine mergeSort_eq_of_perm (shuffled.map_vars _ fun _ => rfl) ?_
  rw [List.map_map]
  exact nodup

/-- The arguments of the kernels of each plan are their variables by ascending indices: buffers for
arrays and outputs, each the one of its variable, and values that are bound anew in each pass of the
loop for all other inputs.  Variables in another order are planned, too, with the same arguments. -/
theorem binds_and_shuffles {source : String} {m : Manifest} {p : Plan}
    (read : Manifest.read source = .ok m) (planned : ofManifest m = .ok p) :
    p.Binds m ∧ ∀ m', m.Shuffles m' → m'.check = .ok () ∧ ∃ p', ofManifest m' = .ok p' ∧
      p'.kernels.map (fun k => k.arguments.map (·.passed)) =
        p.kernels.map fun k => k.arguments.map (·.passed) := by
  have admitted := Manifest.admitted_of_read read
  have wellFormed := (arranges_of_ofManifest planned).wellFormed admitted
  have untroubled := admitted.nameProblems_eq_nil
  refine ⟨binds_of_ofManifest planned wellFormed, fun m' shuffled => ?_⟩
  have plannable : m'.Plannable := by
    refine shuffled.plannable (Manifest.misfits_eq_nil_iff.mp ?_)
    rw [← problems_ofManifest, planned]
    rfl
  obtain ⟨p', planned'⟩ : ∃ p', ofManifest m' = .ok p' := by
    rw [← Checked.problems_eq_nil_iff, problems_ofManifest]
    exact Manifest.misfits_eq_nil_iff.mpr plannable
  refine ⟨?_, p', planned', ?_⟩
  · rw [Manifest.check, Checked.ofProblems_eq_ok]
    exact shuffled.nameProblems_eq_nil untroubled
  · exact map_passed_of_shuffles planned planned' shuffled
      (Manifest.nameProblems_eq_nil_iff.mp untroubled).2.1

/-- Variables in the opposite order have the same arguments. -/
theorem binds_and_shuffles_sampleManifest :
    ∃ m p p', Manifest.read sampleManifest = .ok m ∧ ofManifest m = .ok p ∧ p.kernels ≠ [] ∧
      p.Binds m ∧
      ofManifest
        { m with kernels := m.kernels.map fun k => { k with vars := k.vars.reverse } } = .ok p' ∧
      p'.kernels.map (fun k => k.arguments.map (·.passed)) =
        p.kernels.map fun k => k.arguments.map (·.passed) := by
  obtain ⟨m, p, read, planned, kernels⟩ := sampleManifest_planned
  obtain ⟨binds, shuffles⟩ := binds_and_shuffles read planned
  have shuffled : m.Shuffles
      { m with kernels := m.kernels.map fun k => { k with vars := k.vars.reverse } } :=
    { settings := rfl
      kernels := by
        rw [List.forall₂_map_right_iff, List.forall₂_same]
        exact fun k _ => ⟨rfl, rfl, rfl, (List.reverse_perm k.vars).map _⟩ }
  obtain ⟨-, p', planned', same⟩ := shuffles _ shuffled
  exact ⟨m, p, p', read, planned, kernels, binds, planned', same⟩

end Plan
end KernelHost
