import KernelHost.Proofs.Plan.Checks
import KernelHost.Proofs.Schedule.Wiring
import KernelHost.Proofs.Scope.Sites

/-!
# Sound sections

Every section of `main` behind the declarations is sound: what it uses is declared, and stands at
its place as the shape of its variable asks for.
-/

namespace KernelHost.Host

open Code (Call Callee Each Expr Stmt Var)

variable {p : Plan}

attribute [local simp] Callee.site?

/-! ## Set-up -/

/-- What belongs to a buffer suits a transfer. -/
theorem handed_of_buffer (wellFormed : p.WellFormed) {b : Buffer} (mem : b ∈ p.buffers) :
    Handed p (some .transfer) b.hostAddress := by
  obtain ⟨v, v_mem, made⟩ := exists_of_mem_buffers wellFormed mem
  obtain ⟨_, _, _, -, -, rfl⟩ := Placed.buffer?_eq_some_iff.mp made
  cases array : v.layout.storage.isArray with
  | true => simpa [Buffer.hostAddress, array] using suits_host v_mem (by rw [array]; rfl)
  | false => simpa [Buffer.hostAddress, array] using suits_host v_mem (by rw [array]; rfl)

/-- What is bound as an argument suits its binding. -/
theorem handed_of_argument (wellFormed : p.WellFormed) {k : PlannedKernel} (k_mem : k ∈ p.kernels)
    {a : Argument} (mem : a ∈ k.arguments) :
    Handed p (some .binding) a.binding.address := by
  have link : (k.kernel.ident, a) ∈ links p :=
    List.mem_flatMap.mpr ⟨k, k_mem, List.mem_map_of_mem mem⟩
  cases binding : a.binding with
  | value host type =>
      obtain ⟨v, v_mem, rfl, single⟩ := link_value wellFormed link binding
      have array : v.layout.storage.isArray = false := by
        simpa [extentOf] using congrArg Extent.count single
      simpa [Binding.address] using suits_host v_mem (by rw [array]; rfl)
  | handle host =>
      obtain ⟨b, b_mem, rfl, -⟩ := link_handle wellFormed link binding
      rw [Binding.address, handed_node.2.2.2.2.1]
      exact (known_of_buffer wellFormed b_mem).1
  | scratch count type => simp [Binding.address]

theorem sound_bindArgument (wellFormed : p.WellFormed) {k : PlannedKernel}
    (k_mem : k ∈ p.kernels) {a : Argument} (mem : a ∈ k.arguments) :
    Each (Sound p) (bindArgument k.kernel.ident a) := by
  have address : Handed p (some .binding) a.binding.address :=
    handed_of_argument wellFormed k_mem mem
  have kernel := (known_of_kernel k_mem).2.1
  have size (site? : Option Site) : Handed p site? a.binding.size := by
    cases a.binding <;> simp [Binding.size]
  simp [bindArgument, Prescribed, size, address, kernel]

theorem sound_createBuffer (wellFormed : p.WellFormed) {b : Buffer} (mem : b ∈ p.buffers) :
    Each (Sound p) (createBuffer b) := by
  have handle : Known p (.buffer b.host) := (known_of_buffer wellFormed mem).1
  have address : Handed p (some .transfer) b.hostAddress :=
    handed_of_buffer wellFormed mem
  have flags (site? : Option Site) : Handed p site? b.access.flags := by
    cases b.access <;> simp [BufferAccess.flags]
  rw [createBuffer]
  split <;> simp [Prescribed, flags, Buffer.size, Buffer.handle, statusAddress, handle, address]

theorem sound_setup (wellFormed : p.WellFormed) : Each (Sound p) (setup p) := by
  have queue : ∀ k ∈ p.kernels, Each (Sound p) (queuePhase p k.kernel) := by
    intro k mem
    have known := (known_of_kernel mem).1
    cases api : p.settings.api <;>
      simp [queuePhase, createQueue, api, chosenDevice, statusAddress, Prescribed, known]
  have kernel : ∀ k ∈ p.kernels, Each (Sound p) (kernelPhase k.kernel) := by
    intro k mem
    have known := (known_of_kernel mem).2.1
    simp [kernelPhase, statusAddress, Prescribed, known]
  have program : Each (Sound p) (programPhase p) := by
    rw [programPhase, createProgram]
    split <;> simp [Prescribed, chosenDevice, statusAddress]
  have buffers : ∀ b ∈ p.buffers, Each (Sound p) (createBuffer b) :=
    fun b mem => sound_createBuffer wellFormed mem
  have arguments : ∀ k ∈ p.kernels, Each (Sound p) (argumentPhase k) := by
    intro k k_mem
    have bound : ∀ a ∈ k.arguments, Each (Sound p) (bindArgument k.kernel.ident a) :=
      fun a mem => sound_bindArgument wellFormed k_mem mem
    simpa [argumentPhase] using fun _ => bound
  simpa [setup, platformPhase, devicePhase, contextPhase, openPhase, readPhase, buildPhase,
    bufferPhase, allocateList, demandIndex, demand, chosenDevice, chosenPlatform, statusAddress,
    Prescribed, program] using ⟨queue, kernel, fun _ => buffers, arguments⟩

/-! ### Variables of the manifest -/

theorem suits_of_mem_heap {v : Var} (mem : v ∈ heap p) : Suits p (some .allocation) v .itself := by
  obtain ⟨w, w_mem, of⟩ := List.mem_flatMap.mp mem
  rw [heapOf, List.mem_append] at of
  rcases of with of | of
  · split at of
    · rename_i onHeap
      obtain rfl := List.mem_singleton.mp of
      simp only [Layout.onHeap, Bool.and_eq_true] at onHeap
      exact suits_host w_mem (by simp [onHeap.1.2, Site.stand?])
    · simp at of
  · split at of
    · rename_i onHeap
      obtain rfl := List.mem_singleton.mp of
      simp only [Layout.referenceOnHeap, Bool.and_eq_true] at onHeap
      obtain ⟨contents, reference, -⟩ := Option.any_eq_true _ _ |>.mp onHeap.2
      exact suits_reference w_mem (by simp [reference]) (by simp [onHeap.1, Site.stand?])
    · simp at of

/-- Elements are counted from one on, so an array is what has several of them. -/
theorem one_lt_count_iff (wellFormed : p.WellFormed) {w : Placed} (mem : w ∈ p.hostPlaced) :
    1 < w.layout.storage.count ↔ w.layout.storage.isArray := by
  obtain ⟨-, -, -, onHost⟩ := Plan.mem_hostPlaced.mp mem
  rw [wellFormed.isArray_iff mem, (wellFormed.fits mem).storage, if_pos onHost,
    Storage.count_ofCount]

theorem sound_fill (wellFormed : p.WellFormed) {w : Placed} (mem : w ∈ p.hostPlaced) {v : Var}
    (suits : ∀ stand, Site.transfer.stand? w.layout.storage.isArray = some stand →
      Suits p (some .transfer) v stand) (contents : Contents) :
    Each (Sound p) (fill w v contents) := by
  have several := one_lt_count_iff wellFormed mem
  cases contents with
  | literal text => simp [fill]
  | outside => simp [fill]
  | generator name =>
      cases array : w.layout.storage.isArray with
      | true =>
          have whole := suits .itself (by rw [array]; rfl)
          rw [array] at several
          simpa [fill, several, Prescribed] using whole
      | false =>
          have single := suits .address (by rw [array]; rfl)
          rw [array] at several
          simpa [fill, several, Prescribed] using single

theorem sound_preparation (wellFormed : p.WellFormed) :
    Each (Sound p) (allocationPhase p ++ fillPhase p) := by
  have allocated : ∀ v ∈ heap p, Suits p (some .allocation) v .itself :=
    fun v mem => suits_of_mem_heap mem
  have filled : ∀ w ∈ p.hostPlaced, Each (Sound p) (fills w) := by
    intro w mem
    refine Each.append_iff.mpr ⟨?_, ?_⟩
    · exact sound_fill wellFormed mem (fun stand stands => suits_host mem stands) _
    · cases reference : w.layout.reference with
      | none => simp
      | some contents =>
          have copied : w.layout.reference.isSome := by simp [reference]
          exact sound_fill wellFormed mem
            (fun stand stands => suits_reference mem copied stands) _
  simpa [allocationPhase, fillPhase, demand, List.eq_nil_iff_forall_not_mem] using
    ⟨fun _ _ => allocated, fun _ _ _ _ => filled⟩

/-- What hooks are handed are the variables of the host and their reference copies. -/
theorem param_cases (wellFormed : p.WellFormed) {q : HookParam} (mem : q ∈ p.signature.params) :
    ∃ w ∈ p.hostPlaced, q.count = w.layout.storage.count ∧
      (q.var = .host w.decl.name ∨ w.layout.reference.isSome ∧ q.var = .reference w.decl.name) := by
  rw [wellFormed.signature, Signature.ofPlaced, List.mem_flatMap] at mem
  obtain ⟨w, w_mem, of⟩ := mem
  obtain ⟨k, k_mem, placed⟩ := List.mem_flatMap.mp w_mem
  have role := (wellFormed.stands k k_mem w placed).layout.role
  rw [Signature.paramsOf] at of
  split at of
  · simp at of
  · rename_i known
    have onHost : w.decl.onHost := by
      simpa [Variable.onHost, role] using known
    refine ⟨w, Plan.mem_hostPlaced.mpr ⟨k, k_mem, placed, onHost⟩, ?_⟩
    rcases List.mem_cons.mp of with rfl | of
    · exact ⟨rfl, .inl rfl⟩
    · split at of
      · rename_i copied
        obtain rfl := List.mem_singleton.mp of
        exact ⟨rfl, .inr ⟨copied, rfl⟩⟩
      · simp at of

theorem template_of_perPass {hook : Hook} (enabled : p.settings.hooks.enabled hook)
    (perPass : hook.perPass) : p.template = .loop := by
  cases hook <;> simp_all [Hook.perPass, Hooks.enabled, Plan.template, Settings.template]

theorem handed_arguments (wellFormed : p.WellFormed) {perPass : Bool}
    (loop : perPass → p.template = .loop) :
    ∀ e ∈ p.signature.arguments perPass, Handed p (some .hook) e := by
  intro e mem
  rw [Signature.arguments, List.mem_append, List.mem_flatMap] at mem
  rcases mem with ⟨q, q_mem, of⟩ | of
  · obtain ⟨w, w_mem, -, var⟩ := param_cases wellFormed q_mem
    rcases List.mem_cons.mp of with rfl | of
    · rcases var with var | ⟨copied, var⟩
      · simpa [var] using suits_host w_mem rfl
      · simpa [var] using suits_reference w_mem copied rfl
    · split at of
      · obtain rfl := List.mem_singleton.mp of
        simp
      · simp at of
  · split at of
    · rename_i inLoop
      obtain rfl := List.mem_singleton.mp of
      simpa using loop inLoop
    · simp at of

theorem sound_hookCall (wellFormed : p.WellFormed) (hook : Hook) :
    Each (Sound p) (hookCall p hook) := by
  rw [hookCall]
  split
  · rename_i enabled
    have handed := handed_arguments wellFormed (template_of_perPass enabled)
    simpa [Prescribed] using handed
  · simp

/-! ## Run -/

theorem sound_transfer (wellFormed : p.WellFormed) {callee : Callee}
    (moves : callee = .clEnqueueWriteBuffer ∨ callee = .clEnqueueReadBuffer) {b : Buffer}
    (mem : b ∈ p.buffers) : Each (Sound p) (transfer callee b) := by
  have address := handed_of_buffer wellFormed mem
  obtain ⟨handle, queue, -⟩ := known_of_buffer wellFormed mem
  rw [Buffer.handle] at handle
  rcases moves with rfl | rfl <;>
    simpa [transfer, Prescribed, Buffer.size, Buffer.handle, handle, queue]
      using address

theorem sound_launch {k : PlannedKernel} (k_mem : k ∈ p.kernels) {l : Launch}
    (l_mem : l ∈ p.schedule.launches) : Each (Sound p) (launch p k.kernel l) := by
  obtain ⟨queue, kernel, workDim, globalSize⟩ := known_of_kernel k_mem
  have sizes (site? : Option Site) : Handed p site? (sizesOf k.kernel) := by
    unfold sizesOf
    split
    · rename_i given
      simpa using known_ofKernel.2.2.2.2.mpr ⟨k, k_mem, given, rfl⟩
    · simp
  have wait (site? : Option Site) : ∀ e ∈ waitOf p l, Handed p site? e := by
    unfold waitOf
    cases waits : l.wait with
    | none => simp
    | some tier => simpa using Schedule.lt_boundaries_of_wait l_mem waits
  have signal (site? : Option Site) : Handed p site? (signalOf l) := by
    unfold signalOf
    cases signals : l.signal with
    | none => simp
    | some place => simpa using (Schedule.lt_listLength_of_signal l_mem signals).1
  rw [launch_eq, sound_callForStatus]
  refine ⟨?_, k, k_mem, l, l_mem, some k.kernel.name, rfl⟩
  simpa [or_imp, forall_and, queue, kernel, workDim, globalSize, sizes, signal] using wait _

theorem sound_releaseList {tier : Nat} (inside : tier < p.schedule.boundaries) :
    ∀ t ∈ (releaseList p tier).within, Sound p t := by
  simp [releaseList, Prescribed, inside]

theorem sound_pass (wellFormed : p.WellFormed) (perPass : Bool) :
    Each (Sound p) (pass p perPass) := by
  have rebound : Each (Sound p) (rebinds p) := by
    refine Each.flatMap_iff.mpr fun k k_mem => Each.flatMap_iff.mpr fun a mem => ?_
    exact sound_bindArgument wellFormed k_mem (List.mem_filter.mp mem).1
  have uploaded : Each (Sound p) (uploads p) :=
    Each.flatMap_iff.mpr fun b mem =>
      sound_transfer wellFormed (.inl rfl) (List.mem_filter.mp mem).1
  have downloaded : Each (Sound p) (downloads p) :=
    Each.flatMap_iff.mpr fun b mem =>
      sound_transfer wellFormed (.inr rfl) (List.mem_filter.mp mem).1
  have launched : Each (Sound p) (launches p) := by
    refine Each.flatMap_iff.mpr fun l l_mem => ?_
    cases found : p.kernels[l.kernel]? with
    | none => simp
    | some k => exact sound_launch (List.mem_of_getElem? found) l_mem
  have finished : ∀ k ∈ p.kernels, Known p (.queue k.kernel.ident) :=
    fun k mem => (known_of_kernel mem).1
  have released : ∀ tier < p.schedule.boundaries, ∀ t ∈ (releaseList p tier).within, Sound p t :=
    fun tier inside => sound_releaseList inside
  simpa [pass, uploadPhase, launchPhase, downloadPhase, eventPhase, readClock, elapsed, Prescribed,
    rebound, uploaded, downloaded, launched] using ⟨finished, fun _ => released⟩

theorem sound_run (wellFormed : p.WellFormed) : Each (Sound p) (run p) := by
  rw [run]
  split
  · exact sound_pass wellFormed false
  · rename_i loop
    have body := sound_pass wellFormed true
    have before := sound_hookCall wellFormed .loopPreamble
    have behind := sound_hookCall wellFormed .loopPostamble
    simp [loop, body, before, behind]

/-! ## Verdict -/

theorem sound_nest {loops : List (Var × Nat)} {ss : List Stmt}
    (indices : ∀ l ∈ loops, Suits p none l.1 .itself) (body : Each (Sound p) ss) :
    Each (Sound p) (nest loops ss) := by
  induction loops with
  | nil => exact body
  | cons l loops ih =>
      have inner := ih fun m mem => indices m (List.mem_cons_of_mem _ mem)
      rw [nest] at inner
      simpa [nest, indices l List.mem_cons_self] using inner

/-- The value that is compared stands as the shape of its variable asks for. -/
theorem handed_access {w : Placed} {c : Check} (compared : w.ComparedBy c) {base : Var}
    (suits : ∀ stand, Site.comparison.stand? w.layout.storage.isArray = some stand →
      Suits p (some .comparison) base stand) :
    Handed p (some .comparison) (c.access base) := by
  have elements := compared.elements
  cases array : w.layout.storage.isArray with
  | true =>
      have element := suits .element (by rw [array]; rfl)
      rw [array, if_pos rfl] at elements
      cases lanes : c.lanes <;>
        simp [Check.access, Check.elementIndex?, Check.laneIndex?, elements, lanes, element]
  | false =>
      have itself := suits .itself (by rw [array]; rfl)
      rw [array, if_neg Bool.false_ne_true] at elements
      cases lanes : c.lanes <;>
        simp [Check.access, Check.elementIndex?, Check.laneIndex?, elements, lanes, itself]

theorem sound_compareOutput {w : Placed} (mem : w ∈ p.hostPlaced) {c : Check}
    (compared : w.ComparedBy c) : Each (Sound p) (compareOutput c) := by
  have expected : Handed p (some .comparison) c.expected := by
    rw [Check.expected, compared.output]
    exact handed_access compared fun stand stands =>
      suits_reference mem compared.copied stands
  have actual : Handed p (some .comparison) c.actual := by
    rw [Check.actual, compared.output]
    exact handed_access compared fun stand stands => suits_host mem stands
  have test : Handed p (some .comparison) c.test := by
    rw [Check.test, compared.comparison]
    cases tolerance : w.decl.tolerance with
    | none => simpa [Comparison.condition] using ⟨expected, actual⟩
    | some t =>
        have known : Known p (.tolerance w.decl.name) :=
          known_ofVariable.2.2.1.mpr ⟨w, mem, compared.copied, by simp [tolerance], rfl⟩
        simpa [Comparison.condition] using ⟨expected, actual, known⟩
  have indices : ∀ l ∈ c.loops, ∀ site? stand, Suits p site? l.1 stand := by
    cases elements : c.elements <;> cases lanes : c.lanes <;>
      simp [Check.loops, elements, lanes]
  refine sound_nest (fun l mem => indices l mem none .itself) ?_
  have args : ∀ e ∈ c.locationArgs.map Expr.var ++ [c.expected, c.actual],
      Handed p (some .comparison) e := by
    intro e mem
    simp only [Check.locationArgs, List.map_map, List.mem_append, List.mem_map, List.mem_cons,
      List.not_mem_nil, or_false] at mem
    obtain ⟨l, l_mem, rfl⟩ | rfl | rfl := mem
    · simpa using indices l l_mem (some .comparison) .itself
    · exact expected
    · exact actual
  simpa [reportMismatch, test, Prescribed] using args

theorem sound_verdict (wellFormed : p.WellFormed) {m : Manifest} (arranged : p.Arranges m) :
    Each (Sound p) (verdict p) := by
  have hook := sound_hookCall wellFormed .postamble
  have compared : ∀ c ∈ p.checks, Each (Sound p) (compareOutput c) := by
    intro c mem
    obtain ⟨w, w_mem, compared⟩ := arranged.exists_of_mem_checks mem
    exact sound_compareOutput w_mem compared
  simpa [verdict, hook, profilingReport, validation, announce, succeed, Prescribed] using
    fun _ => compared

/-! ## Clean-up -/

theorem sound_cleanup (wellFormed : p.WellFormed) : Each (Sound p) (cleanup p) := by
  have events : ∀ tier < p.schedule.boundaries, ∀ t ∈ (releaseList p tier).within, Sound p t :=
    fun tier inside => sound_releaseList inside
  have group {title : String} {releases : List Stmt} :
      Each (Sound p) (releaseGroup title releases) ↔ Each (Sound p) releases := by
    rw [releaseGroup]
    split <;> simp_all
  have buffers : ∀ b ∈ p.buffers, Known p b.handle :=
    fun b mem => (known_of_buffer wellFormed mem).1
  have kernels : ∀ k ∈ p.kernels, _ := fun k mem => known_of_kernel mem
  have allocated : ∀ v ∈ heap p, Suits p (some .allocation) v .itself :=
    fun v mem => suits_of_mem_heap mem
  have hook := sound_hookCall wellFormed .cleanup
  simpa [cleanup, group, hook, release, Prescribed, -List.map_reverse] using
    ⟨events, buffers, fun k mem => (kernels k mem).2.1, fun k mem => (kernels k mem).1, allocated⟩

end KernelHost.Host
