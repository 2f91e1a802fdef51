import KernelHost.Proofs.CType.VectorNames
import KernelHost.Proofs.Code.Called
import KernelHost.Proofs.Plan.Checks
import KernelHost.Proofs.Schedule.Tiers
import KernelHost.Proofs.Scope.Extents

/-!
# Loops of the program

All counting loops of the program count with the two indices that are declared in front: those that
release the events of a tier, and those around comparisons.  The bounds of the first are numbers of
kernels, and those of the second numbers of elements, which may be too many for an index.
-/

namespace KernelHost

open Code (Stmt Var gather gather_append gather_cons)

/-- The index of a counting loop with its bound. -/
def Code.Stmt.counts : Stmt → List (Var × Nat)
  | .count index bound _ => [(index, bound)]
  | _ => []

namespace Host

variable {p : Plan}

attribute [local simp] Stmt.counts

/-- The loops that release the events of each tier. -/
def releaseLoops (p : Plan) : List (Var × Nat) :=
  (List.range p.schedule.boundaries).map fun tier => (.i, p.schedule.listLength tier)

/-! ## Sections -/

@[simp]
theorem counts_phase (title message : String) (perPass : Bool) (ss : List Stmt) :
    gather Stmt.counts (phase title perPass message ss) = gather Stmt.counts ss := by
  cases perPass <;> simp [phase, announce, succeed, gather_cons]

@[simp]
theorem counts_callForStatus (call : Code.Call) (object : Option String) :
    gather Stmt.counts (callForStatus call object) = [] := by
  simp [callForStatus, checkStatus, gather_cons]

@[simp]
theorem counts_callForResult (target : Var) (call : Code.Call) (object : Option String) :
    gather Stmt.counts (callForResult target call object) = [] := by
  simp [callForResult, checkStatus, gather_cons]

@[simp]
theorem counts_hookCall (p : Plan) (hook : Hook) : gather Stmt.counts (hookCall p hook) = [] := by
  rw [hookCall]
  split <;> simp [gather_cons]

@[simp]
theorem counts_releaseList (p : Plan) (tier : Nat) :
    (releaseList p tier).within.flatMap Stmt.counts = [(.i, p.schedule.listLength tier)] := by
  simp [releaseList, Stmt.within, Stmt.allWithin]

theorem counts_declarations (p : Plan) : gather Stmt.counts (declarations p) = [] := by
  simp [declarations, setupDeclarations, runDeclarations, rangeDeclarations, declareValue,
    declareBare, declarePointer, declareHandle, gather_cons]

theorem counts_hostVariables (p : Plan) : gather Stmt.counts (hostVariables p) = [] := by
  have storage (v : Placed) (var : Var) (contents : Contents) :
      (declareStorage v var contents).within.flatMap Stmt.counts = [] := by
    unfold declareStorage
    split <;> split_ifs <;> simp [declareValue, declareBare]
  have declared (v : Placed) : gather Stmt.counts (declareVariable p.template v) = [] := by
    cases reference : v.layout.reference <;>
      simp [declareVariable, reference, gather_cons, storage, declareHandle, declareValue]
  have filled (v : Placed) (var : Var) (contents : Contents) :
      gather Stmt.counts (fill v var contents) = [] := by
    cases contents <;> simp [fill, gather_cons]
  have fills (v : Placed) : gather Stmt.counts (fills v) = [] := by
    cases reference : v.layout.reference <;> simp [Host.fills, filled, reference]
  simp [hostVariables, allocationPhase, fillPhase, demand, gather_cons, declared, fills]

theorem counts_setup (p : Plan) : gather Stmt.counts (setup p) = [] := by
  simp [setup, platformPhase, devicePhase, contextPhase, queuePhase, openPhase, readPhase,
    programPhase, buildPhase, kernelPhase, bufferPhase, createBuffer, argumentPhase, bindArgument,
    allocateList, demandIndex, demand, gather_cons]

theorem counts_pass (p : Plan) (perPass : Bool) :
    gather Stmt.counts (pass p perPass) = releaseLoops p := by
  have launch (l : Launch) :
      gather Stmt.counts ((p.kernels[l.kernel]?).elim [] fun k => launch p k.kernel l) = [] := by
    cases p.kernels[l.kernel]? <;> simp [launch]
  have events : gather Stmt.counts (eventPhase p) = releaseLoops p := by
    rw [eventPhase]
    split_ifs with none
    · simp [releaseLoops, none]
    · simp [gather_cons, releaseLoops, List.map_eq_flatMap]
  simp [pass, uploadPhase, uploads, rebinds, launchPhase, launches, downloadPhase, downloads,
    transfer, bindArgument, readClock, gather_cons, launch, events, Code.flatMap_nothing]

theorem counts_run (p : Plan) : gather Stmt.counts (run p) = releaseLoops p := by
  rw [run]
  split
  · exact counts_pass p false
  · simp [gather_cons, Code.flatMap_within_repeatWhile, counts_pass]

/-- A nest of loops and what is counted inside. -/
theorem counts_nest (loops : List (Var × Nat)) (ss : List Stmt) :
    gather Stmt.counts (nest loops ss) = loops ++ gather Stmt.counts ss := by
  induction loops with
  | nil => rfl
  | cons loop loops ih =>
      have inner : gather Stmt.counts (nest (loop :: loops) ss) =
          loop :: gather Stmt.counts (nest loops ss) := by
        simp [nest, gather, Stmt.allWithin, Stmt.within]
      rw [inner, ih, List.cons_append]

theorem counts_verdict (p : Plan) :
    gather Stmt.counts (verdict p) = p.checks.flatMap (·.loops) := by
  have compared (c : Check) : gather Stmt.counts (compareOutput c) = c.loops := by
    rw [compareOutput, counts_nest]
    simp [gather_cons, Stmt.within, Stmt.allWithin, reportMismatch]
  have validated : gather Stmt.counts (validation p) = p.checks.flatMap (·.loops) := by
    rw [validation]
    split_ifs with none
    · simp [List.isEmpty_iff.mp none]
    · simp [gather_cons, Stmt.within, Stmt.allWithin, announce, succeed, compared]
  simp [verdict, profilingReport, gather_cons, validated]

theorem counts_cleanup (p : Plan) : gather Stmt.counts (cleanup p) = (releaseLoops p).reverse := by
  have group (title : String) (ss : List Stmt) :
      gather Stmt.counts (releaseGroup title ss) = gather Stmt.counts ss := by
    rw [releaseGroup]
    split_ifs with none
    · rw [List.isEmpty_iff.mp none]
    · simp [gather_cons]
  have reversed : (releaseLoops p).reverse =
      (List.range p.schedule.boundaries).reverse.flatMap fun tier =>
        [(.i, p.schedule.listLength tier)] := by
    rw [releaseLoops, ← List.map_reverse, List.map_eq_flatMap]
  simp [cleanup, group, reversed, release, gather_cons, Code.flatMap_nothing, -List.map_reverse]

/-- All loops of the program, in the order of the text. -/
theorem counts_body (p : Plan) : gather Stmt.counts (body p) =
    releaseLoops p ++ p.checks.flatMap (·.loops) ++ (releaseLoops p).reverse := by
  simp [body, counts_declarations, counts_hostVariables, counts_setup, counts_run, counts_verdict,
    counts_cleanup]

theorem mem_counts_body {loop : Var × Nat} :
    loop ∈ gather Stmt.counts (body p) ↔
      (∃ tier < p.schedule.boundaries, loop = (.i, p.schedule.listLength tier)) ∨
        ∃ c ∈ p.checks, loop ∈ c.loops := by
  simp only [counts_body, List.mem_append, List.mem_reverse, List.mem_flatMap, releaseLoops,
    List.mem_map, List.mem_range, eq_comm (b := loop)]
  rw [or_right_comm, or_self]

/-! ## Indices -/

/-- The indices of loops are declared as `int`. -/
theorem hasExtent_index : HasExtent p .i ⟨"int", none⟩ ∧ HasExtent p .j ⟨"int", none⟩ := by
  simp [hasExtent_iff, declarations, setupDeclarations, gather_cons, Stmt.extents, extent?]

theorem index_of_mem_counts {loop : Var × Nat} (mem : loop ∈ gather Stmt.counts (body p)) :
    loop.1 = .i ∨ loop.1 = .j := by
  rcases mem_counts_body.mp mem with ⟨tier, -, rfl⟩ | ⟨c, -, mem⟩
  · exact .inl rfl
  · simp only [Check.loops, List.mem_append, List.mem_map] at mem
    rcases mem with ⟨bound, -, rfl⟩ | ⟨bound, -, rfl⟩
    · exact .inl rfl
    · dsimp only
      split_ifs
      · exact .inr rfl
      · exact .inl rfl

end Host

/-! ## Bounds -/

theorem VectorType.Registered.lanes_le {v : VectorType} (registered : v.Registered) :
    v.lanes ≤ 16 := by
  have all : ∀ n ∈ laneCounts, n ≤ 16 := by decide
  exact all v.lanes registered.lanes

section Bounds

variable {limit : Nat} (wide : 16 ≤ limit)

include wide

/-- Vectors have few lanes, so only the elements of an output may be too many. -/
theorem Placed.ComparedBy.loops_le_iff {w : Placed} {c : Check} {copies : Nat}
    (compared : w.ComparedBy c) (fits : w.layout.Fits w.decl copies) :
    (∀ loop ∈ c.loops, loop.2 ≤ limit) ↔ w.decl.members * copies ≤ limit := by
  have onHost : w.decl.onHost := by simp [Variable.onHost, compared.role]
  have lanes : ∀ n ∈ c.lanes, n ≤ limit := by
    intro n mem
    rw [compared.lanes, fits.vector] at mem
    obtain ⟨v, named, rfl⟩ := Option.map_eq_some_iff.mp mem
    exact (VectorType.ofName?_eq_some_iff.mp named).1.lanes_le.trans wide
  have elements : (∀ n ∈ c.elements, n ≤ limit) ↔ w.decl.members * copies ≤ limit := by
    rw [compared.elements, fits.storage, if_pos onHost, Storage.isArray_ofCount,
      Storage.count_ofCount]
    by_cases one : w.decl.members * copies = 1
    · simp [one]
      omega
    · simp [one]
  rw [← elements]
  simp only [Check.loops, List.mem_append, List.mem_map, or_imp, forall_and]
  constructor
  · rintro ⟨outer, -⟩ n mem
    exact outer (.i, n) ⟨n, by simpa using mem, rfl⟩
  · intro few
    constructor
    · rintro _ ⟨n, mem, rfl⟩
      exact few n (by simpa using mem)
    · rintro _ ⟨n, mem, rfl⟩
      exact lanes n (by simpa using mem)

theorem Plan.Arranges.loops_le_iff {p : Plan} {m : Manifest} (arranged : p.Arranges m) :
    (∀ loop ∈ gather Stmt.counts (Host.body p), loop.2 ≤ limit) ↔
      (∀ v ∈ m.hostVariables, v.2.validated → v.2.members * m.settings.copies ≤ limit) ∧
        ∀ tier < p.schedule.boundaries, p.schedule.listLength tier ≤ limit := by
  have fits {w : Placed} (mem : w ∈ p.hostPlaced) : w.layout.Fits w.decl m.settings.copies := by
    obtain ⟨k, k_mem, w_mem, -⟩ := Plan.mem_hostPlaced.mp mem
    exact arranged.settings ▸ (arranged.stands k k_mem w w_mem).layout
  have checks : (∀ c ∈ p.checks, ∀ loop ∈ c.loops, loop.2 ≤ limit) ↔
      ∀ w ∈ p.hostPlaced, w.decl.validated → w.decl.members * m.settings.copies ≤ limit := by
    constructor
    · intro few w mem validated
      have made : w.check?.isSome := by
        have copied := (fits mem).reference
        rw [if_pos validated] at copied
        rw [Variable.validated, Bool.and_eq_true, beq_iff_eq] at validated
        exact Placed.isSome_check?_iff.mpr ⟨validated.1, by simp [copied]⟩
      obtain ⟨c, made⟩ := Option.isSome_iff_exists.mp made
      have c_mem : c ∈ p.checks := by
        rw [arranged.checks_eq]
        exact List.mem_filterMap.mpr ⟨w, mem, made⟩
      exact ((Placed.comparedBy_of_check? made).loops_le_iff wide (fits mem)).mp (few c c_mem)
    · intro few c c_mem
      obtain ⟨w, mem, compared⟩ := arranged.exists_of_mem_checks c_mem
      have validated : w.decl.validated := by
        have copied := compared.copied
        rw [(fits mem).reference] at copied
        split_ifs at copied with validated
        · exact validated
        · cases copied
      exact (compared.loops_le_iff wide (fits mem)).mpr (few w mem validated)
  have decls (Q : Variable → Prop) :
      (∀ w ∈ p.hostPlaced, Q w.decl) ↔ ∀ v ∈ m.hostVariables, Q v.2 := by
    have same := congrArg (fun vs => ∀ v ∈ vs, Q v) arranged.hostPlaced_decls
    simpa only [List.forall_mem_map] using Iff.of_eq same
  rw [← decls fun v => v.validated → v.members * m.settings.copies ≤ limit, ← checks]
  simp only [Host.mem_counts_body, or_imp, forall_and, forall_exists_index, and_imp]
  constructor
  · rintro ⟨tiers, others⟩
    exact ⟨fun c mem loop inside => others loop c mem inside,
      fun tier inside => tiers _ tier inside rfl⟩
  · rintro ⟨others, tiers⟩
    refine ⟨?_, fun loop c mem inside => others c mem loop inside⟩
    rintro _ tier inside rfl
    exact tiers tier inside

end Bounds

/-- The loops of a generated program count with indices of type `int`.  These do not overflow if no
validated output has too many elements, and no tier too many kernels. -/
theorem loops_of_generate {source : String} {g : Generated} (generated : generate source = .ok g) :
    ∃ m p, Manifest.read source = .ok m ∧ Plan.ofManifest m = .ok p ∧
      g.program = (Host.Program.ofPlan p).text ∧
      Host.HasExtent p .i ⟨"int", none⟩ ∧ Host.HasExtent p .j ⟨"int", none⟩ ∧
      (∀ loop ∈ gather Stmt.counts (Host.body p), loop.1 = .i ∨ loop.1 = .j) ∧
      (∀ tier, p.schedule.listLength tier ≤ m.kernels.length) ∧
      ((∀ loop ∈ gather Stmt.counts (Host.body p), loop.2 ≤ 2147483647) ↔
        (∀ v ∈ m.hostVariables, v.2.validated →
          v.2.members * m.settings.copies ≤ 2147483647) ∧
        ∀ tier < p.schedule.boundaries, p.schedule.listLength tier ≤ 2147483647) := by
  obtain ⟨m, p, read, planned, rfl⟩ := Plan.generate_eq_ok.mp generated
  have arranged := Plan.arranges_of_ofManifest planned
  exact ⟨m, p, read, planned, rfl, Host.hasExtent_index.1, Host.hasExtent_index.2,
    fun _ => Host.index_of_mem_counts, Schedule.listLength_le arranged.schedule,
    arranged.loops_le_iff (by decide)⟩

/-- A manifest with an output of so many elements. -/
def outputManifest (members : String) : String :=
  "<k program='p'><kernel name='f'>" ++
    "<output name='b' type='char' nmemb='" ++ members ++ "' arg='0'/>" ++
    "<ndrange><global>1</global></ndrange></kernel></k>"

set_option maxRecDepth 100000 in
theorem loops_of_generate_outputManifest :
    ∃ g m p, generate (outputManifest "2") = .ok g ∧ Manifest.read (outputManifest "2") = .ok m ∧
      Plan.ofManifest m = .ok p ∧ g.program = (Host.Program.ofPlan p).text ∧
      (.i, 2) ∈ gather Stmt.counts (Host.body p) ∧
      ∀ loop ∈ gather Stmt.counts (Host.body p),
        (loop.1 = .i ∨ loop.1 = .j) ∧ loop.2 ≤ 2147483647 := by
  obtain ⟨m, p, read, planned, holds⟩ := Plan.exists_planned (outputManifest "2")
    (fun m p => p.checks.any (fun c => c.loops.contains (.i, 2)) && p.schedule.boundaries == 0 &&
      m.hostVariables.all fun v => v.2.members * m.settings.copies ≤ 2147483647)
    (by decide +kernel)
  simp only [Bool.and_eq_true, beq_iff_eq, List.all_eq_true, decide_eq_true_eq,
    List.any_eq_true, List.contains_iff_mem] at holds
  obtain ⟨⟨counted, noTiers⟩, few⟩ := holds
  have generated := Plan.generate_eq_ok.mpr ⟨m, p, read, planned, rfl⟩
  obtain ⟨m', p', read', planned', program, -, -, indices, -, bounds⟩ :=
    loops_of_generate generated
  obtain rfl : m = m' := Except.ok.inj (read.symm.trans read')
  obtain rfl : p = p' := Except.ok.inj (planned.symm.trans planned')
  have bounded := bounds.mpr ⟨fun v mem _ => few v mem, fun tier inside => by omega⟩
  exact ⟨_, m, p, generated, read, planned, program, Host.mem_counts_body.mpr (.inr counted),
    fun loop mem => ⟨indices loop mem, bounded loop mem⟩⟩

set_option maxRecDepth 100000 in
/-- A manifest with more elements than an `int` can count is accepted, and a loop of the program
counts them with one. -/
theorem long_of_generate :
    ∃ g m p, generate (outputManifest "2147483648") = .ok g ∧
      Manifest.read (outputManifest "2147483648") = .ok m ∧ Plan.ofManifest m = .ok p ∧
      g.program = (Host.Program.ofPlan p).text ∧ Host.HasExtent p .i ⟨"int", none⟩ ∧
      (.i, 2147483648) ∈ gather Stmt.counts (Host.body p) := by
  obtain ⟨m, p, read, planned, holds⟩ := Plan.exists_planned (outputManifest "2147483648")
    (fun _ p => p.checks.any fun c => c.loops.contains (.i, 2147483648)) (by decide +kernel)
  simp only [List.any_eq_true, List.contains_iff_mem] at holds
  have generated := Plan.generate_eq_ok.mpr ⟨m, p, read, planned, rfl⟩
  exact ⟨_, m, p, generated, read, planned, rfl, Host.hasExtent_index.1,
    Host.mem_counts_body.mpr (.inr holds)⟩

end KernelHost
