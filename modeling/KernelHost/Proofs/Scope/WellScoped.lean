import KernelHost.Proofs.Scope.Sections
import KernelHost.Proofs.Scope.Subscripts

/-!
# Scope and shape

The host program of every plan is well scoped, and the shapes of its variables are respected: what
is used is declared in front of it, and every variable of the manifest is handed over, subscripted
and counted as it was declared.
-/

namespace KernelHost

open Code (Call Callee Each Expr Stand Stmt Var gather)

/-- Whether a variable is one of the manifest or a reference copy. -/
def Code.Var.ofManifest : Var → Bool
  | .host _ | .reference _ => true
  | _ => false

namespace Host

variable {p : Plan}

/-- What a launch is called on agrees with the declarations: it is handed the local sizes of its
kernel if they are declared, it waits for as many events as its list is declared with, and it
completes a slot of a list. -/
def LaunchFits (p : Plan) (args : List Expr) : Prop :=
  ∃ ident localSizes count list signal,
    args = [.var (.queue ident), .var (.kernel ident), .var (.workDim ident), .null,
      .var (.globalSize ident), localSizes, count, list, signal] ∧
    (Known p (.localSize ident) ∧ localSizes = .var (.localSize ident) ∨
      ¬ Known p (.localSize ident) ∧ localSizes = .null) ∧
    (count = .number 0 ∧ list = .null ∨
      ∃ tier n, count = .number n ∧ list = .var (.tierDone tier) ∧
        HasExtent p (.tierDone tier) ⟨"cl_event", some n⟩) ∧
    (signal = .null ∨
      ∃ tier slot, signal = .address (.index (.var (.tierDone tier)) (.number slot)))

/-- Every use of a variable in `main` agrees with its declaration. -/
structure WellScoped (p : Plan) : Prop where
  /-- What is used is declared in front, by a statement outside all blocks. -/
  declared : ∀ front s back, Stmt.allWithin (body p) = front ++ s :: back → ∀ v ∈ s.uses,
    ∃ d ∈ front, d ∈ body p ∧ v ∈ d.declares
  /-- A variable of the manifest that is declared is declared with one shape. -/
  extents : ∀ v : Var, v.ofManifest → Known p v → ∃! extent, HasExtent p v extent
  /-- It is handed over where and as its shape asks for. -/
  stands : ∀ s ∈ Stmt.allWithin (body p), ∀ e ∈ s.operands, ∀ x ∈ e.stands, x.1.ofManifest →
    ∃ site, s.site? = some site ∧
      ∀ extent, HasExtent p x.1 extent → site.stand? extent.count.isSome = some x.2
  /-- Hooks are handed the number of its elements behind it, if it is an array. -/
  counted : ∀ call ∈ gather Stmt.made (body p), ∀ hook, call.callee = .hook hook →
    ∀ front v back, call.args = front ++ .var v :: back → v.ofManifest →
      ∀ extent, HasExtent p v extent → ∀ n, extent.count = some n ↔ back.head? = some (.number n)
  /-- Launches are called on what is declared for their kernels and tiers. -/
  launched : ∀ call ∈ gather Stmt.made (body p), call.callee = .clEnqueueNDRangeKernel →
    LaunchFits p call.args
  /-- Subscripts are below the declared lengths. -/
  confined : BlockConfined p [] (body p)
  /-- The condition of the loop occurs in the loop template only. -/
  loopFlag : ∀ s ∈ Stmt.allWithin (body p), .loopFlag ∈ s.declares ++ s.uses →
    p.template = .loop
  /-- The clock occurs only where time is measured. -/
  clock : ∀ s ∈ Stmt.allWithin (body p), ∀ v ∈ [Var.timeBefore, .timeAfter, .execTime],
    v ∈ s.declares ++ s.uses → p.settings.profiling

/-! ## All statements of the program -/

theorem Opens.sound {s : Stmt} (opens : Opens s) : Sound p s := by
  have uses := opens.uses
  simp only [Stmt.uses, List.append_eq_nil_iff, List.map_eq_nil_iff,
    List.flatMap_eq_nil_iff] at uses
  refine ⟨fun e mem => ⟨?_, fun name named => ?_⟩, by simp [uses.2], fun call mem => ?_⟩
  · simp [uses.1 e mem]
  · exact opens.constants name (List.mem_flatMap.mpr ⟨e, mem, named⟩)
  · simp [Prescribed, opens.made call mem]

theorem sound_body (wellFormed : p.WellFormed) {m : Manifest} (arranged : p.Arranges m) :
    Each (Sound p) (body p) := by
  have opened : Each (Sound p) (opening p) := fun s mem => (opens_opening p s mem).sound
  have prepared := sound_preparation wellFormed
  rw [Each.append_iff] at prepared
  simp [body_eq, behindOpening, opened, prepared, sound_hookCall wellFormed,
    sound_setup wellFormed, sound_run wellFormed, sound_verdict wellFormed arranged,
    sound_cleanup wellFormed]

theorem Suits.known {site? : Option Site} {v : Var} {stand : Stand}
    (suits : Suits p site? v stand) : Known p v := by
  cases v with
  | host name =>
      obtain ⟨w, mem, rfl, -⟩ := suits
      exact known_ofVariable.1.mpr ⟨w, mem, rfl⟩
  | reference name =>
      obtain ⟨w, mem, copied, rfl, -⟩ := suits
      exact known_ofVariable.2.1.mpr ⟨w, mem, copied, rfl⟩
  | _ => exact suits

theorem Sound.known {s : Stmt} (sound : Sound p s) {v : Var} (used : v ∈ s.uses) : Known p v := by
  rcases List.mem_append.mp used with used | read
  · obtain ⟨x, mem, rfl⟩ := List.mem_map.mp used
    obtain ⟨e, e_mem, x_mem⟩ := List.mem_flatMap.mp mem
    exact ((sound.handed e e_mem).1 x x_mem).known
  · exact sound.reads v read

theorem known_of_declares {s : Stmt} (mem : s ∈ Stmt.allWithin (body p)) {v : Var}
    (declares : v ∈ s.declares) : Known p v :=
  List.mem_flatMap.mpr ⟨s, mem, declares⟩

/-! ## Shapes -/

/-- What suits a site stands there as the shape that it was declared with asks for. -/
theorem Suits.stand {site? : Option Site} {v : Var} {stand : Stand}
    (wellFormed : p.WellFormed) (suits : Suits p site? v stand) (manifest : v.ofManifest) :
    ∃ site, site? = some site ∧
      ∀ extent, HasExtent p v extent → site.stand? extent.count.isSome = some stand := by
  have shape (w : Placed) : (extentOf w).count.isSome = w.layout.storage.isArray := by
    cases array : w.layout.storage.isArray <;> simp [extentOf, array]
  cases v with
  | host name =>
      obtain ⟨w, mem, rfl, asks⟩ := suits
      obtain ⟨site, rfl, stands⟩ := Option.bind_eq_some_iff.mp asks
      refine ⟨site, rfl, fun extent has => ?_⟩
      rw [extent_eq_of_hasExtent wellFormed mem (.inl has), shape, stands]
  | reference name =>
      obtain ⟨w, mem, -, rfl, asks⟩ := suits
      obtain ⟨site, rfl, stands⟩ := Option.bind_eq_some_iff.mp asks
      refine ⟨site, rfl, fun extent has => ?_⟩
      rw [extent_eq_of_hasExtent wellFormed mem (.inr has), shape, stands]
  | _ => simp [Var.ofManifest] at manifest

theorem existsUnique_extent (wellFormed : p.WellFormed) {v : Var} (manifest : v.ofManifest)
    (known : Known p v) : ∃! extent, HasExtent p v extent := by
  cases v with
  | host name =>
      obtain ⟨w, mem, rfl⟩ := known_ofVariable.1.mp known
      exact ⟨extentOf w, hasExtent_host.mpr ⟨w, mem, rfl, rfl⟩,
        fun e has => extent_eq_of_hasExtent wellFormed mem (.inl has)⟩
  | reference name =>
      obtain ⟨w, mem, copied, rfl⟩ := known_ofVariable.2.1.mp known
      exact ⟨extentOf w, hasExtent_reference.mpr ⟨w, mem, copied, rfl, rfl⟩,
        fun e has => extent_eq_of_hasExtent wellFormed mem (.inr has)⟩
  | _ => simp [Var.ofManifest] at manifest

/-! ## Calls -/

/-- The local sizes of a kernel are declared if they are given. -/
theorem known_localSize_iff (wellFormed : p.WellFormed) {k : PlannedKernel} (mem : k ∈ p.kernels) :
    Known p (.localSize k.kernel.ident) ↔ k.kernel.range.localSizes.isSome := by
  rw [known_ofKernel.2.2.2.2]
  constructor
  · rintro ⟨k', k'_mem, given, ident⟩
    rwa [← List.inj_on_of_nodup_map wellFormed.idents_nodup k'_mem mem ident]
  · exact fun given => ⟨k, mem, given, rfl⟩

theorem launchFits_of_prescribed (wellFormed : p.WellFormed) {call : Call}
    (launches : call.callee = .clEnqueueNDRangeKernel) (prescribed : Prescribed p call) :
    LaunchFits p call.args := by
  simp only [Prescribed, launches] at prescribed
  obtain ⟨k, k_mem, l, l_mem, object, eq⟩ := prescribed
  rw [launch_eq] at eq
  obtain ⟨stored, -⟩ := List.cons.inj eq
  obtain rfl := (Stmt.store.inj stored).2
  have sizes := known_localSize_iff wellFormed k_mem
  have localSizes :
      Known p (.localSize k.kernel.ident) ∧ sizesOf k.kernel = .var (.localSize k.kernel.ident) ∨
        ¬ Known p (.localSize k.kernel.ident) ∧ sizesOf k.kernel = .null := by
    by_cases given : k.kernel.range.localSizes.isSome
    · exact .inl ⟨sizes.mpr given, if_pos given⟩
    · exact .inr ⟨mt sizes.mp given, if_neg given⟩
  have signal : signalOf l = .null ∨
      ∃ tier slot, signalOf l = .address (.index (.var (.tierDone tier)) (.number slot)) := by
    unfold signalOf
    cases l.signal with
    | none => exact .inl rfl
    | some place => exact .inr ⟨place.1, place.2, rfl⟩
  cases waits : l.wait with
  | none =>
      exact ⟨k.kernel.ident, _, _, _, _, by simp [waitOf, waits], localSizes, .inl ⟨rfl, rfl⟩,
        signal⟩
  | some tier =>
      have inside := Schedule.lt_boundaries_of_wait l_mem waits
      exact ⟨k.kernel.ident, _, _, _, _, by simp [waitOf, waits], localSizes,
        .inr ⟨tier, _, rfl, rfl, hasExtent_tierDone.mpr ⟨inside, rfl⟩⟩, signal⟩

section Counts

variable {tail : List Expr}

/-- A variable with the number of its elements, if it has several. -/
def withCount (q : HookParam) : List Expr :=
  .var q.var :: if q.counted then [.number q.count] else []

theorem head?_withCount_ne (params : List HookParam) (stop : ∀ n, .number n ∉ tail) (n : Nat) :
    (params.flatMap withCount ++ tail).head? ≠ some (.number n) := by
  cases params with
  | nil => exact fun head => stop n (List.mem_of_head? head)
  | cons q params => simp [withCount]

/-- In a list of variables with numbers of elements, what follows a variable tells whether it has
several. -/
theorem count_behind {params : List HookParam} {front back : List Expr} {v : Var}
    (split : params.flatMap withCount ++ tail = front ++ .var v :: back)
    (stop : ∀ n, .number n ∉ tail) (fresh : .var v ∉ tail) :
    ∃ q ∈ params, q.var = v ∧ ∀ n, back.head? = some (.number n) ↔ q.counted ∧ n = q.count := by
  induction params generalizing front with
  | nil =>
      simp only [List.flatMap_nil, List.nil_append] at split
      simp [split] at fresh
  | cons q params ih =>
      have later {front : List Expr}
          (split : params.flatMap withCount ++ tail = front ++ .var v :: back) :
          ∃ r ∈ q :: params, r.var = v ∧
            ∀ n, back.head? = some (.number n) ↔ r.counted ∧ n = r.count := by
        obtain ⟨r, mem, follows⟩ := ih split
        exact ⟨r, List.mem_cons_of_mem _ mem, follows⟩
      have next := head?_withCount_ne params stop
      rw [List.flatMap_cons, withCount, List.append_assoc, List.cons_append] at split
      cases front with
      | nil =>
          obtain ⟨var, rest⟩ := List.cons.inj split
          refine ⟨q, List.mem_cons_self, Expr.var.inj var, fun n => ?_⟩
          by_cases counted : q.counted
          · simp [← rest, counted, eq_comm]
          · simpa [← rest, counted] using next n
      | cons e front =>
          obtain ⟨-, rest⟩ := List.cons.inj split
          by_cases counted : q.counted
          · cases front with
            | nil => simp [counted] at rest
            | cons e front =>
                rw [if_pos counted] at rest
                exact later (List.cons.inj rest).2
          · rw [if_neg counted] at rest
            exact later rest

end Counts

/-- The number of elements follows a variable that hooks are handed if it is an array. -/
theorem count_follows (wellFormed : p.WellFormed) {perPass : Bool} {front back : List Expr}
    {v : Var} (split : p.signature.arguments perPass = front ++ .var v :: back)
    (manifest : v.ofManifest) {extent : Extent} (has : HasExtent p v extent) (n : Nat) :
    extent.count = some n ↔ back.head? = some (.number n) := by
  have fresh : .var v ∉ if perPass then [Expr.var .loopFlag] else [] := by
    cases v <;> simp_all [Var.ofManifest]
  have stop (n : Nat) : .number n ∉ if perPass then [Expr.var .loopFlag] else [] := by
    simp
  obtain ⟨q, q_mem, rfl, follows⟩ := count_behind split stop fresh
  obtain ⟨w, w_mem, count, var⟩ := param_cases wellFormed q_mem
  have extent_eq : extent = extentOf w := by
    refine extent_eq_of_hasExtent wellFormed w_mem ?_
    rcases var with var | ⟨-, var⟩
    · exact .inl (var ▸ has)
    · exact .inr (var ▸ has)
  have several := one_lt_count_iff wellFormed w_mem
  rw [follows, extent_eq, HookParam.counted, count, decide_eq_true_iff, several]
  cases array : w.layout.storage.isArray <;> simp [extentOf, array, eq_comm]

/-! ## The program -/

/-- The host program of every plan is well scoped. -/
theorem wellScoped (wellFormed : p.WellFormed) {m : Manifest} (arranged : p.Arranges m) :
    WellScoped p := by
  have sound := sound_body wellFormed arranged
  have occurs {s : Stmt} (mem : s ∈ Stmt.allWithin (body p)) {v : Var}
      (occurs : v ∈ s.declares ++ s.uses) : Known p v :=
    (List.mem_append.mp occurs).elim (known_of_declares mem) (sound s mem).known
  have prescribed {call : Call} (mem : call ∈ gather Stmt.made (body p)) : Prescribed p call := by
    obtain ⟨s, s_mem, made⟩ := List.mem_flatMap.mp mem
    exact (sound s s_mem).prescribed call made
  refine
    { declared := fun front s back split v used => ?_
      extents := fun v manifest known => existsUnique_extent wellFormed manifest known
      stands := fun s mem e e_mem x x_mem manifest =>
        (((sound s mem).handed e e_mem).1 x x_mem).stand wellFormed manifest
      counted := fun call mem hook hooked front v back split manifest extent has n => ?_
      launched := fun call mem launches =>
        launchFits_of_prescribed wellFormed launches (prescribed mem)
      confined := confined_body wellFormed arranged
      loopFlag := fun s mem flag => known_loopFlag.mp (occurs mem flag)
      clock := fun s mem v clock used => ?_ }
  · have mem : s ∈ Stmt.allWithin (body p) := by simp [split]
    exact declared_before split used ((sound s mem).known used)
  · have handed := prescribed mem
    simp only [Prescribed, hooked] at handed
    exact count_follows wellFormed (handed.symm.trans split) manifest has n
  · have known := occurs mem used
    simp only [List.mem_cons, List.not_mem_nil, or_false] at clock
    obtain rfl | rfl | rfl := clock
    · exact known_clock.1.mp known
    · exact known_clock.2.1.mp known
    · exact known_clock.2.2.mp known

/-- The host program of every manifest that is accepted and planned is well scoped. -/
theorem wellScoped_of_planned {source : String} {m : Manifest} {p : Plan}
    (read : Manifest.read source = .ok m) (planned : Plan.ofManifest m = .ok p) : WellScoped p := by
  have arranged := Plan.arranges_of_ofManifest planned
  exact wellScoped (arranged.wellFormed (Manifest.admitted_of_read read)) arranged

theorem wellScoped_of_planned_sampleManifest :
    ∃ m p, Manifest.read Plan.sampleManifest = .ok m ∧ Plan.ofManifest m = .ok p ∧
      p.kernels ≠ [] ∧ WellScoped p := by
  obtain ⟨m, p, read, planned, kernels⟩ := Plan.sampleManifest_planned
  exact ⟨m, p, read, planned, kernels, wellScoped_of_planned read planned⟩

end Host
end KernelHost
