import KernelHost.Proofs.Code.Views
import KernelHost.Proofs.Plan.Shape

/-!
# What `main` calls from outside

Hooks and generators come from outside.  Generators are called in one section only, where variables
and reference copies are filled; every one that is called is the generator of a variable of the
host.  Hooks are called around the sections and in the loop, and all other calls are those of the
runtime, the C library and the program's own macros.
-/

namespace KernelHost

namespace Code

/-- Whether a function comes neither with the program nor with a library. -/
def Callee.isOutside : Callee → Bool
  | .hook _ | .generator _ => true
  | _ => false

@[simp]
theorem Callee.isOutside_hook (hook : Hook) : (Callee.hook hook).isOutside = true := rfl

@[simp]
theorem Callee.isOutside_generator (name : String) :
    (Callee.generator name).isOutside = true := rfl

@[simp]
theorem Callee.isOutside_eq_false {c : Callee} (hook : ∀ h, c ≠ .hook h)
    (generator : ∀ name, c ≠ .generator name) : c.isOutside = false := by
  cases c with
  | hook h => exact absurd rfl (hook h)
  | generator name => exact absurd rfl (generator name)
  | _ => rfl

/-- A statement that calls something from outside. -/
def Stmt.outside (s : Stmt) : List Stmt :=
  if s.calls.any (·.isOutside) then [s] else []

end Code

namespace Host

open Code (Callee Stmt Var gather gather_append gather_cons gather_nil)

attribute [local simp] Stmt.calls

/-- A block calls no generator. -/
def CallsNoGenerator (ss : List Stmt) : Prop :=
  ∀ name, Callee.generator name ∉ gather Stmt.calls ss

/-- The statement that calls a hook, if it is switched on. -/
def hookCalls (p : Plan) (hook : Hook) : List Stmt :=
  if p.settings.hooks.enabled hook then
    [.perform ⟨.hook hook, p.signature.arguments hook.perPass⟩]
  else []

/-- Whatever a block calls from outside, some statement of it calls. -/
theorem mem_outside_of_mem_calls {ss : List Stmt} {c : Callee} (called : c ∈ gather Stmt.calls ss)
    (outside : c.isOutside) : ∃ s ∈ gather Stmt.outside ss, c ∈ s.calls := by
  obtain ⟨s, s_mem, mem⟩ := List.mem_flatMap.mp called
  have some : s.calls.any (·.isOutside) := List.any_eq_true.mpr ⟨c, mem, outside⟩
  -- `some` is about the calls of any statement, so these are not unfolded.
  exact ⟨s, List.mem_flatMap.mpr ⟨s, s_mem, by simp [-Stmt.calls, Stmt.outside, some]⟩, mem⟩

theorem callsNoGenerator_of_outside {ss : List Stmt}
    (hooks : ∀ s ∈ gather Stmt.outside ss, ∃ hook args, s = .perform ⟨.hook hook, args⟩) :
    CallsNoGenerator ss := by
  intro name called
  obtain ⟨s, mem, calls⟩ := mem_outside_of_mem_calls called rfl
  obtain ⟨hook, args, rfl⟩ := hooks s mem
  simp at calls

theorem exists_of_mem_hookCalls {p : Plan} {hook : Hook} {s : Stmt} (mem : s ∈ hookCalls p hook) :
    ∃ hook args, s = .perform ⟨.hook hook, args⟩ := by
  rw [hookCalls] at mem
  split at mem
  · exact ⟨_, _, List.mem_singleton.mp mem⟩
  · simp at mem

/-- The failures of the program are reported by its own macros. -/
@[simp]
theorem isOutside_failure (failure : Code.Failure) : failure.call.callee.isOutside = false := by
  cases failure with
  | function callee object => cases object <;> rfl
  | posix object => rfl
  | lookup kind index count => rfl

@[simp]
theorem outside_phase (title message : String) (perPass : Bool) (body : List Stmt) :
    gather Stmt.outside (phase title perPass message body) = gather Stmt.outside body := by
  cases perPass <;>
    simp [phase, announce, succeed, gather_cons, Stmt.outside]

@[simp]
theorem outside_callForStatus {call : Code.Call} (own : call.callee.isOutside = false)
    (object : Option String) : gather Stmt.outside (callForStatus call object) = [] := by
  simp [callForStatus, checkStatus, gather_cons, Stmt.outside, Code.Condition.callees, own]

@[simp]
theorem outside_callForResult (target : Var) {call : Code.Call}
    (own : call.callee.isOutside = false) (object : Option String) :
    gather Stmt.outside (callForResult target call object) = [] := by
  simp [callForResult, checkStatus, gather_cons, Stmt.outside, Code.Condition.callees, own]

@[simp]
theorem outside_hookCall (p : Plan) (hook : Hook) :
    gather Stmt.outside (hookCall p hook) = hookCalls p hook := by
  rw [hookCall, hookCalls]
  split <;> simp [gather_cons, Stmt.outside]

theorem generator_not_mem_hookCall (name : String) (p : Plan) (hook : Hook) :
    Callee.generator name ∉ gather Stmt.calls (hookCall p hook) := by
  refine callsNoGenerator_of_outside (fun s mem => ?_) name
  rw [outside_hookCall] at mem
  exact exists_of_mem_hookCalls mem

/-! ## Sections that call at most hooks -/

theorem outside_declarations (p : Plan) : gather Stmt.outside (declarations p) = [] := by
  have range (k : Kernel) : gather Stmt.outside (rangeDeclarations k) = [] := by
    simp [rangeDeclarations, declareValue, gather_cons, Stmt.outside, Code.Initial.callees]
  simp [declarations, setupDeclarations, runDeclarations, declareValue, declareBare, declarePointer,
    declareHandle, gather_cons, Stmt.outside, Code.Initial.callees, range]

theorem outside_setup (p : Plan) : gather Stmt.outside (setup p) = [] := by
  have queue (device : Code.Expr) :
      (createQueue p.settings.api device).callee.isOutside = false := by
    cases p.settings.api <;> rfl
  have program : (createProgram p).callee.isOutside = false := by
    rw [createProgram]
    split <;> rfl
  simp [setup, platformPhase, devicePhase, contextPhase, queuePhase, openPhase, readPhase,
    programPhase, buildPhase, kernelPhase, bufferPhase, createBuffer, argumentPhase, bindArgument,
    allocateList, demandIndex, demand, gather_cons, Stmt.outside, Code.Condition.callees, queue,
    program]

theorem outside_pass (p : Plan) (perPass : Bool) : gather Stmt.outside (pass p perPass) = [] := by
  have launch (l : Launch) :
      gather Stmt.outside ((p.kernels[l.kernel]?).elim [] fun k => launch p k.kernel l) = [] := by
    cases p.kernels[l.kernel]? <;> simp [launch]
  simp [pass, uploadPhase, uploads, rebinds, launchPhase, launches, downloadPhase, downloads,
    eventPhase, transfer, bindArgument, readClock, releaseList, gather_cons, Stmt.within,
    Stmt.allWithin, Stmt.outside, launch]

theorem outside_run (p : Plan) : gather Stmt.outside (run p) =
    if p.template = .loop then hookCalls p .loopPreamble ++ hookCalls p .loopPostamble else [] := by
  rw [run]
  split
  · simp_all [outside_pass]
  · rename_i loop
    simp [gather_cons, Code.flatMap_within_repeatWhile, Stmt.outside, outside_pass, loop]

/-- A view that loops are hidden from sees the body of a nest of them. -/
theorem gather_nest {α : Type} {view : Stmt → List α}
    (hidden : ∀ index bound body, view (.count index bound body) = []) (loops : List (Var × Nat))
    (body : List Stmt) : gather view (nest loops body) = gather view body := by
  induction loops with
  | nil => rfl
  | cons loop loops ih =>
      rw [← ih]
      simp [nest, gather, Stmt.allWithin, Stmt.within, hidden]

theorem outside_verdict (p : Plan) :
    gather Stmt.outside (verdict p) = hookCalls p .postamble := by
  have nested (loops : List (Var × Nat)) (body : List Stmt) :
      gather Stmt.outside (nest loops body) = gather Stmt.outside body :=
    gather_nest (fun _ _ _ => rfl) loops body
  simp [verdict, profilingReport, validation, compareOutput, nested, reportMismatch, announce,
    succeed, gather_cons, Stmt.within, Stmt.allWithin, Stmt.outside]

theorem outside_cleanup (p : Plan) :
    gather Stmt.outside (cleanup p) = hookCalls p .cleanup := by
  simp [cleanup, releaseGroup, releaseList, release, gather_cons, Stmt.within, Stmt.allWithin,
    Stmt.outside, Code.flatMap_nothing, -List.map_reverse]

/-! ## The section that fills variables -/

theorem outside_fill (v : Placed) (var : Var) (contents : Contents) :
    gather Stmt.outside (fill v var contents) = fill v var contents := by
  cases contents <;> simp [fill, gather_cons, Stmt.outside]

theorem outside_fills (v : Placed) : gather Stmt.outside (fills v) = fills v := by
  cases reference : v.layout.reference <;> simp [fills, outside_fill, reference]

theorem outside_declareStorage (v : Placed) (var : Var) (contents : Contents) :
    (declareStorage v var contents).within.flatMap Stmt.outside = [] := by
  unfold declareStorage
  split <;> split_ifs <;>
    simp [declareValue, declareBare, Stmt.outside, Code.Initial.callees]

theorem outside_declareVariable (template : Template) (v : Placed) :
    gather Stmt.outside (declareVariable template v) = [] := by
  cases reference : v.layout.reference <;> cases tolerance : v.decl.tolerance <;>
    cases buffer : v.buffer? template <;>
    simp [declareVariable, reference, tolerance, buffer, gather_cons, outside_declareStorage,
      declareHandle, declareValue, Stmt.outside, Code.Initial.callees]

theorem outside_hostVariables (p : Plan) :
    gather Stmt.outside (hostVariables p) = p.hostPlaced.flatMap fills := by
  have filled : gather Stmt.outside (fillPhase p) = p.hostPlaced.flatMap fills := by
    rw [fillPhase]
    split <;> simp_all [outside_fills]
  have allocation : gather Stmt.outside (allocationPhase p) = [] := by
    simp [allocationPhase, demand, Stmt.outside, Code.Condition.callees]
  simp [hostVariables, filled, allocation, gather_cons, outside_declareVariable, Stmt.outside]

/-! ## The whole of `main` -/

/-- What `main` calls from outside, in order: generators where variables are filled, and hooks at
their places. -/
theorem outside_body (p : Plan) : gather Stmt.outside (body p) =
    p.hostPlaced.flatMap fills ++ hookCalls p .preamble ++
      (if p.template = .loop then hookCalls p .loopPreamble ++ hookCalls p .loopPostamble
      else []) ++
      hookCalls p .postamble ++ hookCalls p .cleanup := by
  simp [body, outside_declarations, outside_hostVariables, outside_setup, outside_run,
    outside_verdict, outside_cleanup]

theorem callsNoGenerator_setup (p : Plan) : CallsNoGenerator (setup p) :=
  callsNoGenerator_of_outside fun s mem => by simp [outside_setup] at mem

theorem callsNoGenerator_run (p : Plan) : CallsNoGenerator (run p) := by
  refine callsNoGenerator_of_outside fun s mem => ?_
  rw [outside_run] at mem
  split at mem
  · obtain mem | mem := List.mem_append.mp mem <;> exact exists_of_mem_hookCalls mem
  · simp at mem

theorem callsNoGenerator_verdict (p : Plan) : CallsNoGenerator (verdict p) :=
  callsNoGenerator_of_outside fun s mem =>
    exists_of_mem_hookCalls (by rwa [outside_verdict] at mem)

theorem callsNoGenerator_cleanup (p : Plan) : CallsNoGenerator (cleanup p) :=
  callsNoGenerator_of_outside fun s mem =>
    exists_of_mem_hookCalls (by rwa [outside_cleanup] at mem)

theorem exists_of_mem_fill {v : Placed} {var : Var} {contents : Contents} {s : Stmt}
    (mem : s ∈ fill v var contents) :
    ∃ name args, contents = .generator name ∧ s = .perform ⟨.generator name, args⟩ := by
  cases contents <;> simp_all [fill]

/-- A statement that fills a variable calls its generator. -/
theorem exists_of_mem_fills {v : Placed} {copies : Nat} (fits : v.layout.Fits v.decl copies)
    {s : Stmt} (mem : s ∈ fills v) : ∃ name args, v.decl.generator = some name ∧
      s = .perform ⟨.generator name, args⟩ := by
  obtain ⟨name, args, contents, rfl⟩ : ∃ name args, v.decl.contents = .generator name ∧
      s = .perform ⟨.generator name, args⟩ := by
    rw [fills, fits.initial, fits.reference, List.mem_append] at mem
    obtain mem | mem := mem
    · obtain ⟨name, args, initial, rfl⟩ := exists_of_mem_fill mem
      split_ifs at initial
      exact ⟨name, args, initial, rfl⟩
    · split_ifs at mem
      · exact exists_of_mem_fill mem
      · simp at mem
  refine ⟨name, args, ?_, rfl⟩
  rw [Variable.contents] at contents
  split at contents <;> simp_all

/-- Every generator that the program calls is that of a variable of the host. -/
theorem generator_of_mem_calls {p : Plan} (wellFormed : p.WellFormed) {name : String}
    (called : Callee.generator name ∈ gather Stmt.calls (body p)) :
    ∃ v ∈ p.hostPlaced, v.decl.generator = some name := by
  obtain ⟨s, s_mem, calls⟩ := mem_outside_of_mem_calls called rfl
  have noHook {hook : Hook} (mem : s ∈ hookCalls p hook) : False := by
    obtain ⟨_, _, rfl⟩ := exists_of_mem_hookCalls mem
    simp at calls
  obtain ⟨v, mem, filled⟩ : ∃ v ∈ p.hostPlaced, s ∈ fills v := by
    rw [outside_body] at s_mem
    simp only [List.mem_append, List.mem_flatMap] at s_mem
    rcases s_mem with (((filled | hook) | hook) | hook) | hook
    · exact filled
    · exact (noHook hook).elim
    · split at hook
      · exact ((List.mem_append.mp hook).elim noHook noHook).elim
      · simp at hook
    · exact (noHook hook).elim
    · exact (noHook hook).elim
  obtain ⟨_, _, given, rfl⟩ := exists_of_mem_fills (wellFormed.fits mem) filled
  obtain rfl : name = _ := by simpa using calls
  exact ⟨v, mem, given⟩

end Host
end KernelHost
