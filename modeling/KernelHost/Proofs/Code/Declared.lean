import KernelHost.Proofs.Code.Views
import KernelHost.Proofs.Plan.Shape

/-!
# What `main` declares

The declarations of `main` are all in its first two sections.  Put in another order they are the
variables with fixed names, the completion lists, the variables derived from kernels and variables
of the manifest, and those variables themselves.
-/

namespace KernelHost.Host

open Code (Stmt Var gather gather_cons)

attribute [local simp] Stmt.declares

/-! ## Sections without declarations -/

@[simp]
theorem declares_phase (title message : String) (perPass : Bool) (body : List Stmt) :
    gather Stmt.declares (phase title perPass message body) = gather Stmt.declares body := by
  simp [phase, announce, succeed, gather_cons, Stmt.within]

@[simp]
theorem declares_callForStatus (call : Code.Call) (object : Option String) :
    gather Stmt.declares (callForStatus call object) = [] := by
  simp [callForStatus, checkStatus, gather_cons, Stmt.within]

@[simp]
theorem declares_callForResult (target : Var) (call : Code.Call) (object : Option String) :
    gather Stmt.declares (callForResult target call object) = [] := by
  simp [callForResult, checkStatus, gather_cons, Stmt.within]

@[simp]
theorem declares_hookCall (p : Plan) (hook : Hook) :
    gather Stmt.declares (hookCall p hook) = [] := by
  rw [hookCall]
  split <;> simp [gather_cons, Stmt.within]

theorem declares_setup (p : Plan) : gather Stmt.declares (setup p) = [] := by
  simp [setup, platformPhase, devicePhase, contextPhase, queuePhase, openPhase, readPhase,
    programPhase, buildPhase, kernelPhase, bufferPhase, createBuffer, argumentPhase, bindArgument,
    allocateList, demandIndex, demand, gather_cons, Stmt.within]

@[simp]
theorem declares_launches (p : Plan) : gather Stmt.declares (launches p) = [] := by
  simp only [launches, Code.gather_flatMap, List.flatMap_eq_nil_iff]
  intro l _
  cases p.kernels[l.kernel]? <;> simp [launch]

@[simp]
theorem declares_pass (p : Plan) (perPass : Bool) :
    gather Stmt.declares (pass p perPass) = [] := by
  simp [pass, uploadPhase, uploads, rebinds, launchPhase, downloadPhase, downloads, eventPhase,
    transfer, bindArgument, readClock, releaseList, gather_cons, Stmt.within, Stmt.allWithin]

theorem declares_run (p : Plan) : gather Stmt.declares (run p) = [] := by
  rw [run]
  split
  · simp
  · have body := declares_pass p true
    have before := declares_hookCall p .loopPreamble
    have behind := declares_hookCall p .loopPostamble
    rw [gather] at body before behind
    simp [gather_cons, Stmt.within, body, before, behind]

@[simp]
theorem declares_nest (loops : List (Var × Nat)) (body : List Stmt) :
    gather Stmt.declares (nest loops body) = gather Stmt.declares body := by
  induction loops with
  | nil => rfl
  | cons loop loops ih =>
      rw [← ih]
      simp [nest, gather, Stmt.allWithin, Stmt.within]

theorem declares_verdict (p : Plan) : gather Stmt.declares (verdict p) = [] := by
  simp [verdict, profilingReport, validation, compareOutput, reportMismatch, announce, succeed,
    gather_cons, Stmt.within, Stmt.allWithin]

theorem declares_cleanup (p : Plan) : gather Stmt.declares (cleanup p) = [] := by
  simp [cleanup, releaseGroup, releaseList, release, gather_cons, Stmt.within, Stmt.allWithin,
    -List.map_reverse]

/-! ## Sections with declarations -/

/-- The variables of the set-up whose names are fixed, in front of the queues and behind them. -/
def discoveryVars : List Var :=
  [.exitCode, .i, .j, .callStatus, .platformsLen, .devicesLen, .platforms, .devices, .context]

/-- The variables that the program of the device is loaded with. -/
def loadingVars : List Var :=
  [.programFile, .programSize, .programContent, .programStatus, .program]

/-- The variables of the run whose names are fixed. -/
def runVars (p : Plan) : List Var :=
  (if p.template = .loop then [.loopFlag] else []) ++ [.invalidDataFound, .iterations] ++
    if p.settings.profiling then [.timeBefore, .timeAfter, .execTime] else []

/-- The completion lists. -/
def tierVars (p : Plan) : List Var :=
  (List.range p.schedule.boundaries).map .tierDone

/-- The variables of a kernel's range. -/
def rangeVars (k : Kernel) : List Var :=
  [.workDim k.ident, .globalSize k.ident] ++
    if k.range.localSizes.isSome then [.localSize k.ident] else []

/-- What is derived from a variable of the host. -/
def copyVars (template : Template) (v : Placed) : List Var :=
  (v.layout.reference.elim [] fun _ =>
    .reference v.decl.name :: v.decl.tolerance.toList.map fun _ => .tolerance v.decl.name) ++
    (v.buffer? template).toList.map (·.handle)

theorem declares_declarations (p : Plan) :
    gather Stmt.declares (declarations p) =
      discoveryVars ++ p.kernels.map (.queue ·.kernel.ident) ++ loadingVars ++
        p.kernels.map (.kernel ·.kernel.ident) ++ runVars p ++ tierVars p ++
        p.kernels.flatMap (rangeVars ·.kernel) := by
  have range (k : Kernel) : gather Stmt.declares (rangeDeclarations k) = rangeVars k := by
    cases sizes : k.range.localSizes <;>
      simp [rangeDeclarations, rangeVars, declareValue, gather_cons, Stmt.within, sizes]
  simp [declarations, setupDeclarations, runDeclarations, declareValue, declareBare, declarePointer,
    declareHandle, gather_cons, Stmt.within, range, discoveryVars, loadingVars, runVars, tierVars,
    List.map_eq_flatMap]

@[simp]
theorem declares_declareStorage (v : Placed) (var : Var) (contents : Contents) :
    (declareStorage v var contents).within.flatMap Stmt.declares = [var] := by
  unfold declareStorage
  split
  · split_ifs <;> rfl
  · split_ifs <;> rfl

theorem declares_declareVariable (template : Template) (v : Placed) :
    gather Stmt.declares (declareVariable template v) =
      .host v.decl.name :: copyVars template v := by
  cases reference : v.layout.reference <;>
    simp [declareVariable, copyVars, declareHandle, declareValue, gather_cons, reference,
      Stmt.within, List.map_eq_flatMap]

theorem declares_fills (v : Placed) : gather Stmt.declares (fills v) = [] := by
  have fill (var : Var) (contents : Contents) :
      gather Stmt.declares (fill v var contents) = [] := by
    cases contents <;> rfl
  cases reference : v.layout.reference <;> simp [fills, fill, reference]

theorem declares_hostVariables (p : Plan) :
    gather Stmt.declares (hostVariables p) =
      p.hostPlaced.flatMap fun v => .host v.decl.name :: copyVars p.template v := by
  simp [hostVariables, allocationPhase, fillPhase, demand, gather_cons, Stmt.within,
    declares_declareVariable, declares_fills]

/-- Everything that `main` declares, in the order of the text. -/
theorem declares_body (p : Plan) :
    gather Stmt.declares (body p) =
      discoveryVars ++ p.kernels.map (.queue ·.kernel.ident) ++ loadingVars ++
        p.kernels.map (.kernel ·.kernel.ident) ++ runVars p ++ tierVars p ++
        p.kernels.flatMap (rangeVars ·.kernel) ++
        p.hostPlaced.flatMap fun v => .host v.decl.name :: copyVars p.template v := by
  simp [body, declares_declarations, declares_hostVariables, declares_setup, declares_run,
    declares_verdict, declares_cleanup]

end KernelHost.Host
