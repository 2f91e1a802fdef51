import KernelHost.Proofs.Code.Views
import KernelHost.Proofs.Execution.Steps
import Mathlib.Tactic.SplitIfs

/-!
# Where failed checks land

The label of the clean-up stands once in the program, at the head of its last section, and the
program is left at one place, the end of that section.  All other statements are ordinary ones.
What follows the label is all that a failed check skips to.
-/

namespace KernelHost.Host

open Code (Each Stmt Var landing)

/-- Whether a statement is neither the label nor the end, stores results in variables only, and
repeats what it repeats for the condition of the loop. -/
def isOrdinary : Stmt → Bool
  | .cleanupLabel | .leave _ => false
  | .store (.var _) _ => true
  | .store _ _ => false
  | .repeatWhile c _ => c = .var .loopFlag
  | _ => true

@[simp]
theorem isOrdinary_leaf :
    isOrdinary .blank ∧
      (∀ text, isOrdinary (.comment text)) ∧
      (∀ type items, isOrdinary (.declare type items)) ∧
      (∀ type v size content, isOrdinary (.declareList type v size content)) ∧
      (∀ target value, isOrdinary (.assign target value)) ∧
      (∀ target value, isOrdinary (.increase target value)) ∧
      (∀ v, isOrdinary (.increment v)) ∧
      (∀ v call, isOrdinary (.store (.var v) call)) ∧
      (∀ call, isOrdinary (.perform call)) ∧
      (∀ c failure, isOrdinary (.ensure c failure)) ∧
      (∀ c call, isOrdinary (.guarded c call)) ∧
      (∀ c body, isOrdinary (.when c body)) ∧
      (∀ c body otherwise, isOrdinary (.choose c body otherwise)) ∧
      (∀ index bound body, isOrdinary (.count index bound body)) ∧
      ∀ body, isOrdinary (.repeatWhile (.var .loopFlag) body) := by
  simp [isOrdinary]

/-- A block of ordinary statements. -/
abbrev Ordinary (ss : List Stmt) : Prop :=
  Each (isOrdinary ·) ss

/-- Whether a statement neither stores a result, nor checks anything, nor repeats a loop with a
condition, nor counts passes; it is an ordinary one. -/
def isSure : Stmt → Bool
  | .blank | .comment _ | .declare .. | .declareList .. | .assign .. | .perform _ | .guarded ..
  | .when .. | .choose .. | .count .. => true
  | _ => false

theorem isOrdinary_of_isSure {s : Stmt} (sure : isSure s) : isOrdinary s := by
  cases s <;> simp_all [isSure]

@[simp]
theorem isSure_leaf :
    isSure .blank ∧
      (∀ text, isSure (.comment text)) ∧
      (∀ type items, isSure (.declare type items)) ∧
      (∀ type v size content, isSure (.declareList type v size content)) ∧
      (∀ target value, isSure (.assign target value)) ∧
      (∀ call, isSure (.perform call)) ∧
      (∀ c call, isSure (.guarded c call)) ∧
      (∀ c body, isSure (.when c body)) ∧
      (∀ c body otherwise, isSure (.choose c body otherwise)) ∧
      ∀ index bound body, isSure (.count index bound body) := by
  simp [isSure]

/-- A block of such statements. -/
abbrev Sure (ss : List Stmt) : Prop :=
  Each (isSure ·) ss

theorem Sure.ordinary {ss : List Stmt} (sure : Sure ss) : Ordinary ss :=
  fun s mem => isOrdinary_of_isSure (sure s mem)

theorem sure_hookCall (p : Plan) (hook : Hook) : Sure (hookCall p hook) := by
  rw [hookCall]
  split <;> simp [phase, announce, succeed]

@[simp]
theorem ordinary_phase {title message : String} {perPass : Bool} {body : List Stmt} :
    Ordinary (phase title perPass message body) ↔ Ordinary body := by
  simp [phase, announce, succeed]

@[simp]
theorem ordinary_hookCall (p : Plan) (hook : Hook) : Ordinary (hookCall p hook) :=
  (sure_hookCall p hook).ordinary

theorem sure_declarations (p : Plan) : Sure (declarations p) := by
  simp [declarations, setupDeclarations, runDeclarations, rangeDeclarations, declareValue,
    declareBare, declarePointer, declareHandle]

/-- Storage is declared by one declaration. -/
theorem declareStorage_plain (v : Placed) (var : Var) (contents : Contents) :
    (declareStorage v var contents).isPlain ∧ isSure (declareStorage v var contents) := by
  unfold declareStorage
  split <;> split_ifs <;> simp [declareValue, declareBare, Stmt.isPlain]

theorem within_of_plain {s : Stmt} (plain : s.isPlain) : s.within = [s] := by
  cases s <;> simp_all [Stmt.isPlain, Stmt.within]

theorem ordinary_hostVariables (p : Plan) : Ordinary (hostVariables p) := by
  have fill (v : Placed) (var : Var) (contents : Contents) :
      Ordinary (fill v var contents) := by
    cases contents <;> simp [Host.fill]
  have copy (v : Placed) : Ordinary (declareVariable p.template v) ∧ Ordinary (fills v) := by
    cases reference : v.layout.reference <;>
      simp [declareVariable, fills, reference, declareHandle, declareValue, fill,
        within_of_plain (declareStorage_plain ..).1,
        isOrdinary_of_isSure (declareStorage_plain ..).2]
  simp [hostVariables, allocationPhase, fillPhase, demand, copy]

theorem ordinary_setup (p : Plan) : Ordinary (setup p) := by
  simp [setup, platformPhase, devicePhase, contextPhase, queuePhase, openPhase, readPhase,
    programPhase, buildPhase, kernelPhase, bufferPhase, createBuffer, argumentPhase, bindArgument,
    allocateList, demandIndex, demand, callForStatus, callForResult, checkStatus]

theorem ordinary_pass (p : Plan) (perPass : Bool) : Ordinary (pass p perPass) := by
  have launch (l : Launch) :
      Ordinary ((p.kernels[l.kernel]?).elim [] fun k => launch p k.kernel l) := by
    cases p.kernels[l.kernel]? <;> simp [Host.launch, callForStatus, checkStatus]
  simp [pass, uploadPhase, uploads, rebinds, launchPhase, launches, downloadPhase, downloads,
    eventPhase, transfer, bindArgument, readClock, releaseList, callForStatus, checkStatus, launch]

theorem ordinary_run (p : Plan) : Ordinary (run p) := by
  rw [run]
  split
  · exact ordinary_pass p false
  · simp [ordinary_pass]

theorem sure_verdict (p : Plan) : Sure (verdict p) := by
  have nest (c : Check) : Sure (compareOutput c) := by
    unfold compareOutput Host.nest
    induction c.loops with
    | nil => simp [reportMismatch]
    | cons loop loops ih => simpa using ih
  simp [verdict, sure_hookCall, profilingReport, validation, announce, succeed, nest]

/-- Everything in front of the clean-up. -/
def mainPath (p : Plan) : List Stmt :=
  declarations p ++ hostVariables p ++ hookCall p .preamble ++ setup p ++ run p ++ verdict p

theorem ordinary_mainPath (p : Plan) : Ordinary (mainPath p) := by
  simp [mainPath, (sure_declarations p).ordinary, ordinary_hostVariables, ordinary_setup,
    ordinary_run, (sure_verdict p).ordinary]

/-- The clean-up is its label, statements that store and check nothing, and the end of the
program. -/
theorem cleanup_eq (p : Plan) :
    ∃ releases, Sure releases ∧
      cleanup p = .blank :: .cleanupLabel :: (releases ++ [.leave (.var .exitCode)]) := by
  refine ⟨(cleanup p).tail.tail.dropLast, ?_, by simp [cleanup]⟩
  have group {title : String} {releases : List Stmt} :
      Sure (releaseGroup title releases) ↔ Sure releases := by
    rw [releaseGroup]
    split <;> simp_all
  simp [cleanup, group, sure_hookCall, release, releaseList, -List.map_reverse]

/-- A failed check skips to the label of the clean-up. -/
theorem landing_body (p : Plan) : landing (body p) = (cleanup p).tail := by
  have front : Ordinary (mainPath p ++ [Stmt.blank]) := by
    simp [ordinary_mainPath]
  obtain ⟨releases, -, clean⟩ := cleanup_eq p
  have split : body p = (mainPath p ++ [Stmt.blank]) ++ (cleanup p).tail := by
    simp [body, mainPath, clean]
  rw [split, clean]
  refine Code.landing_append fun s mem label => ?_
  have ordinary := front.of_mem mem
  simp [label, isOrdinary] at ordinary

end KernelHost.Host
