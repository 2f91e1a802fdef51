import KernelHost.Proofs.Failure.Checks
import KernelHost.Proofs.Scope.Extents

/-!
# Jumps to the clean-up

A check that fails jumps to the label of the clean-up.  There is one label, behind all checks, so
every jump goes forward; and all declarations stand in front of the first check, so what the
clean-up tests has a value on every jump.
-/

namespace KernelHost

open Code (Call Callee Each Expr Line Stmt Var gather gather_append gather_cons)

namespace Code.Stmt

/-- The variables that a declaration gives a first value. -/
def initializes : Stmt → List Var
  | .declare _ items => (items.filter (·.initial != .none)).map (·.var)
  | .declareList _ v _ _ => [v]
  | _ => []

/-- The variables in the condition that a statement depends on. -/
def tests : Stmt → List Var
  | .guarded c _ | .when c _ | .choose c _ _ | .repeatWhile c _ => c.stands.map (·.1)
  | _ => []

end Code.Stmt

namespace Host

variable {p : Plan}

/-! ## The label -/

theorem allWithin_body_label (p : Plan) : ∃ front back,
    Stmt.allWithin (body p) = front ++ .cleanupLabel :: back ∧
      (∀ s ∈ front, isOrdinary s) ∧
      ∀ s ∈ back, s ∈ Stmt.allWithin (cleanup p) ∧ (isSure s ∨ s = .leave (.var .exitCode)) := by
  obtain ⟨releases, sure, clean⟩ := cleanup_eq p
  have front : Code.Each (isOrdinary ·) (mainPath p ++ [Stmt.blank]) := by simp [ordinary_mainPath]
  have split : body p = (mainPath p ++ [Stmt.blank]) ++ Stmt.cleanupLabel ::
      (releases ++ [Stmt.leave (.var .exitCode)]) := by
    simp [body, mainPath, clean]
  refine ⟨_, Stmt.allWithin (releases ++ [Stmt.leave (.var .exitCode)]), ?_, front, fun s mem => ?_⟩
  · rw [split, Stmt.allWithin_append]
    rfl
  · refine ⟨by simp [clean, Stmt.allWithin] at mem ⊢; tauto, ?_⟩
    rw [Stmt.allWithin_append, List.mem_append] at mem
    rcases mem with mem | mem
    · exact .inl (sure s mem)
    · exact .inr (by simpa [Stmt.allWithin] using mem)

/-- Wherever the label is met, the same statements stand behind it. -/
theorem of_label {front back : List Stmt}
    (split : Stmt.allWithin (body p) = front ++ .cleanupLabel :: back) {s : Stmt} (mem : s ∈ back) :
    s ∈ Stmt.allWithin (cleanup p) ∧ (isSure s ∨ s = .leave (.var .exitCode)) := by
  obtain ⟨front', back', split', ordinary, behind⟩ := allWithin_body_label p
  have noLabel : Stmt.cleanupLabel ∉ front' := fun mem => by simpa [isOrdinary] using ordinary _ mem
  have noLabel' : Stmt.cleanupLabel ∉ back' := fun mem => by
    simpa [isSure] using (behind _ mem).2
  rw [split'] at split
  obtain ⟨-, -, rfl⟩ := (List.append_cons_inj_of_notMem noLabel noLabel').mp split
  exact behind s mem

theorem filter_isLabel (p : Plan) :
    (Stmt.allWithin (body p)).filter Stmt.isLabel = [.cleanupLabel] := by
  obtain ⟨front, back, split, ordinary, behind⟩ := allWithin_body_label p
  have noLabel : front.filter Stmt.isLabel = [] := by
    refine List.filter_eq_nil_iff.mpr fun s mem label => ?_
    have := ordinary s mem
    cases s <;> simp_all [Stmt.isLabel, isOrdinary]
  have noLabel' : back.filter Stmt.isLabel = [] := by
    refine List.filter_eq_nil_iff.mpr fun s mem label => ?_
    rcases (behind s mem).2 with sure | rfl
    · cases s <;> simp_all [Stmt.isLabel, isSure]
    · simp [Stmt.isLabel] at label
  rw [split, List.filter_append, noLabel, List.filter_cons_of_pos rfl, noLabel', List.nil_append]

/-! ## The first check -/

/-- All declarations stand in front of a check, and none behind it. -/
theorem opening_before {front back : List Stmt} {c : Code.Condition} {failure : Code.Failure}
    (split : Stmt.allWithin (body p) = front ++ .ensure c failure :: back) :
    (∃ more, front = opening p ++ more) ∧ ∀ s ∈ back, s.declares = [] := by
  have noCheck : Stmt.ensure c failure ∉ opening p := fun mem => by
    have opens := (opens_opening p).of_mem mem
    have callee := opens.made failure.call (by simp [Stmt.made])
    cases failure with
    | function callee object => cases object <;> simp [Code.Failure.call] at callee
    | _ => simp [Code.Failure.call] at callee
  rw [body_eq, Stmt.allWithin_append, allWithin_eq_self (opens_opening p)] at split
  rcases List.append_eq_append_iff.mp split with ⟨more, rfl, rest⟩ | ⟨more, whole, rest⟩
  · refine ⟨⟨more, rfl⟩, fun s mem => ?_⟩
    have none := List.flatMap_eq_nil_iff.mp (declares_behindOpening p)
    exact none s (by simp [rest, mem])
  · cases more with
    | nil =>
        refine ⟨⟨[], by simpa using whole.symm⟩, fun s mem => ?_⟩
        have none := List.flatMap_eq_nil_iff.mp (declares_behindOpening p)
        exact none s (by rw [← show _ = Stmt.allWithin (behindOpening p) from rest]; simp [mem])
    | cons s more =>
        obtain ⟨rfl, -⟩ := List.cons.inj rest
        exact absurd (by simp [whole]) noCheck

/-! ## What the clean-up tests -/

attribute [local simp] Stmt.tests Stmt.initializes

theorem tests_hookCall (hook : Hook) : gather Stmt.tests (hookCall p hook) = [] := by
  rw [hookCall]
  split <;> simp [phase, announce, succeed, gather_cons]

/-- Of what belongs to all programs, the clean-up tests only what is declared with a value. -/
theorem initialized_fixed {v : Var}
    (fixed : v ∈ [Var.i, .program, .programContent, .programFile, .context, .devices, .platforms]) :
    v ∈ gather Stmt.initializes (declarations p) := by
  simp only [List.mem_cons, List.not_mem_nil, or_false] at fixed
  rcases fixed with rfl | rfl | rfl | rfl | rfl | rfl | rfl <;>
    simp [declarations, setupDeclarations, declareHandle, declarePointer, declareValue, gather_cons]

theorem initialized_ofKernel {k : PlannedKernel} (mem : k ∈ p.kernels) :
    .queue k.kernel.ident ∈ gather Stmt.initializes (declarations p) ∧
      .kernel k.kernel.ident ∈ gather Stmt.initializes (declarations p) := by
  have queue : ∃ l ∈ p.kernels, l.kernel.ident = k.kernel.ident := ⟨k, mem, rfl⟩
  constructor <;>
    simp [declarations, setupDeclarations, declareHandle, declarePointer, declareValue, gather_cons,
      @eq_comm _ k.kernel.ident, queue]

theorem initialized_tierDone {tier : Nat} (below : tier < p.schedule.boundaries) :
    .tierDone tier ∈ gather Stmt.initializes (declarations p) := by
  simp [declarations, runDeclarations, gather_cons, below]

theorem initialized_buffer {w : Placed} {b : Buffer} (made : w.buffer? p.template = some b) :
    b.handle ∈ gather Stmt.initializes (declareVariable p.template w) := by
  simp [declareVariable, gather_cons, made, declareHandle, declareValue]

/-- Storage that is released was allocated where it is declared. -/
theorem initialized_heap {w : Placed} {v : Var} (mem : v ∈ heapOf w) :
    v ∈ gather Stmt.initializes (declareVariable p.template w) := by
  have storage (var : Var) (contents : Contents) (isArray : w.layout.storage.isArray) :
      var ∈ (declareStorage w var contents).within.flatMap Stmt.initializes := by
    rw [within_of_plain (declareStorage_plain ..).1]
    unfold declareStorage
    split <;> simp [isArray]
  simp only [heapOf, List.mem_append, List.mem_ite_nil_right, List.mem_singleton] at mem
  rw [declareVariable, List.cons_append, gather_cons, List.mem_append]
  rcases mem with ⟨onHeap, rfl⟩ | ⟨onHeap, rfl⟩
  · have isArray : w.layout.storage.isArray := by
      simp only [Layout.onHeap, Bool.and_eq_true] at onHeap
      exact onHeap.1.2
    exact .inl (storage _ _ isArray)
  · simp only [Layout.referenceOnHeap, Bool.and_eq_true] at onHeap
    obtain ⟨isArray, copied⟩ := onHeap
    cases reference : w.layout.reference with
    | none => simp [reference] at copied
    | some contents =>
        right
        simp only [Option.elim, gather_append, gather_cons, List.mem_append]
        exact .inl (.inl (storage _ contents isArray))

/-- What the clean-up tests is given a first value where it is declared. -/
theorem initialized_of_tested (wellFormed : p.WellFormed) {v : Var}
    (tested : v ∈ gather Stmt.tests (cleanup p)) : v ∈ gather Stmt.initializes (opening p) := by
  have fixed {w : Var} (mem : w ∈ gather Stmt.initializes (declarations p)) :
      w ∈ gather Stmt.initializes (opening p) := by
    simp [opening, mem]
  have ofVariable {w : Placed} {x : Var} (w_mem : w ∈ p.hostPlaced)
      (mem : x ∈ gather Stmt.initializes (declareVariable p.template w)) :
      x ∈ gather Stmt.initializes (opening p) := by
    simp only [opening, gather_append, Code.gather_flatMap, List.mem_append, List.mem_flatMap]
    exact .inr ⟨w, w_mem, mem⟩
  simp [cleanup, releaseGroup, releaseList, release, gather_cons, Stmt.within, Stmt.allWithin,
    tests_hookCall, -List.map_reverse] at tested
  rcases tested with ⟨-, tier, below, rfl | rfl⟩ | ⟨-, b, mem, rfl⟩ | ⟨-, k, mem, rfl⟩ | rfl | rfl |
    rfl | ⟨-, k, mem, rfl⟩ | rfl | rfl | rfl | ⟨-, mem⟩
  · exact fixed (initialized_tierDone below)
  · exact fixed (initialized_fixed (by simp))
  · obtain ⟨w, w_mem, made⟩ := exists_of_mem_buffers wellFormed mem
    exact ofVariable w_mem (initialized_buffer made)
  · exact fixed (initialized_ofKernel mem).2
  · exact fixed (initialized_fixed (by simp))
  · exact fixed (initialized_fixed (by simp))
  · exact fixed (initialized_fixed (by simp))
  · exact fixed (initialized_ofKernel mem).1
  · exact fixed (initialized_fixed (by simp))
  · exact fixed (initialized_fixed (by simp))
  · exact fixed (initialized_fixed (by simp))
  · obtain ⟨w, w_mem, mem⟩ := List.mem_flatMap.mp mem
    exact ofVariable w_mem (initialized_heap mem)

/-! ## All failures -/

/-- What a check of a status names in its report. -/
def reportedName (callee : Callee) (object : Option String) : String :=
  callee.text ++ object.elim "" fun object => " (" ++ object ++ ")"

/-- The line of a check. -/
def checkLine (callee : Callee) (object : Option String) (depth : Nat) : Line where
  depth := depth
  text := "ASSERT_CALL(CL_SUCCESS == fRet, FUNCTION_ERROR_STATEMENTS(\"" ++
    reportedName callee object ++ "\"));"

theorem lines_checkStatus (callee : Callee) (object : Option String) (depth : Nat) :
    (checkStatus callee object).lines depth = [checkLine callee object depth] := by
  have macros : Callee.assertCall.text = "ASSERT_CALL" ∧
      Callee.functionError.text = "FUNCTION_ERROR_STATEMENTS" := ⟨rfl, rfl⟩
  have status : Var.callStatus.text = "fRet" := rfl
  cases object <;>
    simp [checkStatus, checkLine, reportedName, Stmt.lines, Code.Condition.text, Code.Failure.call,
      Code.Call.text, Expr.text, Expr.plain, Code.formatText, Code.Piece.render, Code.Operator.sign,
      macros, status, ← String.toList_inj, String.toList_append]

theorem lines_ofPlan (p : Plan) :
    ∃ head tail, (Program.ofPlan p).lines = head ++ Stmt.block 1 (body p) ++ tail :=
  ⟨_, _, rfl⟩

/-- Every failure of `main` is found at once, and reaches the clean-up with all that it tests. -/
structure FailsSafely (p : Plan) : Prop where
  /-- Behind each status, in the block and in the text, stands the check that names the call. -/
  followed : ∀ block ∈ Stmt.blocks (body p), ∀ front s rest call, block = front ++ s :: rest →
    TakesStatus s call → ∃ object,
      (∃ later, rest = checkStatus call.callee object :: later) ∧
      ∃ depth above below, (Program.ofPlan p).lines =
        above ++ s.lines depth ++ checkLine call.callee object depth :: below
  /-- There is one label. -/
  label : (Stmt.allWithin (body p)).filter Stmt.isLabel = [.cleanupLabel]
  /-- Nothing behind the label jumps to it. -/
  forward : ∀ front back, Stmt.allWithin (body p) = front ++ .cleanupLabel :: back →
    ∀ c failure, .ensure c failure ∉ back
  /-- Nothing behind a check is a declaration. -/
  declared : ∀ front c failure back, Stmt.allWithin (body p) = front ++ .ensure c failure :: back →
    ∀ s ∈ back, s.declares = []
  /-- What a statement behind the label tests is given a value in front of every check, outside all
  blocks. -/
  initialized : ∀ front back, Stmt.allWithin (body p) = front ++ .cleanupLabel :: back →
    ∀ s ∈ back, ∀ v ∈ s.tests, ∀ front' c failure back',
      Stmt.allWithin (body p) = front' ++ .ensure c failure :: back' →
        ∃ d ∈ front', d ∈ body p ∧ v ∈ d.initializes

theorem failsSafely_of_planned {source : String} {m : Manifest} {p : Plan}
    (read : Manifest.read source = .ok m) (planned : Plan.ofManifest m = .ok p) :
    FailsSafely p where
  followed block mem front s rest call split takes := by
    have followed := (secured_body p).of_mem_blocks mem
    obtain ⟨deeper, above, below, written⟩ := Stmt.lines_of_mem_blocks mem 1
    rw [split] at followed written
    obtain ⟨object, later, rfl⟩ := followed.of_split takes
    refine ⟨object, ⟨later, rfl⟩, deeper, ?_⟩
    obtain ⟨head, tail, whole⟩ := lines_ofPlan p
    refine ⟨head ++ above ++ Stmt.block deeper front, Stmt.block deeper later ++ below ++ tail, ?_⟩
    simp [whole, written, Stmt.block, lines_checkStatus]
  label := filter_isLabel p
  forward front back split c failure mem := by
    simpa [isSure] using (of_label split mem).2
  declared front c failure back split := (opening_before split).2
  initialized front back split s mem v tested front' c failure back' split' := by
    have wellFormed : p.WellFormed :=
      (Plan.arranges_of_ofManifest planned).wellFormed (Manifest.admitted_of_read read)
    have inCleanup : v ∈ gather Stmt.tests (cleanup p) :=
      List.mem_flatMap.mpr ⟨s, (of_label split mem).1, tested⟩
    have initialized := initialized_of_tested wellFormed inCleanup
    rw [gather, allWithin_eq_self (opens_opening p)] at initialized
    obtain ⟨d, d_mem, gives⟩ := List.mem_flatMap.mp initialized
    obtain ⟨⟨more, rfl⟩, -⟩ := opening_before split'
    refine ⟨d, List.mem_append_left _ d_mem, ?_, gives⟩
    rw [body_eq]
    exact List.mem_append_left _ d_mem

theorem failsSafely_of_planned_sampleManifest :
    ∃ m p, Manifest.read Plan.sampleManifest = .ok m ∧ Plan.ofManifest m = .ok p ∧
      FailsSafely p := by
  obtain ⟨m, p, read, planned, -⟩ := Plan.sampleManifest_planned
  exact ⟨m, p, read, planned, failsSafely_of_planned read planned⟩

end Host
end KernelHost
