import KernelHost.Proofs.Braces.Plain

/-!
# Braces of the sections

No statement of `main` has braces of its own, if the texts of the plan have none.
-/

namespace KernelHost

open Code (Call Callee Declarator Each Expr Initial Stmt Var)

/-! ## Statements -/

namespace Code

@[simp]
theorem tidy_initial :
    Initial.none.Tidy ∧ (∀ n, (Initial.nulls n).Tidy) ∧
      (∀ e, (Initial.value e).Tidy ↔ Braceless e.text) ∧
      ∀ call, (Initial.result call).Tidy ↔ Braceless call.text :=
  ⟨trivial, fun _ => trivial, fun _ => .rfl, fun _ => .rfl⟩

@[simp]
theorem tidy_stmt :
    Stmt.blank.Tidy ∧ Stmt.cleanupLabel.Tidy ∧
      (∀ text, (Stmt.comment text).Tidy ↔ Braceless text) ∧
      (∀ type items, (Stmt.declare type items).Tidy ↔
        Braceless type ∧ ∀ d ∈ items, Braceless d.var.text ∧ d.initial.Tidy) ∧
      (∀ type var size content, (Stmt.declareList type var size content).Tidy ↔
        Braceless type ∧ Braceless var.text ∧ Braceless content) ∧
      (∀ target value, (Stmt.assign target value).Tidy ↔
        Braceless target.text ∧ Braceless value.text) ∧
      (∀ target value, (Stmt.increase target value).Tidy ↔
        Braceless target.text ∧ Braceless value.text) ∧
      (∀ var, (Stmt.increment var).Tidy ↔ Braceless var.text) ∧
      (∀ var bound body, (Stmt.count var bound body).Tidy ↔ Braceless var.text) ∧
      (∀ target call, (Stmt.store target call).Tidy ↔
        Braceless target.text ∧ Braceless call.text) ∧
      (∀ call, (Stmt.perform call).Tidy ↔ Braceless call.text) ∧
      (∀ condition failure, (Stmt.ensure condition failure).Tidy ↔
        Braceless condition.text ∧ Braceless failure.call.text) ∧
      (∀ condition call, (Stmt.guarded condition call).Tidy ↔
        Braceless condition.text ∧ Braceless call.text) ∧
      (∀ condition body, (Stmt.when condition body).Tidy ↔ Braceless condition.text) ∧
      (∀ condition body otherwise, (Stmt.choose condition body otherwise).Tidy ↔
        Braceless condition.text) ∧
      (∀ condition body, (Stmt.repeatWhile condition body).Tidy ↔ Braceless condition.text) ∧
      ∀ value, (Stmt.leave value).Tidy ↔ Braceless value.text := by
  simp [Stmt.Tidy]

@[simp]
theorem braceless_condition :
    (∀ e, Braceless (Condition.holds e).text ↔ Braceless e.text) ∧
      ∀ call, Braceless (Condition.givesOne call).text ↔ Braceless call.text := by
  simp +decide [Condition.text]

end Code

namespace Host

@[simp]
theorem tidy_phase {title message : String} {perPass : Bool} {ss : List Stmt} :
    Each Stmt.Tidy (phase title perPass message ss) ↔
      Braceless title ∧ Braceless message ∧ Each Stmt.Tidy ss := by
  cases perPass <;> simp +decide [phase, announce, succeed]

@[simp]
theorem tidy_checkStatus {callee : Callee} {object : Option String} :
    (∀ t ∈ (checkStatus callee object).within, t.Tidy) ↔
      Braceless callee.text ∧ ∀ name ∈ object, Braceless name := by
  cases object <;> simp +decide [checkStatus, Code.Failure.call]

@[simp]
theorem tidy_callForStatus {call : Call} {object : Option String} :
    Each Stmt.Tidy (callForStatus call object) ↔
      Braceless call.text ∧ ∀ name ∈ object, Braceless name := by
  simp [callForStatus]
  grind

@[simp]
theorem tidy_callForResult {target : Var} {call : Call} {object : Option String} :
    Each Stmt.Tidy (callForResult target call object) ↔
      Braceless target.text ∧ Braceless call.text ∧ ∀ name ∈ object, Braceless name := by
  simp [callForResult]
  grind

@[simp]
theorem tidy_demand {pointer : Var} {object : Expr} :
    (∀ t ∈ (demand pointer object).within, t.Tidy) ↔
      Braceless pointer.text ∧ Braceless object.text := by
  simp [demand, Code.Failure.call]

@[simp]
theorem tidy_releaseGroup {title : String} {ss : List Stmt} :
    Each Stmt.Tidy (releaseGroup title ss) ↔ ss = [] ∨ Braceless title ∧ Each Stmt.Tidy ss := by
  by_cases none : ss = [] <;> simp [releaseGroup, none]

@[simp]
theorem tidy_release {callee : Callee} {var : Var} :
    (∀ t ∈ (release callee var).within, t.Tidy) ↔
      Braceless callee.text ∧ Braceless var.text := by
  simp [release]

/-- Loops around statements show nothing but their indices. -/
theorem tidy_nest {loops : List (Var × Nat)} (named : ∀ l ∈ loops, Braceless l.1.text)
    {body : List Stmt} (inner : Each Stmt.Tidy body) : Each Stmt.Tidy (nest loops body) := by
  induction loops with
  | nil => exact inner
  | cons l loops ih =>
      obtain ⟨first, rest⟩ := List.forall_mem_cons.mp named
      have inside := ih rest
      simp only [nest, List.foldr_cons] at inside ⊢
      simp [first, inside]

/-! ## Storage -/

section Storage

variable (w : Placed) (var : Var) {contents : Contents} (named : Braceless var.text)
  (filled : contents.Plain)

include named filled

theorem tidy_declareStorage (type : Braceless w.decl.type) :
    ∀ t ∈ (declareStorage w var contents).within, t.Tidy := by
  unfold declareStorage
  cases contents with
  | literal text =>
      have text : Braceless text := filled
      split_ifs <;> simp [declareValue, type, named, text]
  | generator | outside => split_ifs <;> simp +decide [declareBare, type, named]

theorem tidy_fill : Each Stmt.Tidy (fill w var contents) := by
  cases contents with
  | generator name =>
      have name : Braceless name := filled
      simp only [fill]
      split_ifs <;> simp [named, name]
  | literal | outside => simp [fill]

end Storage

theorem tidy_declareVariable {w : Placed} (known : w.Plain) (name : Braceless w.decl.name)
    (template : Template) : Each Stmt.Tidy (declareVariable template w) := by
  have type := known.decl.type
  have own :=
    tidy_declareStorage w (.host w.decl.name) (by simpa using name) known.initial type
  have copy (contents : Contents) (held : w.layout.reference = some contents) :=
    tidy_declareStorage w (.reference w.decl.name) (by simpa using name)
      (known.reference contents held) type
  have handles (b : Buffer) (made : w.buffer? template = some b) := (known.buffer made).host
  have tolerances (t : Tolerance) (held : w.decl.tolerance = some t) :=
    known.decl.tolerance t held
  cases reference : w.layout.reference <;>
    simp_all +decide [declareVariable, declareHandle, declareValue, Buffer.handle]

/-! ## Sections -/

variable {p : Plan} (plain : p.Plain)

include plain

theorem braceless_ident {k : PlannedKernel} (mem : k ∈ p.kernels) : Braceless k.kernel.ident :=
  (plain.kernels k mem).ident

theorem tidy_declarations : Each Stmt.Tidy (declarations p) := by
  have queues (k : PlannedKernel) (mem : k ∈ p.kernels) := braceless_ident plain mem
  have ranges (k : PlannedKernel) (mem : k ∈ p.kernels) :
      Each Stmt.Tidy (rangeDeclarations k.kernel) := by
    have kernel := plain.kernels k mem
    simpa +decide [rangeDeclarations, declareValue, kernel.ident, kernel.globalSizes]
      using kernel.localSizes
  simpa +decide [declarations, setupDeclarations, runDeclarations, declareValue, declareBare,
    declarePointer, declareHandle] using ⟨queues, ranges⟩

theorem plain_hostPlaced {w : Placed} (mem : w ∈ p.hostPlaced) :
    w.Plain ∧ Braceless w.decl.name := by
  have known := plain.placed w (List.mem_filter.mp mem).1
  exact ⟨known, known.decl.name (List.mem_filter.mp mem).2⟩

theorem braceless_heap {var : Var} (mem : var ∈ heap p) : Braceless var.text := by
  obtain ⟨w, w_mem, mem⟩ := List.mem_flatMap.mp mem
  have name := (plain_hostPlaced plain w_mem).2
  simp only [heapOf, List.mem_append] at mem
  rcases mem with mem | mem <;> split at mem <;> simp_all

theorem tidy_hostVariables : Each Stmt.Tidy (hostVariables p) := by
  have declared (w : Placed) (mem : w ∈ p.hostPlaced) :
      Each Stmt.Tidy (declareVariable p.template w) := by
    obtain ⟨known, name⟩ := plain_hostPlaced plain mem
    exact tidy_declareVariable known name _
  have allocated : Each Stmt.Tidy (allocationPhase p) := by
    have heap (var : Var) (mem : var ∈ heap p) := braceless_heap plain mem
    simpa +decide [allocationPhase] using fun _ => heap
  have filled (w : Placed) (mem : w ∈ p.hostPlaced) : Each Stmt.Tidy (fills w) := by
    obtain ⟨known, name⟩ := plain_hostPlaced plain mem
    have own := tidy_fill w (.host w.decl.name) (by simpa using name) known.initial
    have copy (contents : Contents) (held : w.layout.reference = some contents) :=
      tidy_fill w (.reference w.decl.name) (by simpa using name) (known.reference contents held)
    cases reference : w.layout.reference <;> simp_all [fills]
  have generated : Each Stmt.Tidy (fillPhase p) := by
    simpa +decide [fillPhase] using fun _ _ _ => filled
  simpa +decide [hostVariables, allocated, generated] using declared

theorem tidy_hookCall (hook : Hook) : Each Stmt.Tidy (hookCall p hook) := by
  have title : Braceless hook.title := by cases hook <;> decide
  have arguments : ∀ e ∈ p.signature.arguments hook.perPass, Braceless e.text := by
    intro e mem
    simp only [Signature.arguments, List.mem_append, List.mem_flatMap, List.mem_cons] at mem
    rcases mem with ⟨x, x_mem, rfl | mem⟩ | mem
    · simpa using (plain.params x x_mem).var
    · split at mem <;> simp_all
    · split at mem <;> simp_all
  simp +decide [hookCall, title]
  exact fun _ => arguments

/-! ### Set-up -/

theorem tidy_openPhase : Each Stmt.Tidy (openPhase p) := by
  have path := plain.path
  cases program : p.settings.program <;>
    simp_all +decide [openPhase, programKind, openMode, ProgramSource.path]

theorem tidy_readPhase : Each Stmt.Tidy (readPhase p) := by
  have path := plain.path
  cases program : p.settings.program <;>
    simp_all +decide [readPhase, programKind, ProgramSource.path, Code.Failure.call]

omit plain in
theorem tidy_programPhase : Each Stmt.Tidy (programPhase p) := by
  cases program : p.settings.program <;>
    simp +decide [programPhase, createProgram, program, programKind, chosenDevice, statusAddress]

theorem tidy_bindArgument {k : PlannedKernel} (k_mem : k ∈ p.kernels) {a : Argument}
    (mem : a ∈ k.arguments) : Each Stmt.Tidy (bindArgument k.kernel.ident a) := by
  have bound := plain.arguments k k_mem a mem
  simp [bindArgument, braceless_ident plain k_mem, bound.size, bound.address, bound.label]

theorem tidy_bufferPhase : Each Stmt.Tidy (bufferPhase p) := by
  have created (b : Buffer) (mem : b ∈ p.buffers) : Each Stmt.Tidy (createBuffer b) := by
    have known := plain.buffers b mem
    cases access : b.access <;>
      simp +decide [createBuffer, access, BufferAccess.flags, BufferAccess.copiesHost,
        statusAddress, known.size, known.hostAddress, known.handle]
  simpa +decide [bufferPhase] using fun _ => created

theorem tidy_setup : Each Stmt.Tidy (setup p) := by
  have queues (k : PlannedKernel) (mem : k ∈ p.kernels) :
      Each Stmt.Tidy (queuePhase p k.kernel) := by
    have kernel := plain.kernels k mem
    cases api : p.settings.api <;>
      simp +decide [queuePhase, createQueue, api, kernel.name, kernel.ident, chosenDevice,
        statusAddress]
  have kernels (k : PlannedKernel) (mem : k ∈ p.kernels) :
      Each Stmt.Tidy (kernelPhase k.kernel) := by
    have kernel := plain.kernels k mem
    simp +decide [kernelPhase, kernel.name, kernel.ident, statusAddress]
  have arguments (k : PlannedKernel) (mem : k ∈ p.kernels) : Each Stmt.Tidy (argumentPhase k) := by
    have bound (a : Argument) (a_mem : a ∈ k.arguments) := tidy_bindArgument plain mem a_mem
    have name := (plain.kernels k mem).name
    simpa +decide [argumentPhase, name] using fun _ => bound
  simp +decide [setup, platformPhase, devicePhase, allocateList, demandIndex, chosenPlatform,
    contextPhase, buildPhase, chosenDevice, statusAddress, Code.Failure.call,
    tidy_openPhase plain, tidy_readPhase plain, tidy_programPhase, tidy_bufferPhase plain]
  exact ⟨queues, kernels, arguments⟩

/-! ### The run -/

theorem tidy_uploads_downloads :
    Each Stmt.Tidy (uploads p) ∧ Each Stmt.Tidy (downloads p) := by
  have transferred {callee : Callee} (own : ∀ name, callee ≠ .generator name) (b : Buffer)
      (mem : b ∈ p.buffers) : Each Stmt.Tidy (transfer callee b) := by
    have known := plain.buffers b mem
    simp +decide [transfer, own, known.queue, known.size, known.hostAddress, known.handle]
  constructor
  all_goals
    simp only [uploads, downloads, Each.flatMap_iff, List.mem_filter]
    exact fun b mem => transferred (by simp) b mem.1

theorem tidy_rebinds : Each Stmt.Tidy (rebinds p) := by
  simp only [rebinds, Each.flatMap_iff, List.mem_filter]
  exact fun k k_mem a mem => tidy_bindArgument plain k_mem mem.1

theorem tidy_launches : Each Stmt.Tidy (launches p) := by
  rw [launches, Each.flatMap_iff]
  intro l _
  cases found : p.kernels[l.kernel]? with
  | none => simp
  | some k =>
      have kernel := plain.kernels k (List.mem_of_getElem? found)
      cases wait : l.wait <;> cases signal : l.signal <;>
        cases sizes : k.kernel.range.localSizes <;>
        simp [launch, wait, signal, sizes, kernel.ident, kernel.name]

theorem tidy_pass (perPass : Bool) : Each Stmt.Tidy (pass p perPass) := by
  obtain ⟨uploads, downloads⟩ := tidy_uploads_downloads plain
  have queues (k : PlannedKernel) (mem : k ∈ p.kernels) := braceless_ident plain mem
  simp +decide [pass, uploadPhase, launchPhase, downloadPhase, eventPhase, uploads, downloads,
    tidy_rebinds plain, tidy_launches plain, releaseList, readClock, elapsed]
  exact queues

theorem tidy_run : Each Stmt.Tidy (run p) := by
  unfold run
  split
  · exact tidy_pass plain false
  · simp +decide [tidy_hookCall plain, tidy_pass plain]

omit plain in
theorem tidy_compareOutput {c : Check} (known : c.Plain) : Each Stmt.Tidy (compareOutput c) := by
  have loops : ∀ l ∈ c.loops, Braceless l.1.text := by
    simp only [Check.loops, List.forall_mem_append, List.forall_mem_map]
    exact ⟨by simp, by split <;> simp⟩
  have note : Braceless c.comparison.note := by
    cases c.comparison <;> simp +decide [Comparison.note]
  have format : ∀ piece ∈ mismatchFormat c, Braceless piece.render := by
    have location : ∀ piece ∈ c.location, Braceless piece.render := by
      unfold Check.location
      cases c.elementIndex? <;> cases c.laneIndex? <;> simp +decide [known.output]
    simp only [mismatchFormat, List.forall_mem_append]
    exact ⟨⟨by simp +decide, location⟩, by simp +decide [known.format, note]⟩
  have message : Braceless (Call.mk .printf (.literal (mismatchFormat c) ::
      (c.locationArgs.map Expr.var ++ [c.expected, c.actual]))).text := by
    have values : ∀ e ∈ c.locationArgs.map Expr.var ++ [c.expected, c.actual],
        Braceless e.text := by
      simp only [List.forall_mem_append, List.forall_mem_map, Check.locationArgs]
      exact ⟨by simpa using loops, by simp [known.expected, known.actual]⟩
    rw [Code.braceless_call, List.forall_mem_cons]
    exact ⟨by simp, by simpa using format, values⟩
  have first : Braceless (Call.mk .printFail []).text ∧ Braceless "true" := by decide
  refine tidy_nest loops ?_
  simp [reportMismatch, known.test, first, message, -Code.braceless_call]

theorem tidy_validation : Each Stmt.Tidy (validation p) := by
  simp +decide [validation, announce, succeed]
  exact fun _ c mem => tidy_compareOutput (plain.checks c mem)

theorem tidy_verdict : Each Stmt.Tidy (verdict p) := by
  have report : Each Stmt.Tidy (profilingReport p) := by
    have texts : Braceless "Print profiling results" ∧
        Braceless "Elapsed time spent on kernels: " ∧ Braceless "ld" ∧
        Braceless " us; Average time per iteration: " ∧ Braceless "lf" ∧
        Braceless " us.\\n" ∧ Braceless "double" := by
      decide
    simp [profilingReport, texts]
  simp [verdict, report, tidy_hookCall plain, tidy_validation plain]

theorem tidy_cleanup : Each Stmt.Tidy (cleanup p) := by
  have buffers (b : Buffer) (mem : b ∈ p.buffers) := (plain.buffers b mem).handle
  have idents (k : PlannedKernel) (mem : k ∈ p.kernels) := braceless_ident plain mem
  have heap (var : Var) (mem : var ∈ heap p) := braceless_heap plain mem
  simp +decide [cleanup, releaseList, tidy_hookCall plain, -List.map_reverse]
  exact ⟨.inr buffers, .inr idents, .inr heap⟩

/-- The body of `main` -/
theorem tidy_body : Each Stmt.Tidy (body p) := by
  simp [body, tidy_declarations plain, tidy_hostVariables plain, tidy_hookCall plain,
    tidy_setup plain, tidy_run plain, tidy_verdict plain, tidy_cleanup plain]

end Host
end KernelHost
