import KernelHost.Proofs.Code.Declared
import KernelHost.Proofs.Code.Operands
import KernelHost.Proofs.Freshness.Wired

/-!
# Known variables

A variable is known if `main` declares it.  The declarations all stand in front of everything that
uses a variable, so it is enough for each section behind them to use known variables only.
-/

namespace KernelHost.Host

open Code (Expr Stmt Var gather)

/-- The program declares a variable. -/
def Known (p : Plan) (v : Var) : Prop :=
  v ∈ gather Stmt.declares (body p)

theorem mem_copyVars {template : Template} {w : Placed} {v : Var} :
    v ∈ copyVars template w ↔
      (w.layout.reference.isSome ∧
        (.reference w.decl.name = v ∨ w.decl.tolerance.isSome ∧ .tolerance w.decl.name = v)) ∨
      ∃ b, w.buffer? template = some b ∧ .buffer b.host = v := by
  cases reference : w.layout.reference <;> cases tolerance : w.decl.tolerance <;>
    simp [copyVars, Buffer.handle, reference, tolerance, eq_comm (a := v), or_assoc]

theorem mem_rangeVars {k : Kernel} {v : Var} :
    v ∈ rangeVars k ↔ .workDim k.ident = v ∨ .globalSize k.ident = v ∨
      k.range.localSizes.isSome ∧ .localSize k.ident = v := by
  by_cases sizes : k.range.localSizes.isSome = true <;>
    simp [rangeVars, sizes, eq_comm (a := v)]

theorem mem_runVars {p : Plan} {v : Var} :
    v ∈ runVars p ↔ p.template = .loop ∧ v = .loopFlag ∨ v = .invalidDataFound ∨
      v = .iterations ∨
      p.settings.profiling ∧ (v = .timeBefore ∨ v = .timeAfter ∨ v = .execTime) := by
  by_cases loop : p.template = .loop <;> by_cases profiled : p.settings.profiling = true <;>
    simp [runVars, loop, profiled]

section Known

variable {p : Plan} {name ident : String}

@[simp]
theorem known_fixed :
    Known p .exitCode ∧ Known p .i ∧ Known p .j ∧ Known p .callStatus ∧ Known p .platformsLen ∧
      Known p .devicesLen ∧ Known p .platforms ∧ Known p .devices ∧ Known p .context ∧
      Known p .programFile ∧ Known p .programSize ∧ Known p .programContent ∧
      Known p .programStatus ∧ Known p .program ∧ Known p .invalidDataFound ∧
      Known p .iterations := by
  simp [Known, declares_body, discoveryVars, loadingVars, mem_runVars]

@[simp]
theorem known_loopFlag : Known p .loopFlag ↔ p.template = .loop := by
  simp [Known, declares_body, discoveryVars, loadingVars, mem_runVars, tierVars, mem_rangeVars,
    mem_copyVars]

@[simp]
theorem known_clock :
    (Known p .timeBefore ↔ p.settings.profiling) ∧ (Known p .timeAfter ↔ p.settings.profiling) ∧
      (Known p .execTime ↔ p.settings.profiling) := by
  simp [Known, declares_body, discoveryVars, loadingVars, mem_runVars, tierVars, mem_rangeVars,
    mem_copyVars]

@[simp]
theorem known_tierDone {tier : Nat} : Known p (.tierDone tier) ↔ tier < p.schedule.boundaries := by
  simp [Known, declares_body, discoveryVars, loadingVars, mem_runVars, tierVars, mem_rangeVars,
    mem_copyVars]

theorem known_ofKernel :
    (Known p (.queue ident) ↔ ∃ k ∈ p.kernels, k.kernel.ident = ident) ∧
      (Known p (.kernel ident) ↔ ∃ k ∈ p.kernels, k.kernel.ident = ident) ∧
      (Known p (.workDim ident) ↔ ∃ k ∈ p.kernels, k.kernel.ident = ident) ∧
      (Known p (.globalSize ident) ↔ ∃ k ∈ p.kernels, k.kernel.ident = ident) ∧
      (Known p (.localSize ident) ↔
        ∃ k ∈ p.kernels, k.kernel.range.localSizes.isSome ∧ k.kernel.ident = ident) := by
  simp [Known, declares_body, discoveryVars, loadingVars, mem_runVars, tierVars, mem_rangeVars,
    mem_copyVars]

theorem known_ofVariable :
    (Known p (.host name) ↔ ∃ w ∈ p.hostPlaced, w.decl.name = name) ∧
      (Known p (.reference name) ↔
        ∃ w ∈ p.hostPlaced, w.layout.reference.isSome ∧ w.decl.name = name) ∧
      (Known p (.tolerance name) ↔
        ∃ w ∈ p.hostPlaced, w.layout.reference.isSome ∧ w.decl.tolerance.isSome ∧
          w.decl.name = name) ∧
      (Known p (.buffer name) ↔
        ∃ w ∈ p.hostPlaced, ∃ b, w.buffer? p.template = some b ∧ b.host = name) := by
  simp [Known, declares_body, discoveryVars, loadingVars, mem_runVars, tierVars, mem_rangeVars,
    mem_copyVars, eq_comm (a := name)]

end Known

/-! ## What a plan has is known -/

section Plan

variable {p : Plan}

/-- What belongs to a kernel is known. -/
theorem known_of_kernel {k : PlannedKernel} (mem : k ∈ p.kernels) :
    Known p (.queue k.kernel.ident) ∧ Known p (.kernel k.kernel.ident) ∧
      Known p (.workDim k.kernel.ident) ∧ Known p (.globalSize k.kernel.ident) := by
  simp only [known_ofKernel]
  exact ⟨⟨k, mem, rfl⟩, ⟨k, mem, rfl⟩, ⟨k, mem, rfl⟩, ⟨k, mem, rfl⟩⟩

/-- What a buffer is moved with is known: its handle, its variable and the queue. -/
theorem known_of_buffer (wellFormed : p.WellFormed) {b : Buffer} (mem : b ∈ p.buffers) :
    Known p b.handle ∧ Known p (.queue b.queue) ∧
      ∀ x ∈ b.hostAddress.stands, Known p x.1 := by
  obtain ⟨v, v_mem, made⟩ := exists_of_mem_buffers wellFormed mem
  obtain ⟨host, queue, -, -⟩ := size_of_buffer? made
  obtain ⟨k, k_mem, placed, -⟩ := Plan.mem_hostPlaced.mp v_mem
  have kernel := (wellFormed.stands k k_mem v placed).kernel
  have value : Known p (.host b.host) := known_ofVariable.1.mpr ⟨v, v_mem, host.symm⟩
  refine ⟨?_, ?_, ?_⟩
  · exact known_ofVariable.2.2.2.mpr ⟨v, v_mem, b, made, rfl⟩
  · rw [queue, kernel]
    exact (known_of_kernel k_mem).1
  · rw [Buffer.hostAddress]
    split <;> simpa using value

end Plan

end KernelHost.Host
