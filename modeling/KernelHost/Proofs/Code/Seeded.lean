import KernelHost.Proofs.Code.Called
import KernelHost.Proofs.Code.Declared

/-!
# What `main` fills its variables with

Contents from the manifest reach a variable where it is declared, as text, or through the call of a
generator.  Of all that is kept for the variables of a manifest, the program fills exactly what
their layouts tell it to.
-/

namespace KernelHost

namespace Code

/-- The text that an initialization takes over. -/
def Initial.contents : Initial → List Contents
  | .value (.verbatim text) => [.literal text]
  | _ => []

/-- The storage that is handed over with an expression. -/
def Expr.storage : Expr → List Var
  | .var v | .address (.var v) => [v]
  | _ => []

/-- The variables that a statement fills by itself, with the contents. -/
def Stmt.seeds : Stmt → List (Var × Contents)
  | .declare _ items => items.flatMap fun d => d.initial.contents.map (d.var, ·)
  | .declareList _ var _ text => [(var, .literal text)]
  | .perform ⟨.generator name, target :: _⟩ => target.storage.map (·, .generator name)
  | _ => []

/-- A variable keeps a value of the manifest, or the reference copy of one. -/
def Var.isStorage : Var → Bool
  | .host _ | .reference _ => true
  | _ => false

end Code

namespace Host

open Code (Callee Stmt Var gather gather_append gather_cons)

attribute [local simp] Stmt.seeds Code.Initial.contents

variable {p : Plan} {var : Var} {c : Contents}

/-- What neither declares anything nor calls a generator fills nothing. -/
theorem seeds_eq_nil {ss : List Stmt} (undeclared : gather Stmt.declares ss = [])
    (uncalled : CallsNoGenerator ss) : gather Stmt.seeds ss = [] := by
  rw [gather, List.flatMap_eq_nil_iff] at undeclared ⊢
  intro s mem
  have declares := undeclared s mem
  have calls (name : String) : Callee.generator name ∉ s.calls := fun called =>
    uncalled name (List.mem_flatMap.mpr ⟨s, mem, called⟩)
  cases s with
  | declare type items => simp_all [Stmt.declares]
  | declareList type var size text => simp [Stmt.declares] at declares
  | perform call =>
      obtain ⟨callee, args⟩ := call
      cases callee with
      | generator name => exact absurd (List.mem_singleton_self _) (calls name)
      | _ => rfl
  | _ => rfl

theorem seeds_hookCall (p : Plan) (hook : Hook) : gather Stmt.seeds (hookCall p hook) = [] :=
  seeds_eq_nil (declares_hookCall p hook) fun name => generator_not_mem_hookCall name p hook

/-! ## Declarations -/

/-- The text of a manifest that the first section takes over is that of ranges. -/
theorem seeds_declarations (p : Plan) :
    gather Stmt.seeds (declarations p) = p.kernels.flatMap fun k =>
      (.globalSize k.kernel.ident, .literal k.kernel.range.globalSizes) ::
        k.kernel.range.localSizes.toList.map (.localSize k.kernel.ident, .literal ·) := by
  have range (k : Kernel) : gather Stmt.seeds (rangeDeclarations k) =
      (.globalSize k.ident, .literal k.range.globalSizes) ::
        k.range.localSizes.toList.map (.localSize k.ident, .literal ·) := by
    cases sizes : k.range.localSizes <;>
      simp [rangeDeclarations, declareValue, gather_cons, sizes]
  simp [declarations, setupDeclarations, runDeclarations, declareValue, declareBare, declarePointer,
    declareHandle, gather_cons, range, Code.Expr.null, Code.flatMap_nothing]

theorem mem_seeds_declareStorage {v : Placed} {contents : Contents} {x : Var × Contents} :
    x ∈ (declareStorage v var contents).within.flatMap Stmt.seeds ↔
      x = (var, contents) ∧ ∃ text, contents = .literal text := by
  unfold declareStorage
  cases contents <;> split_ifs <;>
    simp [declareValue, declareBare]

theorem mem_seeds_fill {v : Placed} {contents : Contents} {x : Var × Contents} :
    x ∈ gather Stmt.seeds (fill v var contents) ↔
      x = (var, contents) ∧ ∃ name, contents = .generator name := by
  cases contents with
  | generator name =>
      rw [fill]
      split_ifs <;> simp [gather_cons, Code.Expr.storage]
  | _ => simp [fill]

/-- Storage is filled with its contents, where it is declared or by a call. -/
theorem mem_seeds_declareStorage_or_fill (v : Placed) (var : Var) (contents : Contents)
    {x : Var × Contents} :
    x ∈ (declareStorage v var contents).within.flatMap Stmt.seeds ∨
        x ∈ gather Stmt.seeds (fill v var contents) ↔
      x = (var, contents) ∧ contents ≠ .outside := by
  rw [mem_seeds_declareStorage, mem_seeds_fill]
  cases contents <;> simp

@[simp]
theorem seeds_phase (title message : String) (perPass : Bool) (ss : List Stmt) :
    gather Stmt.seeds (phase title perPass message ss) = gather Stmt.seeds ss := by
  cases perPass <;> simp [phase, announce, succeed, gather_cons]

theorem seeds_hostVariables (p : Plan) :
    gather Stmt.seeds (hostVariables p) =
      p.hostPlaced.flatMap (fun v => gather Stmt.seeds (declareVariable p.template v)) ++
        p.hostPlaced.flatMap fun v => gather Stmt.seeds (fills v) := by
  have allocated : gather Stmt.seeds (allocationPhase p) = [] := by
    simp [allocationPhase, demand]
  have filled : gather Stmt.seeds (fillPhase p) =
      p.hostPlaced.flatMap fun v => gather Stmt.seeds (fills v) := by
    rw [fillPhase, ← Code.gather_flatMap]
    split_ifs with none
    · rw [List.isEmpty_iff.mp none]
    · exact seeds_phase _ _ _ _
  simp [hostVariables, gather_cons, allocated, filled]

section Storage

variable (storage : var.isStorage) {template : Template} {v : Placed}

include storage

theorem mem_seeds_declareVariable :
    (var, c) ∈ gather Stmt.seeds (declareVariable template v) ↔
      (var, c) ∈ (declareStorage v (.host v.decl.name) v.layout.initial).within.flatMap
          Stmt.seeds ∨
        ∃ contents, v.layout.reference = some contents ∧
          (var, c) ∈ (declareStorage v (.reference v.decl.name) contents).within.flatMap
            Stmt.seeds := by
  have handle : (var, c) ∉ gather Stmt.seeds
      ((v.buffer? template).toList.map fun b => declareHandle "cl_mem" b.handle) := by
    simp [declareHandle, declareValue, Code.Expr.null]
  have tolerance : (var, c) ∉ gather Stmt.seeds
      (v.decl.tolerance.toList.map fun t =>
        declareValue "double" (.tolerance v.decl.name) (.verbatim t.text)) := by
    have other : var ≠ .tolerance v.decl.name := by
      rintro rfl
      cases storage
    simp [declareValue, other]
  cases reference : v.layout.reference <;>
    simp only [declareVariable, reference, Option.elim, gather_append, gather_cons,
      List.mem_append, handle, tolerance, Code.gather_nil, List.not_mem_nil, or_false,
      reduceCtorEq, false_and, exists_false, Option.some.injEq, exists_eq_left']

/-- A variable and its reference copy are given the contents of the layout. -/
theorem mem_seeds_of_storage :
    (var, c) ∈ gather Stmt.seeds (declareVariable template v) ∨
        (var, c) ∈ gather Stmt.seeds (fills v) ↔
      c ≠ .outside ∧ (var = .host v.decl.name ∧ v.layout.initial = c ∨
        var = .reference v.decl.name ∧ v.layout.reference = some c) := by
  have filled : (var, c) ∈ gather Stmt.seeds (fills v) ↔
      (var, c) ∈ gather Stmt.seeds (fill v (.host v.decl.name) v.layout.initial) ∨
        ∃ contents, v.layout.reference = some contents ∧
          (var, c) ∈ gather Stmt.seeds (fill v (.reference v.decl.name) contents) := by
    cases reference : v.layout.reference <;> simp [fills, reference]
  have own := mem_seeds_declareStorage_or_fill v (.host v.decl.name) v.layout.initial
    (x := (var, c))
  have copied (contents : Contents) :=
    mem_seeds_declareStorage_or_fill v (.reference v.decl.name) contents (x := (var, c))
  rw [mem_seeds_declareVariable storage, filled, or_or_or_comm, ← exists_or]
  simp only [← and_or_left, own, copied, Prod.mk.injEq]
  constructor
  · rintro (⟨⟨rfl, rfl⟩, given⟩ | ⟨_, reference, ⟨rfl, rfl⟩, given⟩)
    · exact ⟨given, .inl ⟨rfl, rfl⟩⟩
    · exact ⟨given, .inr ⟨rfl, reference⟩⟩
  · rintro ⟨given, ⟨rfl, rfl⟩ | ⟨rfl, reference⟩⟩
    · exact .inl ⟨⟨rfl, rfl⟩, given⟩
    · exact .inr ⟨c, reference, ⟨rfl, rfl⟩, given⟩

/-- The program gives storage the contents of the layouts, and no others. -/
theorem mem_seeds_body :
    (var, c) ∈ gather Stmt.seeds (body p) ↔
      c ≠ .outside ∧ ∃ v ∈ p.hostPlaced, var = .host v.decl.name ∧ v.layout.initial = c ∨
        var = .reference v.decl.name ∧ v.layout.reference = some c := by
  have first : (var, c) ∉ gather Stmt.seeds (declarations p) := by
    rw [seeds_declarations]
    intro mem
    obtain ⟨k, -, mem⟩ := List.mem_flatMap.mp mem
    rcases List.mem_cons.mp mem with same | mem
    · cases same
      cases storage
    · obtain ⟨sizes, -, same⟩ := List.mem_map.mp mem
      cases same
      cases storage
  have setup := seeds_eq_nil (declares_setup p) (callsNoGenerator_setup p)
  have run := seeds_eq_nil (declares_run p) (callsNoGenerator_run p)
  have verdict := seeds_eq_nil (declares_verdict p) (callsNoGenerator_verdict p)
  have cleanup := seeds_eq_nil (declares_cleanup p) (callsNoGenerator_cleanup p)
  rw [body]
  simp only [gather_append, List.mem_append, first, setup, run, verdict, cleanup, seeds_hookCall,
    List.not_mem_nil, or_false, false_or, seeds_hostVariables, List.mem_flatMap,
    ← exists_or, ← and_or_left, mem_seeds_of_storage storage]
  constructor
  · rintro ⟨v, mem, given, held⟩
    exact ⟨given, v, mem, held⟩
  · rintro ⟨given, v, mem, held⟩
    exact ⟨v, mem, given, held⟩

end Storage

end Host
end KernelHost
