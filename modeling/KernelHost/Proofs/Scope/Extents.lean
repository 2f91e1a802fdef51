import KernelHost.Proofs.Scope.Sites

/-!
# Extents

How the variables of `main` are declared, as single values or with a length.  The declarations are
the opening of the program: they use no variable, and nothing behind them declares one.
-/

namespace KernelHost

open Code (Each Stmt Var gather gather_cons)

/-- The variables that a statement declares, with how they are kept if that can be told. -/
def Code.Stmt.extents : Stmt → List (Var × Host.Extent)
  | .declare type items => items.filterMap fun d => (Host.extent? type d).map (d.var, ·)
  | .declareList type var size _ => (Host.extent? type { var, size }).toList.map (var, ·)
  | _ => []

namespace Host

variable {p : Plan}

/-- The program declares a variable that is kept in the given way. -/
def HasExtent (p : Plan) (v : Var) (e : Extent) : Prop :=
  (v, e) ∈ gather Stmt.extents (body p)

/-! ## The opening -/

/-- All declarations of the program. -/
def opening (p : Plan) : List Stmt :=
  declarations p ++ [.blank, .comment "Input/output variables"] ++
    p.hostPlaced.flatMap (declareVariable p.template)

/-- What stands behind the declarations. -/
def behindOpening (p : Plan) : List Stmt :=
  allocationPhase p ++ fillPhase p ++ hookCall p .preamble ++ setup p ++ run p ++ verdict p ++
    cleanup p

theorem body_eq (p : Plan) : body p = opening p ++ behindOpening p := by
  simp [body, opening, behindOpening, hostVariables]

theorem declares_behindOpening (p : Plan) : gather Stmt.declares (behindOpening p) = [] := by
  simp [behindOpening, allocationPhase, fillPhase, demand, Stmt.within, Stmt.declares,
    declares_fills, declares_setup, declares_run, declares_verdict, declares_cleanup]

/-- A statement has no block in it, uses no variable, names known constants and calls nothing but
the allocation. -/
structure Opens (s : Stmt) : Prop where
  within : s.within = [s]
  uses : s.uses = []
  constants : ∀ name ∈ s.constants, name ∈ constantNames
  made : ∀ call ∈ s.made, call.callee = .malloc

@[simp]
theorem opens_idle :
    Opens .blank ∧ (∀ text, Opens (.comment text)) ∧
      ∀ type v size content, Opens (.declareList type v size content) := by
  have nothing {s : Stmt} (within : s.within = [s]) (operands : s.operands = [])
      (reads : s.reads = []) (made : s.made = []) : Opens s :=
    ⟨within, by simp [Stmt.uses, operands, reads], by simp [Stmt.constants, operands],
      by simp [made]⟩
  exact ⟨nothing rfl rfl rfl rfl, fun _ => nothing rfl rfl rfl rfl,
    fun _ _ _ _ => nothing rfl rfl rfl rfl⟩

@[simp]
theorem opens_declare {type : String} {items : List Code.Declarator}
    (each : ∀ d ∈ items, (∀ e ∈ d.initial.operands, e.stands = [] ∧
      ∀ name ∈ e.constants, name ∈ constantNames) ∧
      ∀ call ∈ d.initial.made, call.callee = .malloc) :
    Opens (.declare type items) := by
  refine ⟨rfl, ?_, fun name mem => ?_, fun call mem => ?_⟩
  · simp only [Stmt.uses, Stmt.operands, Stmt.reads, List.append_nil, List.map_eq_nil_iff,
      List.flatMap_eq_nil_iff]
    intro e mem
    obtain ⟨d, d_mem, e_mem⟩ := List.mem_flatMap.mp mem
    exact ((each d d_mem).1 e e_mem).1
  · obtain ⟨e, e_mem, named⟩ := List.mem_flatMap.mp mem
    obtain ⟨d, d_mem, of⟩ := List.mem_flatMap.mp e_mem
    exact ((each d d_mem).1 e of).2 name named
  · obtain ⟨d, d_mem, call_mem⟩ := List.mem_flatMap.mp mem
    exact (each d d_mem).2 call call_mem

@[simp]
theorem operands_initial :
    Code.Initial.none.operands = [] ∧ (∀ e, (Code.Initial.value e).operands = [e]) ∧
      (∀ call, (Code.Initial.result call).operands = call.args) ∧
      ∀ count, (Code.Initial.nulls count).operands = List.replicate count .null :=
  ⟨rfl, fun _ => rfl, fun _ => rfl, fun _ => rfl⟩

@[simp]
theorem made_initial :
    Code.Initial.none.made = [] ∧ (∀ e, (Code.Initial.value e).made = []) ∧
      (∀ call, (Code.Initial.result call).made = [call]) ∧
      ∀ count, (Code.Initial.nulls count).made = [] :=
  ⟨rfl, fun _ => rfl, fun _ => rfl, fun _ => rfl⟩

theorem opens_declareStorage (v : Placed) (var : Var) (contents : Contents) :
    ∀ s ∈ (declareStorage v var contents).within, Opens s := by
  unfold declareStorage
  split <;> split_ifs <;> simp [declareValue, declareBare]

/-- The opening has no blocks in it, and nothing in it uses a variable. -/
theorem opens_opening (p : Plan) : Each Opens (opening p) := by
  have copies (v : Placed) : Each Opens (declareVariable p.template v) := by
    have value := opens_declareStorage v (.host v.decl.name) v.layout.initial
    cases reference : v.layout.reference with
    | none =>
        simpa [declareVariable, declareHandle, declareValue, reference] using value
    | some contents =>
        have copy := opens_declareStorage v (.reference v.decl.name) contents
        simpa [declareVariable, declareHandle, declareValue, reference] using ⟨value, copy⟩
  have ranges (k : Kernel) : Each Opens (rangeDeclarations k) := by
    simp [rangeDeclarations, declareValue]
  simp [opening, declarations, setupDeclarations, runDeclarations, declareHandle, declarePointer,
    declareValue, declareBare, copies, ranges]

theorem allWithin_eq_self {ss : List Stmt} (opens : Each Opens ss) : Stmt.allWithin ss = ss := by
  induction ss with
  | nil => rfl
  | cons s ss ih =>
      have head := (opens.of_mem List.mem_cons_self).within
      rw [Stmt.allWithin, head, ih (Each.cons_iff.mp opens).2]
      rfl

/-- What is used is declared in front, by a statement outside all blocks. -/
theorem declared_before {front back : List Stmt} {s : Stmt} {v : Var}
    (split : Stmt.allWithin (body p) = front ++ s :: back) (used : v ∈ s.uses) (known : Known p v) :
    ∃ d ∈ front, d ∈ body p ∧ v ∈ d.declares := by
  have flat : Stmt.allWithin (opening p) = opening p := allWithin_eq_self (opens_opening p)
  obtain ⟨d, d_mem, declares⟩ : ∃ d ∈ opening p, v ∈ d.declares := by
    rw [Known, body_eq, Code.gather_append, declares_behindOpening, List.append_nil,
      Code.gather, flat] at known
    exact List.mem_flatMap.mp known
  have inBody : d ∈ body p := by
    rw [body_eq]
    exact List.mem_append_left _ d_mem
  rw [body_eq, Stmt.allWithin_append, flat] at split
  -- The statement uses a variable, so it does not stand in the opening.
  obtain ⟨more, rfl, -⟩ | ⟨more, opening_eq, rest⟩ := List.append_eq_append_iff.mp split
  · exact ⟨d, List.mem_append_left _ d_mem, inBody, declares⟩
  · cases more with
    | nil => exact ⟨d, by simpa [opening_eq] using d_mem, inBody, declares⟩
    | cons t more =>
        obtain ⟨rfl, -⟩ := List.cons.inj ‹_›
        have opens := (opens_opening p).of_mem (s := s) (by simp [opening_eq])
        rw [opens.uses] at used
        simp at used

/-! ## How variables are kept -/

attribute [local simp] Stmt.extents extent?

/-- What declares nothing tells nothing of how variables are kept. -/
theorem extents_eq_nil {ss : List Stmt} (declares : gather Stmt.declares ss = []) :
    gather Stmt.extents ss = [] := by
  refine List.flatMap_eq_nil_iff.mpr fun s mem => ?_
  have none := List.flatMap_eq_nil_iff.mp declares s mem
  cases s with
  | declare type items =>
      obtain rfl : items = [] := List.map_eq_nil_iff.mp none
      rfl
  | declareList type var size content => simp [Stmt.declares] at none
  | _ => rfl

theorem extents_declareStorage (v : Placed) (var : Var) (contents : Contents) :
    (declareStorage v var contents).within.flatMap Stmt.extents = [(var, extentOf v)] := by
  unfold declareStorage
  split <;> split_ifs <;>
    simp_all [declareValue, declareBare, extentOf, Code.Expr.bytesOf]

theorem mem_extents_declareVariable {template : Template} {v : Placed} {x : Var} {e : Extent} :
    (x, e) ∈ gather Stmt.extents (declareVariable template v) ↔
      x = .host v.decl.name ∧ e = extentOf v ∨
      v.layout.reference.isSome ∧
        (x = .reference v.decl.name ∧ e = extentOf v ∨
          v.decl.tolerance.isSome ∧ x = .tolerance v.decl.name ∧ e = ⟨"double", none⟩) ∨
      ∃ b ∈ v.buffer? template, x = .buffer b.host ∧ e = ⟨"cl_mem", none⟩ := by
  cases reference : v.layout.reference <;> cases tolerance : v.decl.tolerance <;>
    cases buffer : v.buffer? template <;>
    simp [declareVariable, reference, tolerance, buffer, gather_cons, extents_declareStorage,
      declareHandle, declareValue, Buffer.handle, or_assoc]

/-- Of the variables with lengths that later sections subscript, the declarations in front of
those of the manifest keep the completion lists only. -/
theorem mem_extents_declarations {e : Extent} :
    (∀ name, (.host name, e) ∉ gather Stmt.extents (declarations p)) ∧
      (∀ name, (.reference name, e) ∉ gather Stmt.extents (declarations p)) ∧
      (∀ tier, (.tierDone tier, e) ∈ gather Stmt.extents (declarations p) ↔
        tier < p.schedule.boundaries ∧
          e = ⟨"cl_event", some (p.schedule.listLength tier)⟩) ∧
      (.platforms, e) ∉ gather Stmt.extents (declarations p) ∧
      (.devices, e) ∉ gather Stmt.extents (declarations p) ∧
      (.programContent, e) ∉ gather Stmt.extents (declarations p) := by
  simp [declarations, setupDeclarations, runDeclarations, rangeDeclarations, declareHandle,
    declarePointer, declareValue, declareBare, gather_cons]

section Extents

variable {name : String} {tier : Nat} {e : Extent}

theorem hasExtent_iff {v : Var} :
    HasExtent p v e ↔ (v, e) ∈ gather Stmt.extents (declarations p) ∨
      ∃ w ∈ p.hostPlaced, (v, e) ∈ gather Stmt.extents (declareVariable p.template w) := by
  have behind := extents_eq_nil (declares_behindOpening p)
  simp [HasExtent, body_eq, behind, opening, gather_cons]

theorem hasExtent_host :
    HasExtent p (.host name) e ↔ ∃ w ∈ p.hostPlaced, w.decl.name = name ∧ e = extentOf w := by
  simp [hasExtent_iff, mem_extents_declarations, mem_extents_declareVariable, eq_comm (a := name)]

theorem hasExtent_reference :
    HasExtent p (.reference name) e ↔
      ∃ w ∈ p.hostPlaced, w.layout.reference.isSome ∧ w.decl.name = name ∧ e = extentOf w := by
  simp [hasExtent_iff, mem_extents_declarations, mem_extents_declareVariable, eq_comm (a := name)]

theorem hasExtent_tierDone :
    HasExtent p (.tierDone tier) e ↔ tier < p.schedule.boundaries ∧
      e = ⟨"cl_event", some (p.schedule.listLength tier)⟩ := by
  simp [hasExtent_iff, mem_extents_declarations, mem_extents_declareVariable]

/-- Of the lists that the set-up fills in, no length is declared. -/
theorem not_hasExtent :
    ¬ HasExtent p .platforms e ∧ ¬ HasExtent p .devices e ∧ ¬ HasExtent p .programContent e := by
  simp [hasExtent_iff, mem_extents_declarations, mem_extents_declareVariable]

/-- A variable and its copy are kept in one way. -/
theorem extent_eq_of_hasExtent (wellFormed : p.WellFormed) {w : Placed} (mem : w ∈ p.hostPlaced)
    (has : HasExtent p (.host w.decl.name) e ∨ HasExtent p (.reference w.decl.name) e) :
    e = extentOf w := by
  obtain ⟨w', w'_mem, name, rfl⟩ : ∃ w' ∈ p.hostPlaced, w'.decl.name = w.decl.name ∧
      e = extentOf w' := by
    rcases has with has | has
    · exact hasExtent_host.mp has
    · obtain ⟨w', w'_mem, -, of⟩ := hasExtent_reference.mp has
      exact ⟨w', w'_mem, of⟩
  rw [List.inj_on_of_nodup_map wellFormed.names_nodup w'_mem mem name]

end Extents

end Host
end KernelHost
