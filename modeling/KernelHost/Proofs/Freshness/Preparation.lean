import KernelHost.Proofs.Freshness.Moves

/-!
# Preparation

What the host program does before the run: it declares the variables, creates the buffers, of which
some begin as copies of their variables, and passes the arguments to the kernels.  Behind the set-up
the plan is wired, and nothing on the host has changed since the values were passed.
-/

namespace KernelHost.Host

open Code (Call Declarator Each Expr Stmt Var reportsStatus)

variable {α : Type} {p : Plan}

/-! ## Checked calls -/

/-- A call whose success is checked: what it does if it succeeds is all that matters. -/
theorem dataTriple_call {v : Var} {call : Call} {object : Option String} {P Q : Data α → Prop}
    (reports : reportsStatus v call)
    (observed : ∀ a : Stores α, P a.data → (dataContract α p).observed (.store (.var v) call) a)
    (yields : ∀ a b : Data α, P a → a.Yields v call b → Q b) :
    DataTriple p P [.store (.var v) call, checkStatus call.callee object] Q := by
  refine Code.Contract.Triple.cons (Q := fun a => a.succeeded = true → Q a.data)
    (.plain rfl fun a pre => ⟨observed a pre, fun b done => ?_⟩)
    (.ensure (fun a b behind given => ?_) fun a b _ given => ⟨?_, fun _ _ => trivial⟩)
  · obtain ⟨finished, moved, status⟩ := done
    intro succeeded
    rw [← status reports, succeeded] at moved
    exact yields a.data b.data pre moved
  · obtain ⟨rfl, succeeded⟩ := given
    exact behind (succeeded rfl).symm
  · exact observed_of_silent rfl (by simp) b

/-- A call for its status. -/
theorem dataTriple_callForStatus {call : Call} {object : Option String} {P Q : Data α → Prop}
    (observed : ∀ a : Stores α, P a.data →
      (dataContract α p).observed (.store (.var .callStatus) call) a)
    (makes : ∀ a b : Data α, P a → a.Makes call b → Q b) :
    DataTriple p P (callForStatus call object) Q := by
  refine dataTriple_call (.inl rfl) observed fun a b pre yields => ?_
  obtain ⟨c, made, rfl⟩ : ∃ c, a.Makes call c ∧ b = c := by
    unfold Data.Yields at yields
    split at yields
    · contradiction
    · exact yields
  exact makes a b pre made

/-! ## Variables -/

/-- How variables are kept behind the declaration of one. -/
def extentsWith (extents : String → Option Extent) (v : Var) (e : Option Extent) :
    String → Option Extent :=
  match v with
  | .host name => Function.update extents name e
  | _ => extents

/-- A call that moves no data initializes a variable without touching the wiring. -/
theorem Data.Initializes.wiring {d : Declarator} {a b : Data α} (made : a.Initializes d b)
    (calls : ∀ call, d.initial = .result call → movesData call.callee = false) :
    b.wiring = a.wiring := by
  rw [Data.Initializes] at made
  split at made
  · rename_i call initial
    have harmless : Harmless true call := by
      simp [Harmless, calls call initial]
    exact (made.same harmless).wiring
  · rw [made]

theorem Data.Introduces.extent {type : String} {d : Declarator} {a b : Data α}
    (introduced : a.Introduces type d b) :
    b.wiring.extent = extentsWith a.wiring.extent d.var (extent? type d) := by
  rw [Data.Introduces] at introduced
  cases var : d.var with
  | host name =>
      rw [var] at introduced
      obtain ⟨x, rfl⟩ := introduced
      rfl
  | _ =>
      rw [var] at introduced
      simp_all [Data.Redefines, Wiring.hold, Wiring.unpass, extentsWith]

theorem extent_of_declares {type : String} {d : Declarator} {a b : Data α}
    (calls : ∀ call, d.initial = .result call → movesData call.callee = false)
    (done : a.Declares type d b) :
    b.wiring.extent = extentsWith a.wiring.extent d.var (extent? type d) := by
  obtain ⟨c, initialized, introduced⟩ := done
  rw [introduced.extent, initialized.wiring calls]

theorem extent_of_declare {type : String} {d : Declarator} {a b : Stores α}
    (calls : ∀ call, d.initial = .result call → movesData call.callee = false)
    (done : (storeMachine α).effect (.declare type [d]) a b) :
    b.data.wiring.extent = extentsWith a.data.wiring.extent d.var (extent? type d) := by
  obtain ⟨c, declared, same⟩ := done
  obtain rfl : b.data = c := same
  exact extent_of_declares calls declared

/-- A declaration of storage keeps its variable as it is laid out. -/
theorem extent_of_declareStorage {v : Placed} {var : Var} {contents : Contents} {a b : Stores α}
    (done : (storeMachine α).effect (declareStorage v var contents) a b) :
    b.data.wiring.extent = extentsWith a.data.wiring.extent var (some (extentOf v)) := by
  unfold declareStorage at done
  split at done
  · split_ifs at done with array vector
    · have declared : a.data.Declares v.decl.type { var, size := some v.layout.storage.count }
        b.data := done
      rw [extent_of_declares (by simp) declared]
      simp [extent?, extentOf, array]
    · have declared : a.data.Declares v.decl.type { var } b.data := done
      rw [extent_of_declares (by simp) declared]
      simp [extent?, extentOf, array]
    · rw [extent_of_declare (by simp) done]
      simp [extent?, extentOf, array]
  · split_ifs at done with array
    · rw [extent_of_declare (by simp [movesData]) done]
      simp [extent?, extentOf, array, Expr.bytesOf]
    · rw [extent_of_declare (by simp) done]
      simp [extent?, extentOf, array]

/-- A statement that stores nothing and counts no passes. -/
theorem dataTriple_plain {s : Stmt} {P Q : Data α → Prop} (plain : s.isPlain) (sure : isSure s)
    (does : ∀ a b : Stores α, P a.data → (storeMachine α).effect s a b → Q b.data) :
    DataTriple p P [s] Q :=
  .plain plain fun a pre => ⟨observed_of_sure sure a, fun b done => does a b pre done⟩

/-- Some variables are kept as they are laid out. -/
def Kept (vs : List Placed) (extents : String → Option Extent) : Prop :=
  ∀ v ∈ vs, extents v.decl.name = some (extentOf v)

/-- Variables that are not those of the manifest do not matter. -/
theorem dataTriple_declare_other {vs : List Placed} {type : String} {d : Declarator}
    (other : ∀ name, d.var ≠ .host name)
    (calls : ∀ call, d.initial = .result call → movesData call.callee = false) :
    DataTriple (α := α) p (fun a => Kept vs a.wiring.extent) [.declare type [d]]
      fun a => Kept vs a.wiring.extent := by
  refine dataTriple_plain rfl rfl fun a b kept done => ?_
  have same : extentsWith a.data.wiring.extent d.var (extent? type d) = a.data.wiring.extent := by
    cases var : d.var with
    | host name => exact absurd var (other name)
    | _ => rfl
  rwa [extent_of_declare calls done, same]

theorem dataTriple_declareVariable (wellFormed : p.WellFormed) {before behind : List Placed}
    {v : Placed} (split : p.hostPlaced = before ++ v :: behind) :
    DataTriple (α := α) p (fun a => Kept before a.wiring.extent) (declareVariable p.template v)
      fun a => Kept (before ++ [v]) a.wiring.extent := by
  have storage : DataTriple (α := α) p (fun a => Kept before a.wiring.extent)
      [declareStorage v (.host v.decl.name) v.layout.initial]
      fun a => Kept (before ++ [v]) a.wiring.extent := by
    obtain ⟨plain, sure⟩ := declareStorage_plain v (.host v.decl.name) v.layout.initial
    refine dataTriple_plain plain sure fun a b kept done w mem => ?_
    rw [extent_of_declareStorage done, extentsWith]
    obtain mem | rfl : w ∈ before ∨ w = v := by simpa using mem
    · have apart : w.decl.name ≠ v.decl.name := by
        have nodup := wellFormed.names_nodup
        rw [split, List.map_append, List.map_cons] at nodup
        exact (List.nodup_append.mp nodup).2.2 _ (List.mem_map_of_mem mem) _ (by simp)
      rw [Function.update_of_ne apart]
      exact kept w mem
    · exact Function.update_self ..
  have reference (contents : Contents) :
      DataTriple (α := α) p (fun a => Kept (before ++ [v]) a.wiring.extent)
        [declareStorage v (.reference v.decl.name) contents]
        fun a => Kept (before ++ [v]) a.wiring.extent := by
    obtain ⟨plain, sure⟩ := declareStorage_plain v (.reference v.decl.name) contents
    refine dataTriple_plain plain sure fun a b kept done => ?_
    rwa [extent_of_declareStorage done]
  have buffer : DataTriple (α := α) p (fun a => Kept (before ++ [v]) a.wiring.extent)
      ((v.buffer? p.template).toList.map fun b => declareHandle "cl_mem" b.handle)
      fun a => Kept (before ++ [v]) a.wiring.extent := by
    cases v.buffer? p.template with
    | none => exact .nil fun _ kept => kept
    | some b => exact dataTriple_declare_other (by simp [Buffer.handle]) (by simp)
  have tolerance : DataTriple (α := α) p (fun a => Kept (before ++ [v]) a.wiring.extent)
      (v.decl.tolerance.toList.map fun t =>
        declareValue "double" (.tolerance v.decl.name) (.verbatim t.text))
      fun a => Kept (before ++ [v]) a.wiring.extent := by
    cases v.decl.tolerance with
    | none => exact .nil fun _ kept => kept
    | some t => exact dataTriple_declare_other (by simp) (by simp)
  rw [declareVariable]
  cases v.layout.reference with
  | none => exact .cons storage buffer
  | some contents =>
      exact .append (.cons storage (.cons (reference contents) tolerance)) buffer

/-- Behind the declarations of the variables, all of them are kept as they are laid out. -/
theorem dataTriple_hostVariables (wellFormed : p.WellFormed) :
    DataTriple (α := α) p (fun _ => True) (hostVariables p) fun a => Extended p a.wiring := by
  have row : DataTriple (α := α) p (fun a => Kept [] a.wiring.extent)
      (p.hostPlaced.flatMap (declareVariable p.template))
      fun a => Kept p.hostPlaced a.wiring.extent :=
    dataTriple_flatMap (fun vs a => Kept vs a.wiring.extent)
      fun before v behind split => dataTriple_declareVariable wellFormed split
  have fill (v : Placed) (var : Var) (contents : Contents) :
      Each (sparesData true ·) (fill v var contents) := by
    cases contents <;> simp [Host.fill, movesData]
  have fills (v : Placed) : Each (sparesData true ·) (fills v) := by
    cases reference : v.layout.reference <;> simp [Host.fills, reference, fill]
  have begins : DataTriple (α := α) p (fun _ => True) [.blank, .comment "Input/output variables"]
      fun a => Kept [] a.wiring.extent :=
    .weaken (dataTriple_of_spares (P := fun _ => True) (by simp)) (fun _ _ => trivial)
      fun _ _ => by simp [Kept]
  refine .append (.append (.append begins row) (dataTriple_of_hands (P := Extended p) ?_))
    (dataTriple_of_hands (P := Extended p) ?_)
  · simp [allocationPhase, demand]
  · simp [fillPhase, fills]

end KernelHost.Host
