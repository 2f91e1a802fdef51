import KernelHost.Proofs.Resources.Readiness

/-!
# Acquisition

The set-up acquires one handle after the other, in the order of `setupHandles`.  Whatever lies
between two acquisitions spares the books, so each phase takes the condition from one list of
handles to come to the next.
-/

namespace KernelHost.Host

open Code (Call Each Expr Stmt Var)

variable {p : Plan} {later : List Handle}

attribute [local simp] isNumber releaser?

/-- A phase of the set-up. -/
theorem triple_setupPhase {hs ks : List Handle} {title message : String} {ss : List Stmt}
    (triple : BooksTriple p (Ready p hs) ss (Ready p ks)) :
    BooksTriple p (Ready p hs) (phase title false message ss) (Ready p ks) :=
  triple_phase (fun _ ready => ready.holds) (fun _ ready => ready.holds) triple

/-- A call of the runtime fills a handle. -/
theorem triple_callForResult (wellFormed : p.WellFormed) {v : Var} {callee : Code.Callee}
    {call : Call} {object : Option String} (number : isNumber v = false)
    (acquires : releaser? call.callee = some callee) :
    BooksTriple p (Ready p (.ofVar callee v :: later)) (callForResult v call object)
      (Ready p later) :=
  Code.Contract.Triple.cons (triple_acquire wellFormed number acquires)
    (triple_spares (by simp [checkStatus]))

theorem triple_allocateList (wellFormed : p.WellFormed) {v count : Var} {type : String}
    (number : isNumber v = false) :
    BooksTriple p (Ready p (.ofVar .free v :: later)) (allocateList v count type)
      (Ready p later) :=
  Code.Contract.Triple.cons (triple_acquire wellFormed number rfl)
    (triple_spares (by simp [demand]))

theorem triple_platformPhase (wellFormed : p.WellFormed) :
    BooksTriple p (Ready p (.ofVar .free .platforms :: later)) (platformPhase p)
      (Ready p later) := by
  refine triple_setupPhase (.append (.append (.append (triple_spares ?_)
    (triple_allocateList wellFormed rfl)) (triple_spares ?_)) (triple_spares ?_)) <;>
    simp [callForStatus, checkStatus, demandIndex, eventOf]

theorem triple_devicePhase (wellFormed : p.WellFormed) :
    BooksTriple p (Ready p (.ofVar .free .devices :: later)) (devicePhase p)
      (Ready p later) := by
  refine triple_setupPhase (.append (.append (.append (triple_spares ?_)
    (triple_allocateList wellFormed rfl)) (triple_spares ?_)) (triple_spares ?_)) <;>
    simp [callForStatus, checkStatus, demandIndex, eventOf]

theorem triple_contextPhase (wellFormed : p.WellFormed) :
    BooksTriple p (Ready p (.ofVar .clReleaseContext .context :: later)) (contextPhase p)
      (Ready p later) :=
  triple_setupPhase (triple_callForResult wellFormed rfl rfl)

theorem triple_queuePhase (wellFormed : p.WellFormed) (k : PlannedKernel) :
    BooksTriple p (Ready p (queueHandle k :: later)) (queuePhase p k.kernel) (Ready p later) := by
  refine triple_setupPhase (triple_callForResult wellFormed rfl ?_)
  cases p.settings.api <;> rfl

/-- The file of the program is open, and it is to be closed. -/
def Opened (p : Plan) (later : List Handle) (b : Books) : Prop :=
  Ready p later b ∧ b.content (.var .programFile) ≠ .null

theorem opened_holds {b : Books} (opened : Opened p later b) : Holds (allHandles p) b :=
  opened.1.holds

/-- A demanded pointer is not null. -/
theorem triple_demand {v : Var} {callee : Code.Callee} {object : Expr}
    (number : isNumber v = false) (mem : .ofVar callee v ∈ allHandles p) :
    BooksTriple p (Ready p later) [demand v object]
      fun b => Ready p later b ∧ b.content (.var v) ≠ .null := by
  refine .ensure (fun a b ready given => ?_) fun a b ready given =>
    ⟨by simp [resourceContract, Stmt.isLeave], fun d done => ?_⟩
  · obtain ⟨rfl, known⟩ := given
    have answer := ready.holds.null_iff_of_truth (e := .var v) mem
      (by simp [-isNumber, Handle.ofVar, Place.kept, number]) rfl (known (.var v) rfl)
    exact ⟨ready, by simpa [Handle.ofVar] using answer⟩
  · obtain ⟨rfl, -⟩ := given
    have same := books_eq_of_spares (by simp [isReleaser_failure]) done
    simpa [resourceContract, same] using ready.holds

theorem triple_openPhase (wellFormed : p.WellFormed)
    (mem : .ofVar .fclose .programFile ∈ allHandles p) :
    BooksTriple p (Ready p (.ofVar .fclose .programFile :: later)) (openPhase p)
      (Opened p later) :=
  triple_phase (fun _ ready => ready.holds) (fun _ => opened_holds)
    (.cons (triple_acquire wellFormed rfl rfl) (triple_demand rfl mem))

/-- The file is closed. -/
theorem triple_close (wellFormed : p.WellFormed)
    (mem : .ofVar .fclose .programFile ∈ allHandles p) :
    BooksTriple p (Opened p later)
      [.perform ⟨.fclose, [.var .programFile]⟩, .assign (.var .programFile) .null]
      (Ready p later) := by
  refine .of_pure (fun a pre => And.intro pre.1.nodup pre.1.subset) fun ⟨nodup, subset⟩ => ?_
  refine .weaken (triple_release wellFormed mem rfl rfl rfl (by simp))
    (fun a pre => ⟨rfl, pre.1.toEmptied, pre.2⟩) fun a emptied => ?_
  exact
    { holds := emptied.holds
      null := fun k within => emptied.null k (List.mem_cons_of_mem _ within)
      nodup, subset }

/-- Between opening and closing, the content is allocated and read. -/
theorem triple_readPhase (wellFormed : p.WellFormed)
    (mem : .ofVar .fclose .programFile ∈ allHandles p) :
    BooksTriple p (Opened p (.ofVar .free .programContent :: later)) (readPhase p)
      (Ready p later) := by
  have frame : Frames (.var .programContent) fun b => b.content (.var .programFile) ≠ .null := by
    intro b c same ne
    show c.content _ ≠ _
    rwa [same _ (by simp)]
  have spares {s : Stmt} {hs : List Handle} (spares : Each (sparesBooks ·) [s]) :
      BooksTriple p (Opened p hs) [s] (Opened p hs) :=
    booksTriple_of_spares (fun _ => opened_holds) spares
  apply triple_phase (fun _ => opened_holds) (fun _ ready => ready.holds)
  refine .cons (spares ?_) <| .cons (spares ?_) <| .cons (spares ?_) <|
    .cons (triple_acquire_frame wellFormed frame rfl rfl) <|
    .cons (spares ?_) <| .cons (spares ?_) <| .cons (spares ?_) (triple_close wellFormed mem) <;>
    simp [demand, isReleaser, eventOf, Place.kept]

theorem triple_programPhase (wellFormed : p.WellFormed) :
    BooksTriple p (Ready p (.ofVar .clReleaseProgram .program :: later)) (programPhase p)
      (Ready p later) := by
  refine triple_setupPhase (triple_callForResult wellFormed rfl ?_)
  rw [createProgram]
  split <;> rfl

theorem triple_kernelPhase (wellFormed : p.WellFormed) (k : PlannedKernel) :
    BooksTriple p (Ready p (kernelHandle k :: later)) (kernelPhase k.kernel) (Ready p later) :=
  triple_setupPhase (triple_callForResult wellFormed rfl rfl)

theorem triple_bufferPhase (wellFormed : p.WellFormed) :
    BooksTriple p (Ready p (p.buffers.map bufferHandle ++ later)) (bufferPhase p)
      (Ready p later) := by
  rw [bufferPhase]
  split
  · rename_i empty
    rw [List.isEmpty_iff.mp empty]
    exact .nil fun _ pre => pre
  · exact triple_setupPhase
      (triple_acquire_row fun b later => triple_callForResult wellFormed rfl rfl)

theorem triple_argumentPhase (k : PlannedKernel) :
    BooksTriple p (Ready p later) (argumentPhase k) (Ready p later) := by
  rw [argumentPhase]
  split
  · exact .nil fun _ pre => pre
  · exact triple_setupPhase (triple_spares
      (by simp [bindArgument, callForStatus, checkStatus, eventOf]))

theorem triple_buildPhase : BooksTriple p (Ready p later) (buildPhase p) (Ready p later) :=
  triple_setupPhase (triple_spares
    (by simp [callForStatus, checkStatus, eventOf]))

/-- The set-up acquires its handles. -/
theorem triple_setup (wellFormed : p.WellFormed) :
    BooksTriple p (Ready p (setupHandles p ++ later)) (setup p) (Ready p later) := by
  have file : .ofVar .fclose .programFile ∈ allHandles p := by
    simp [allHandles, setupHandles, programHandles]
  simp only [setupHandles, deviceHandles, programHandles, List.append_assoc, List.cons_append,
    List.nil_append]
  have arguments : BooksTriple p (Ready p later) (p.kernels.flatMap argumentPhase)
      (Ready p later) :=
    .flatMap_same fun k _ => triple_argumentPhase k
  exact .append (.append (.append (.append (.append (.append (.append (.append (.append (.append
    (triple_platformPhase wellFormed) (triple_devicePhase wellFormed))
    (triple_contextPhase wellFormed))
    (triple_acquire_row fun k _ => triple_queuePhase wellFormed k))
    (triple_openPhase wellFormed file)) (triple_readPhase wellFormed file))
    (triple_programPhase wellFormed)) triple_buildPhase)
    (triple_acquire_row fun k _ => triple_kernelPhase wellFormed k))
    (triple_bufferPhase wellFormed)) arguments

end KernelHost.Host
