import KernelHost.Proofs.Freshness.Preparation

/-!
# Connection

The set-up creates the kernels, then the buffers, then passes the arguments.  Row by row, the first
ones of each are as they should be; behind the last row the plan is wired, all values have been
passed, and the buffers that begin as copies hold what their variables hold.
-/

namespace KernelHost.Host

open Code (Call Each Expr Stmt Var)

variable {α : Type} {p : Plan}

/-! ## Kernels -/

/-- The variables are declared, and nothing is passed to some kernels. -/
structure Unpassed (p : Plan) (ks : List PlannedKernel) (w : Wiring α) : Prop where
  /-- The variables are declared. -/
  extended : Extended p w
  /-- Nothing is passed to the kernels. -/
  passed : ∀ k ∈ ks, ∀ index, w.passed k.kernel.ident index = none

theorem dataTriple_kernelPhase {before : List PlannedKernel} {k : PlannedKernel} :
    DataTriple (α := α) p (fun a => Unpassed p before a.wiring) (kernelPhase k.kernel)
      fun a => Unpassed p (before ++ [k]) a.wiring := by
  refine dataTriple_phase (dataTriple_call (.inr (by simp [statusAddress]))
    (fun a _ => observed_of_silent rfl (by simp) a) fun a b unpassed done => ?_)
  obtain ⟨c, made, redefined⟩ := done
  have same : Data.Same true a c := made.same (by simp [movesData])
  obtain rfl : b = { c with wiring := c.wiring.unpass k.kernel.ident } := redefined
  rw [same.wiring]
  refine ⟨unpassed.extended, fun l mem index => ?_⟩
  by_cases ident : l.kernel.ident = k.kernel.ident
  · simp [Wiring.unpass, ident]
  · have mem : l ∈ before := by
      rcases List.mem_append.mp mem with mem | mem
      · exact mem
      · exact absurd (congrArg (·.kernel.ident) (List.mem_singleton.mp mem)) ident
    simpa [Wiring.unpass, ident] using unpassed.passed l mem index

/-! ## Buffers -/

/-- Some buffers are there, and those that begin as copies hold what their variables hold. -/
structure Created (p : Plan) (bs : List Buffer) (a : Data α) : Prop where
  /-- Nothing is passed to kernels. -/
  unpassed : Unpassed p p.kernels a.wiring
  /-- The buffers have regions. -/
  backs : Backs bs a.wiring
  /-- The copies are as their variables. -/
  synced : ∀ b ∈ bs, b.access.copiesHost → Synced a b

theorem hasFlag_of_copiesHost {access : BufferAccess} (copies : access.copiesHost) :
    hasFlag "CL_MEM_COPY_HOST_PTR" access.flags := by
  cases access with
  | readWriteCopy => simp [BufferAccess.flags, hasFlag]
  | read | readWrite => simp [BufferAccess.copiesHost] at copies

/-- A buffer that is created gets a region of its own. -/
theorem Created.create {before : List Buffer} {b : Buffer} {a : Data α} {n : Nat} {x : α}
    (created : Created p before a) (other : ∀ c ∈ before, c.host ≠ b.host)
    (unused : a.wiring.region n = none) (copied : b.access.copiesHost → x = a.host b.host) :
    Created p (before ++ [b])
      { a with wiring := (a.wiring.put n (some ⟨b.size, x⟩)).hold b.host (some n) } := by
  have used {c : Buffer} (mem : c ∈ before) :
      ∃ m r, a.wiring.handle c.host = some m ∧ a.wiring.region m = some r ∧ r.size = c.size ∧
        m ≠ n := by
    obtain ⟨m, r, held, region, size⟩ := created.backs.region c mem
    refine ⟨m, r, held, region, size, ?_⟩
    rintro rfl
    simp [unused] at region
  constructor
  · exact ⟨created.unpassed.extended, created.unpassed.passed⟩
  · constructor
    · intro c mem
      rcases List.mem_append.mp mem with mem | mem
      · obtain ⟨m, r, held, region, size, ne⟩ := used mem
        exact ⟨m, r, by simp [Wiring.hold, Wiring.put, other c mem, held],
          by simp [Wiring.hold, Wiring.put, ne, region], size⟩
      · obtain rfl := List.mem_singleton.mp mem
        exact ⟨n, ⟨c.size, x⟩, by simp [Wiring.hold], by simp [Wiring.hold, Wiring.put], rfl⟩
    · have fresh {c : Buffer} (mem : c ∈ before) : a.wiring.handle c.host ≠ some n := by
        obtain ⟨m, r, held, -, -, ne⟩ := used mem
        simp [held, ne]
      intro c c_mem d d_mem same
      simp only [List.mem_append, List.mem_singleton] at c_mem d_mem
      rcases c_mem with c_mem | rfl <;> rcases d_mem with d_mem | rfl
      · simp only [Wiring.hold, Wiring.put, Function.update_of_ne (other _ c_mem),
          Function.update_of_ne (other _ d_mem)] at same
        exact created.backs.apart c c_mem d d_mem same
      · simp only [Wiring.hold, Wiring.put, Function.update_of_ne (other _ c_mem),
          Function.update_self] at same
        exact absurd same (fresh c_mem)
      · simp only [Wiring.hold, Wiring.put, Function.update_of_ne (other _ d_mem),
          Function.update_self] at same
        exact absurd same.symm (fresh d_mem)
      · rfl
  · intro c mem copies
    rcases List.mem_append.mp mem with mem | mem
    · obtain ⟨m, r, held, region, -, ne⟩ := used mem
      have before := created.synced c mem copies
      simp only [Synced, Wiring.held, held, Option.bind_some, region] at before
      simpa [Synced, Wiring.held, Wiring.hold, Wiring.put, other c mem, held, ne, region]
        using before
    · obtain rfl := List.mem_singleton.mp mem
      simp [Synced, Wiring.held, Wiring.hold, Wiring.put, copied copies]

theorem dataTriple_createBuffer (wellFormed : p.WellFormed) {before behind : List Buffer}
    {b : Buffer} (split : p.buffers = before ++ b :: behind) :
    DataTriple (α := α) p (Created p before) (createBuffer b) (Created p (before ++ [b])) := by
  refine dataTriple_call (.inr (by simp [statusAddress]))
    (fun a _ => observed_of_silent rfl (by simp) a) fun a c created done => ?_
  have mem : b ∈ p.buffers := by simp [split]
  have other : ∀ c ∈ before, c.host ≠ b.host := by
    intro c within
    have nodup := wellFormed.hosts_nodup
    rw [split, List.map_append, List.map_cons] at nodup
    exact (List.nodup_append.mp nodup).2.2 _ (List.mem_map_of_mem within) _ (by simp)
  obtain ⟨n, x, unused, copied, rfl⟩ := done
  refine created.create other unused fun copies => ?_
  apply copied (hasFlag_of_copiesHost copies) b.host
  rw [if_pos copies]
  exact whole?_of_mem_buffers wellFormed created.unpassed.extended mem

/-! ## Arguments -/

/-- Some arguments are passed. -/
structure Connected (p : Plan) (done : List (String × Argument)) (a : Data α) : Prop where
  /-- The variables are declared. -/
  extended : Extended p a.wiring
  backs : Backs p.buffers a.wiring
  /-- No kernel is passed a buffer of another one. -/
  owned : Owned p a.wiring
  /-- The arguments are links. -/
  subset : done ⊆ links p
  /-- What is passed is what it should be. -/
  passed : ∀ l ∈ done, Linked a.wiring l ∧ Valued a l
  /-- The copies are as their variables. -/
  synced : ∀ b ∈ p.buffers, b.access.copiesHost → Synced a b

theorem Created.connected {a : Data α} (created : Created p p.buffers a) : Connected p [] a where
  extended := created.unpassed.extended
  backs := created.backs
  owned k mem index n passed := by simp [created.unpassed.passed k mem] at passed
  subset := by simp
  passed := by simp
  synced := created.synced

theorem Connected.bindLink (wellFormed : p.WellFormed) {done : List (String × Argument)}
    {a : Data α} (connected : Connected p done a) {l : String × Argument} (mem : l ∈ links p) :
    Connected p (done ++ [l]) (a.bindLink l) where
  extended := connected.extended
  backs := ⟨connected.backs.region, connected.backs.apart⟩
  owned := owned_bindLink wellFormed connected.extended connected.owned mem
  subset := List.append_subset.mpr ⟨connected.subset, by simpa using mem⟩
  passed m within := by
    rcases List.mem_append.mp within with within | within
    · have keeps := linked_bindLink wellFormed connected.extended mem (connected.subset within)
      exact ⟨keeps.1 (connected.passed m within).1, keeps.2 (connected.passed m within).2⟩
    · obtain rfl := List.mem_singleton.mp within
      exact linked_bindLink_self wellFormed connected.extended mem
  synced b b_mem copies := connected.synced b b_mem copies

/-- Behind the binding of an argument, the data are those behind the binding of its link. -/
theorem dataTriple_bindArgument {ident : String} {argument : Argument} {P Q : Data α → Prop}
    (behind : ∀ a, P a → Q (a.bindLink (ident, argument))) :
    DataTriple p P (bindArgument ident argument) Q := by
  refine dataTriple_callForStatus (fun a _ => observed_of_silent rfl (by simp) a)
    fun a b pre made => ?_
  obtain rfl : b = a.bindLink (ident, argument) := made
  exact behind a pre

/-- The links of a kernel. -/
def linksOf (k : PlannedKernel) : List (String × Argument) :=
  k.arguments.map (k.kernel.ident, ·)

theorem dataTriple_argumentPhase (wellFormed : p.WellFormed) {before behind : List PlannedKernel}
    {k : PlannedKernel} (split : p.kernels = before ++ k :: behind) :
    DataTriple (α := α) p (Connected p (before.flatMap linksOf)) (argumentPhase k)
      (Connected p ((before ++ [k]).flatMap linksOf)) := by
  have row : DataTriple (α := α) p (Connected p (before.flatMap linksOf))
      (k.arguments.flatMap (bindArgument k.kernel.ident))
      (Connected p ((before ++ [k]).flatMap linksOf)) := by
    have steps : DataTriple (α := α) p (Connected p (before.flatMap linksOf ++ []))
        (k.arguments.flatMap (bindArgument k.kernel.ident))
        (Connected p (before.flatMap linksOf ++ linksOf k)) := by
      refine dataTriple_flatMap (fun arguments => Connected p (before.flatMap linksOf ++
        arguments.map (k.kernel.ident, ·))) fun arguments argument others split' => ?_
      refine dataTriple_bindArgument fun a connected => ?_
      have mem : (k.kernel.ident, argument) ∈ links p :=
        List.mem_flatMap.mpr ⟨k, by simp [split], by simp [split']⟩
      simpa using connected.bindLink wellFormed mem
    simpa [linksOf] using steps
  rw [argumentPhase]
  split
  · rename_i none
    have none : k.arguments = [] := by simpa using none
    simpa [none] using row
  · exact dataTriple_phase row

/-! ## The whole set-up -/

/-- What the run begins with. -/
structure Prepared (p : Plan) (a : Data α) : Prop where
  /-- The plan is wired. -/
  wired : Wired p a.wiring
  /-- All values are passed as they are on the host. -/
  valued : ∀ l ∈ links p, Valued a l
  /-- The copies are as their variables. -/
  synced : ∀ b ∈ p.buffers, b.access.copiesHost → Synced a b

theorem Connected.prepared {a : Data α} (connected : Connected p (links p) a) : Prepared p a where
  wired :=
    { extended := connected.extended
      backs := connected.backs
      owned := connected.owned
      linked := fun l mem => (connected.passed l mem).1 }
  valued l mem := (connected.passed l mem).2
  synced := connected.synced

/-- Behind the set-up, the plan is prepared for its run. -/
theorem dataTriple_setup (wellFormed : p.WellFormed) :
    DataTriple (α := α) p (fun a => Extended p a.wiring) (setup p) (Prepared p) := by
  have begins : DataTriple (α := α) p (fun a => Extended p a.wiring)
      (platformPhase p ++ devicePhase p ++ contextPhase p ++
        p.kernels.flatMap (fun k => queuePhase p k.kernel) ++
        openPhase p ++ readPhase p ++ programPhase p ++ buildPhase p)
      fun a => Extended p a.wiring := by
    have device : isHost (.address (chosenDevice p)) = false := rfl
    have status : isHost statusAddress = false := rfl
    have queue : Harmless false (createQueue p.settings.api (chosenDevice p)) := by
      cases p.settings.api <;>
        simp [createQueue, chosenDevice, statusAddress, movesData, isHostVar, Expr.null]
    have program : Harmless false (createProgram p) := by
      cases source : p.settings.program <;>
        simp [createProgram, source, chosenDevice, statusAddress, movesData, isHostVar]
    apply dataTriple_of_spares
    simp [platformPhase, devicePhase, contextPhase, queuePhase, openPhase, readPhase, programPhase,
      buildPhase, allocateList, demandIndex, demand, callForStatus, callForResult, checkStatus,
      device, status, queue, program, isStored, movesData, isHostVar, base?, chosenPlatform,
      Expr.plain, Expr.null]
  have kernels : DataTriple (α := α) p (fun a => Extended p a.wiring)
      (p.kernels.flatMap fun k => kernelPhase k.kernel) fun a => Unpassed p p.kernels a.wiring :=
    .weaken (dataTriple_flatMap (fun ks a => Unpassed p ks a.wiring)
      fun _ _ _ _ => dataTriple_kernelPhase) (fun _ extended => ⟨extended, by simp⟩)
      fun _ unpassed => unpassed
  have buffers : DataTriple (α := α) p (fun a => Unpassed p p.kernels a.wiring) (bufferPhase p)
      (Created p p.buffers) := by
    have row : DataTriple (α := α) p (fun a => Unpassed p p.kernels a.wiring)
        (p.buffers.flatMap createBuffer) (Created p p.buffers) :=
      .weaken (dataTriple_flatMap (Created p)
        fun _ _ _ split => dataTriple_createBuffer wellFormed split)
        (fun _ unpassed => ⟨unpassed, ⟨by simp, by simp⟩, by simp⟩) fun _ created => created
    rw [bufferPhase]
    split
    · rename_i none
      have none : p.buffers = [] := by simpa using none
      simpa [none] using row
    · exact dataTriple_phase row
  have arguments : DataTriple (α := α) p (Created p p.buffers) (p.kernels.flatMap argumentPhase)
      (Prepared p) :=
    .weaken (dataTriple_flatMap (fun ks => Connected p (ks.flatMap linksOf))
      fun _ _ _ split => dataTriple_argumentPhase wellFormed split)
      (fun _ created => created.connected) fun _ connected => connected.prepared
  exact .append (.append (.append begins kernels) buffers) arguments

end KernelHost.Host
