import KernelHost.Proofs.Freshness.Connection
import KernelHost.Proofs.Schedule.Tiers

/-!
# Passes

A pass sends what is on the host, launches the kernels and fetches what they computed.  What it does
not send or pass anew has been fresh since the set-up, where there is one pass only; in the loop,
everything is sent and passed anew.
-/

namespace KernelHost.Host

open Code (Call Each Expr Stmt Var)

variable {α : Type} {p : Plan}

/-! ## Traffic -/

/-- A buffer that is never sent begins as a copy, and there is one pass only. -/
theorem copiesHost_of_never (wellFormed : p.WellFormed) {b : Buffer} (mem : b ∈ p.buffers)
    (never : b.upload = .never) : p.template = .single ∧ b.access.copiesHost := by
  obtain ⟨v, -, made⟩ := exists_of_mem_buffers wellFormed mem
  obtain ⟨access, upload, download, traffic, -, rfl⟩ := Placed.buffer?_eq_some_iff.mp made
  have never : upload = .never := never
  revert traffic
  cases v.decl.role <;> cases p.template <;> simp [Buffer.traffic?] <;> rintro rfl rfl rfl <;>
    simp_all [BufferAccess.copiesHost]

/-- What outputs hold on the device is fetched. -/
theorem download_of_output {template : Template} {v : Placed} {b : Buffer}
    (made : v.buffer? template = some b) (output : v.decl.role = .output) :
    b.download ≠ .never := by
  obtain ⟨access, upload, download, traffic, -, rfl⟩ := Placed.buffer?_eq_some_iff.mp made
  cases template <;> simp [Buffer.traffic?, output] at traffic <;>
    obtain ⟨-, -, rfl⟩ := traffic <;> simp

/-- In the loop, all values are passed in each pass. -/
theorem everyPass_of_value (wellFormed : p.WellFormed) {l : String × Argument} (mem : l ∈ links p)
    {host type : String} (value : l.2.binding = .value host type) :
    l.2.everyPass = (p.template == .loop) := by
  obtain ⟨k, -, v, -, rfl⟩ := (mem_links wellFormed).mp mem
  have binding : (v.toArgument p.template).binding = (v.binding p.template).1 := rfl
  have everyPass : (v.toArgument p.template).everyPass =
      (p.template == .loop && (v.binding p.template).1.isValue) := rfl
  rw [everyPass, ← binding, value, Binding.isValue, Bool.and_true]

/-! ## Sending -/

/-- The plan is wired, and everything is fresh but what is still to be sent or passed. -/
structure Sending (p : Plan) (sent : List Buffer) (passed : List (String × Argument))
    (a : Data α) : Prop where
  /-- The plan is wired. -/
  wired : Wired p a.wiring
  /-- Values are as they are on the host. -/
  valued : ∀ l ∈ links p, l.2.everyPass = false ∨ l ∈ passed → Valued a l
  /-- Buffers hold what their variables hold. -/
  synced : ∀ b ∈ p.buffers, b.upload = .never ∨ b ∈ sent → Synced a b

/-- Behind the set-up, everything is fresh. -/
theorem Prepared.sending (wellFormed : p.WellFormed) {a : Data α} (prepared : Prepared p a) :
    Sending p [] [] a where
  wired := prepared.wired
  valued l mem _ := prepared.valued l mem
  synced b mem never := by
    have never : b.upload = .never := by simpa using never
    exact prepared.synced b mem (copiesHost_of_never wellFormed mem never).2

/-- In the loop, everything is still to be sent or passed. -/
theorem Wired.sending (wellFormed : p.WellFormed) {a : Data α} (wired : Wired p a.wiring)
    (loop : p.template = .loop) : Sending p [] [] a where
  wired := wired
  valued l mem never host type value := by
    have always := everyPass_of_value wellFormed mem value
    simp [loop] at always
    simp [always] at never
  synced b mem never := by
    have never : b.upload = .never := by simpa using never
    simp [(copiesHost_of_never wellFormed mem never).1] at loop

theorem dataTriple_transfer {callee : Code.Callee} {b : Buffer} {P Q : Data α → Prop}
    (silent : launched? (.store (.var .callStatus) ⟨callee, transferArgs b⟩) = none)
    (makes : ∀ a a' : Data α, P a → a.Makes ⟨callee, transferArgs b⟩ a' → Q a') :
    DataTriple p P (transfer callee b) Q :=
  dataTriple_callForStatus (fun a _ => observed_of_silent silent (by simp) a) makes

theorem Sending.upload (wellFormed : p.WellFormed) {sent : List Buffer}
    {passed : List (String × Argument)} {a a' : Data α} (sending : Sending p sent passed a)
    {b : Buffer} (mem : b ∈ p.buffers) (done : a.Uploads (transferArgs b) a') :
    Sending p (sent ++ [b]) passed a' := by
  obtain ⟨wired, valued, synced, others⟩ := done.spec wellFormed sending.wired mem
  refine ⟨wired, fun l l_mem old => valued l (sending.valued l l_mem old), fun c c_mem which => ?_⟩
  rw [List.mem_append, List.mem_singleton, ← or_assoc] at which
  rcases which with old | rfl
  · exact others c c_mem (sending.synced c c_mem old)
  · exact synced

theorem Sending.bindLink (wellFormed : p.WellFormed) {sent : List Buffer}
    {passed : List (String × Argument)} {a : Data α} (sending : Sending p sent passed a)
    {l : String × Argument} (mem : l ∈ links p) :
    Sending p sent (passed ++ [l]) (a.bindLink l) := by
  have extended := sending.wired.extended
  have self := linked_bindLink_self wellFormed extended mem
  refine ⟨⟨extended, ⟨sending.wired.backs.region, sending.wired.backs.apart⟩, ?_, ?_⟩, ?_, ?_⟩
  · exact owned_bindLink wellFormed extended sending.wired.owned mem
  · exact fun m m_mem =>
      (linked_bindLink wellFormed extended mem m_mem).1 (sending.wired.linked m m_mem)
  · intro m m_mem which
    rw [List.mem_append, List.mem_singleton, ← or_assoc] at which
    rcases which with old | rfl
    · exact (linked_bindLink wellFormed extended mem m_mem).2 (sending.valued m m_mem old)
    · exact self.2
  · exact sending.synced

/-- The arguments that are bound anew, one link after the other. -/
theorem rebinds_eq (p : Plan) :
    rebinds p = ((links p).filter (·.2.everyPass)).flatMap fun l => bindArgument l.1 l.2 := by
  simp [rebinds, links, List.filter_flatMap, List.filter_map, List.flatMap_assoc,
    List.flatMap_map, Function.comp_def]

/-- Everything has been sent and passed. -/
structure Sent (p : Plan) (a : Data α) : Prop where
  /-- The plan is wired. -/
  wired : Wired p a.wiring
  /-- Values are as they are on the host. -/
  valued : ∀ l ∈ links p, Valued a l
  /-- Buffers hold what their variables hold. -/
  synced : ∀ b ∈ p.buffers, Synced a b

theorem dataTriple_uploadPhase (wellFormed : p.WellFormed) (perPass : Bool) :
    DataTriple (α := α) p (Sending p [] []) (uploadPhase p perPass) (Sent p) := by
  let sent := p.buffers.filter (·.upload != .never)
  let passed := (links p).filter (·.2.everyPass)
  have uploaded : DataTriple (α := α) p (Sending p [] []) (uploads p) (Sending p sent []) := by
    refine dataTriple_flatMap (fun sent => Sending p sent []) fun before b behind split => ?_
    refine dataTriple_transfer rfl fun a a' sending done => ?_
    have mem : b ∈ sent := by simp [sent, split]
    exact sending.upload wellFormed (List.mem_filter.mp mem).1 done
  have rebound : DataTriple (α := α) p (Sending p sent []) (rebinds p) (Sending p sent passed) := by
    rw [rebinds_eq]
    refine dataTriple_flatMap (Sending p sent) fun before l behind split => ?_
    refine dataTriple_bindArgument fun a sending => ?_
    have mem : l ∈ passed := by simp [passed, split]
    exact sending.bindLink wellFormed (List.mem_filter.mp mem).1
  have fresh (a : Data α) (sending : Sending p sent passed a) : Sent p a := by
    refine ⟨sending.wired, fun l mem => sending.valued l mem ?_,
      fun b mem => sending.synced b mem ?_⟩
    · cases every : l.2.everyPass with
      | false => exact .inl rfl
      | true => exact .inr (List.mem_filter.mpr ⟨mem, every⟩)
    · by_cases never : b.upload = .never
      · exact .inl never
      · exact .inr (List.mem_filter.mpr ⟨mem, by simpa using never⟩)
  have row : DataTriple (α := α) p (Sending p [] []) (uploads p ++ rebinds p) (Sent p) :=
    .weaken (Code.Contract.Triple.append uploaded rebound) (fun _ pre => pre)
      fun a sending => fresh a.data sending
  rw [uploadPhase]
  split
  · rename_i none
    have none : uploads p ++ rebinds p = [] := by simpa using none
    rwa [none] at row
  · exact dataTriple_phase row

/-! ## Launching -/

/-- Some kernels have been launched, and the buffers of the other ones are fresh. -/
structure Launching (p : Plan) (launched : List Launch) (a : Data α) : Prop where
  /-- The plan is wired. -/
  wired : Wired p a.wiring
  /-- Values are as they are on the host. -/
  valued : ∀ l ∈ links p, Valued a l
  /-- Buffers of kernels that are still to be launched hold what their variables hold. -/
  synced : ∀ b ∈ p.buffers,
    (∀ l ∈ launched, ∀ k, p.kernels[l.kernel]? = some k → k.kernel.ident ≠ b.queue) → Synced a b

/-- Kernels at two places have two identifiers. -/
theorem index_eq_of_ident_eq (wellFormed : p.WellFormed) {i j : Nat} {k l : PlannedKernel}
    (i_found : p.kernels[i]? = some k) (j_found : p.kernels[j]? = some l)
    (same : k.kernel.ident = l.kernel.ident) : i = j := by
  have place {n : Nat} {m : PlannedKernel} (found : p.kernels[n]? = some m) :
      (p.kernels.map (·.kernel.ident))[n]? = some m.kernel.ident := by
    simp [found]
  have inside : i < (p.kernels.map (·.kernel.ident)).length :=
    (List.getElem?_eq_some_iff.mp (place i_found)).1
  refine (List.getElem?_inj inside wellFormed.idents_nodup).mp ?_
  rw [place i_found, place j_found, same]

/-- A kernel finds fresh data where it is launched. -/
theorem dataTriple_launch (wellFormed : p.WellFormed) {before behind : List Launch} {l : Launch}
    (split : p.schedule.launches = before ++ l :: behind) :
    DataTriple (α := α) p (Launching p before)
      ((p.kernels[l.kernel]?).elim [] fun k => launch p k.kernel l)
      (Launching p (before ++ [l])) := by
  cases found : p.kernels[l.kernel]? with
  | none =>
      refine .nil fun a launching => ⟨launching.wired, launching.valued, fun b mem others => ?_⟩
      exact launching.synced b mem fun m within => others m (List.mem_append_left _ within)
  | some k =>
      have mem : k ∈ p.kernels := List.mem_of_getElem? found
      have other : ∀ m ∈ before, ∀ k', p.kernels[m.kernel]? = some k' →
          k'.kernel.ident ≠ k.kernel.ident := by
        intro m within k' found' same
        have nodup := Schedule.launches_kernels_nodup wellFormed.schedule
        rw [split, List.map_append, List.map_cons] at nodup
        exact (List.nodup_append.mp nodup).2.2 _ (List.mem_map_of_mem within) _ (by simp)
          (index_eq_of_ident_eq wellFormed found' found same)
      refine dataTriple_callForStatus (fun a launching => ⟨fun k' k'_mem same => ?_, by simp⟩)
        fun a a' launching done => ?_
      · have same : k.kernel.ident = k'.kernel.ident := Option.some.inj same
        obtain rfl := List.inj_on_of_nodup_map wellFormed.idents_nodup mem k'_mem same
        refine a.data.fresh_of_wired wellFormed launching.wired mem launching.valued
          fun b b_mem queue => launching.synced b b_mem fun m within k' found' => ?_
        rw [queue]
        exact other m within k' found'
      · obtain ⟨wired, valued, others⟩ :=
          Data.Makes.launch wellFormed launching.wired mem rfl ⟨_, _, rfl⟩ done
        refine ⟨wired, fun m m_mem => valued m (launching.valued m m_mem),
          fun b b_mem waiting => ?_⟩
        apply others b b_mem (waiting l (by simp) k found).symm
        exact launching.synced b b_mem fun m within =>
          waiting m (List.mem_append_left _ within)

theorem dataTriple_launchPhase (wellFormed : p.WellFormed) (perPass : Bool) :
    DataTriple (α := α) p (Sent p) (launchPhase p perPass) fun a => Wired p a.wiring := by
  have row : DataTriple (α := α) p (Sent p) (launches p) fun a => Wired p a.wiring :=
    .weaken (dataTriple_flatMap (Launching p) fun _ _ _ split => dataTriple_launch wellFormed split)
      (fun _ sent => ⟨sent.wired, sent.valued, fun b mem _ => sent.synced b mem⟩)
      fun _ launching => launching.wired
  have after {ss : List Stmt} (spares : Each (sparesData false ·) ss) :
      DataTriple (α := α) p (fun a => Wired p a.wiring) ss fun a => Wired p a.wiring :=
    dataTriple_of_spares spares
  refine dataTriple_phase (.append (.append (.append (dataTriple_of_spares ?_) row) (after ?_))
    (after ?_))
  · split <;> simp [readClock, movesData, isHostVar, Expr.null]
  · simp [callForStatus, checkStatus, isStored, movesData, isHostVar]
  · split <;> simp [readClock, movesData, isHostVar, isStored, base?, Expr.null]

/-! ## Fetching -/

/-- Some buffers have been fetched. -/
structure Fetching (p : Plan) (fetched : List Buffer) (a : Data α) : Prop where
  /-- The plan is wired. -/
  wired : Wired p a.wiring
  /-- The variables hold what the buffers hold. -/
  synced : ∀ b ∈ fetched, Synced a b

theorem dataTriple_downloadPhase (wellFormed : p.WellFormed) (perPass : Bool) :
    DataTriple (α := α) p (fun a => Wired p a.wiring) (downloadPhase p perPass)
      (Fetching p (p.buffers.filter (·.download != .never))) := by
  have row : DataTriple (α := α) p (fun a => Wired p a.wiring) (downloads p)
      (Fetching p (p.buffers.filter (·.download != .never))) := by
    refine .weaken (dataTriple_flatMap (Fetching p) fun before b behind split => ?_)
      (fun _ wired => ⟨wired, by simp⟩) fun _ fetching => fetching
    refine dataTriple_transfer rfl fun a a' fetching done => ?_
    have mem : b ∈ p.buffers.filter (·.download != .never) := by simp [split]
    obtain ⟨wired, synced, others⟩ := Data.Downloads.spec wellFormed fetching.wired
      (List.mem_filter.mp mem).1 done
    refine ⟨wired, fun c within => ?_⟩
    rcases List.mem_append.mp within with within | within
    · exact others c (fetching.synced c within)
    · rwa [List.mem_singleton.mp within]
  rw [downloadPhase]
  split
  · rename_i none
    have none : downloads p = [] := by simpa using none
    rwa [none] at row
  · exact dataTriple_phase row

/-- All outputs are fetched. -/
theorem Fetching.fetched (wellFormed : p.WellFormed) {a : Data α}
    (fetching : Fetching p (p.buffers.filter (·.download != .never)) a) : a.Fetched p := by
  intro v mem output
  have onHost : v.decl.onHost := (Plan.mem_hostPlaced.mp mem).elim fun _ found => found.2.2
  have isSome := (Placed.isSome_buffer?_iff onHost p.template).mpr (.inl output)
  obtain ⟨b, made⟩ := Option.isSome_iff_exists.mp isSome
  have within : b ∈ p.buffers.filter (·.download != .never) :=
    List.mem_filter.mpr ⟨mem_buffers wellFormed mem made,
      by simpa using download_of_output made output⟩
  have synced := fetching.synced b within
  rwa [Synced, (size_of_buffer? made).1] at synced

/-! ## The whole run -/

/-- A pass launches kernels on fresh data, and fetches all outputs. -/
theorem dataTriple_pass (wellFormed : p.WellFormed) (perPass : Bool) :
    DataTriple (α := α) p (Sending p [] []) (pass p perPass) fun a => Wired p a.wiring := by
  let fetched := p.buffers.filter (·.download != .never)
  have events : DataTriple (α := α) p (Fetching p fetched) (eventPhase p ++ [Stmt.blank])
      (Fetching p fetched) := by
    apply dataTriple_of_spares
    rw [eventPhase]
    split <;> simp [releaseList, movesData, isStored, base?]
  have counted : DataTriple (α := α) p (Fetching p fetched) [.increment .iterations]
      fun a => Wired p a.wiring := by
    refine .plain rfl fun a fetching => ⟨⟨by simp [launched?], fun _ => ?_⟩, fun b done => ?_⟩
    · exact fetching.fetched wellFormed
    · have same : b.data = a.data := done
      rw [same]
      exact fetching.wired
  have parts : pass p perPass = uploadPhase p perPass ++ launchPhase p perPass ++
      downloadPhase p perPass ++ (eventPhase p ++ [Stmt.blank]) ++
        [Stmt.increment .iterations] := by
    simp [pass]
  rw [parts]
  exact .append (.append (.append (.append (dataTriple_uploadPhase wellFormed perPass)
    (dataTriple_launchPhase wellFormed perPass)) (dataTriple_downloadPhase wellFormed perPass))
    events) counted

theorem dataTriple_run (wellFormed : p.WellFormed) :
    DataTriple (α := α) p (Prepared p) (run p) fun _ => True := by
  rw [run]
  split
  · exact .weaken (dataTriple_pass wellFormed false)
      (fun _ prepared => prepared.sending wellFormed) fun _ _ => trivial
  · rename_i loop
    have pass : DataTriple (α := α) p (fun a => Wired p a.wiring) (pass p true)
        fun a => Wired p a.wiring :=
      .weaken (dataTriple_pass wellFormed true) (fun _ wired => wired.sending wellFormed loop)
        fun _ wired => wired
    have body : DataTriple (α := α) p (fun a => Wired p a.wiring)
        (hookCall p .loopPreamble ++ Host.pass p true ++ hookCall p .loopPostamble)
        fun a => Wired p a.wiring :=
      .append (.append (dataTriple_hookCall (P := Wired p) _) pass)
        (dataTriple_hookCall (P := Wired p) _)
    have begins : DataTriple (α := α) p (Prepared p) [.blank, .comment "Kernel loop"]
        fun a => Wired p a.wiring :=
      .weaken (dataTriple_of_spares (P := Prepared p) (by simp)) (fun _ prepared => prepared)
        fun _ prepared => prepared.wired
    show DataTriple p (Prepared p) ([Stmt.blank, .comment "Kernel loop"] ++ [_]) _
    refine .append begins (.repeatWhile body ?_ ?_)
    · rintro a b wired ⟨rfl, -⟩
      exact wired
    · exact fun _ _ _ _ => trivial

end KernelHost.Host
