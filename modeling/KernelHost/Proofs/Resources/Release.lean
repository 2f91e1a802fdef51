import KernelHost.Proofs.Code.Landing
import KernelHost.Proofs.Resources.Acquisition
import KernelHost.Proofs.Resources.Declaration
import KernelHost.Proofs.Schedule.Slots

/-!
# Release

A pass fills the slots of the completion lists and empties them again, so that every pass finds them
null.  The clean-up empties all slots and releases every handle that is not null, whatever the main
path has come to; behind it nothing is left.
-/

namespace KernelHost.Host

open Code (Call Callee Contract Each Expr Stmt Var)

variable {p : Plan} {later nulls : List Handle}

/-! ## Completion lists -/

theorem slotHandles_eq : slotHandles p = p.schedule.slots.map fun (tier, slot) =>
    slotHandle tier slot := by
  rw [slotHandles, Schedule.slots, List.map_flatMap]
  exact List.flatMap_congr fun tier _ => by simp [tierHandles]

/-- The slot of a completion list that the index stands for. -/
def slotExpr (tier : Nat) : Expr :=
  .index (.var (.tierDone tier)) (.var .i)

/-- The slot that the index stands for is released, if it holds an event. -/
theorem triple_releaseSlot (wellFormed : p.WellFormed) {tier k : Nat}
    (mem : slotHandle tier k ∈ allHandles p) :
    (resourceContract p).Triple
      (fun a => a.number .i = k ∧ Emptied p nulls a.books)
      [.when (slotExpr tier) [.perform ⟨.clReleaseEvent, [slotExpr tier]⟩,
        .assign (slotExpr tier) .null]]
      fun a => Emptied p (slotHandle tier k :: nulls) a.books := by
  have located {a : Ledger} (index : a.number .i = k) :
      a.place? (slotExpr tier) = some (slotHandle tier k).place := by
    simp [Ledger.place?, slotExpr, slotHandle, index]
  refine .when (fun a b pre given => ?_) (fun a b pre given => ?_)
    (triple_release wellFormed mem rfl rfl rfl (by simp [slotExpr]))
  · obtain ⟨rfl, known⟩ := given
    have answer := pre.2.holds.null_iff_of_truth mem rfl (located pre.1) (known _ rfl)
    exact ⟨located pre.1, pre.2, by simpa using answer⟩
  · obtain ⟨rfl, known⟩ := given
    have answer := pre.2.holds.null_iff_of_truth mem rfl (located pre.1) (known _ rfl)
    exact ⟨pre.2.holds, List.forall_mem_cons.mpr ⟨answer.mpr rfl, pre.2.null⟩⟩

/-- The slots of a tier are released and set to null. -/
theorem triple_releaseList (wellFormed : p.WellFormed) {tier : Nat}
    (inside : tier < p.schedule.boundaries) :
    BooksTriple p (Emptied p nulls) [releaseList p tier]
      (Emptied p (nulls ++ tierHandles p tier)) := by
  have slots (k : Nat) (below : k < p.schedule.listLength tier) :
      slotHandle tier k ∈ allHandles p := by
    simp only [allHandles, slotHandles, tierHandles, List.mem_append, List.mem_flatMap,
      List.mem_map, List.mem_range]
    exact .inr ⟨tier, inside, k, below, rfl⟩
  have keeps (k : Nat) {Q : Books → Prop} (land : ∀ b, Q b → Holds (allHandles p) b) :
      (resourceContract p).Triple (fun a => Q a.books) [.assign (.var .i) (.number k)]
        fun a => a.number .i = k ∧ Q a.books := by
    refine .plain rfl fun a pre => ⟨by simp [resourceContract, Stmt.isLeave], fun b done => ?_⟩
    have same := books_eq_of_spares (by simp [isNumber]) done
    exact ⟨done.2.2 .i k rfl rfl, by rwa [same]⟩
  have count := Contract.Triple.count (C := resourceContract p)
    (fun k a => Emptied p (nulls ++ (List.range k).map (slotHandle tier)) a.books)
    (fun k below => (keeps k fun _ pre => pre.holds).append
      (.weaken (triple_releaseSlot wellFormed (slots k below)) (fun _ pre => pre)
        fun a emptied => ?_))
    (.weaken (keeps (p.schedule.listLength tier) fun _ pre => pre.holds) (fun _ pre => pre)
      fun _ pre => pre.2)
  · simp only [List.range_zero, List.map_nil, List.append_nil] at count
    exact count
  · refine ⟨emptied.holds, fun h within => emptied.null h ?_⟩
    simp only [List.range_succ, List.map_append, List.map_cons, List.map_nil, List.mem_append,
      List.mem_cons] at within ⊢
    tauto

/-- All completion lists are emptied, in any order of the tiers. -/
theorem triple_releaseLists (wellFormed : p.WellFormed) {tiers : List Nat}
    (inside : ∀ tier ∈ tiers, tier < p.schedule.boundaries) :
    BooksTriple p (Emptied p nulls) (tiers.map (releaseList p))
      (Emptied p (nulls ++ tiers.flatMap (tierHandles p))) := by
  induction tiers generalizing nulls with
  | nil => exact .nil fun _ pre => by simpa using pre
  | cons tier tiers ih =>
      have rest : BooksTriple p (Emptied p (nulls ++ tierHandles p tier))
          (tiers.map (releaseList p))
          (Emptied p (nulls ++ tierHandles p tier ++ tiers.flatMap (tierHandles p))) :=
        ih fun t mem => inside t (List.mem_cons_of_mem _ mem)
      rw [List.append_assoc] at rest
      exact .cons (triple_releaseList wellFormed (inside tier List.mem_cons_self)) rest

/-! ## A pass -/

/-- A call that hands over a slot leaves an event there, or leaves it null. -/
theorem triple_event (wellFormed : p.WellFormed) {call : Call} {tier slot : Nat}
    (releaser : releaser? call.callee = none)
    (event : eventOf call = some (.index (.var (.tierDone tier)) (.number slot))) :
    BooksTriple p (Ready p (slotHandle tier slot :: later)) [.store (.var .callStatus) call]
      (Ready p later) := by
  refine .plain rfl fun a ready => ⟨by simp [resourceContract, Stmt.isLeave], fun b done => ?_⟩
  obtain ⟨finished, stores, -, -⟩ := done
  have status : a.books.put (.var .callStatus) .other = a.books := Books.put_of_not_kept rfl
  cases finished with
  | true =>
      have gains : Books.Gains (.slot (.tierDone tier) slot) .clReleaseEvent a.books b.books := by
        simpa [Books.Stores, releaser, event, Ledger.place?, status] using stores
      exact ready.gain wellFormed rfl gains
  | false =>
      have same : b.books = a.books := by
        simpa [Books.Stores, releaser, event, Ledger.place?, status] using stores
      rw [same]
      exact ready.skip

/-- The slot that a launch completes. -/
def signalHandles (l : Launch) : List Handle :=
  l.signal.toList.map fun (tier, slot) => slotHandle tier slot

/-- A launch acquires the event of the slot that it completes. -/
theorem triple_launch (wellFormed : p.WellFormed) (k : Kernel) (l : Launch) :
    BooksTriple p (Ready p (signalHandles l ++ later)) (launch p k l) (Ready p later) := by
  have check {callee : Callee} {object : Option String} :
      BooksTriple p (Ready p later) [checkStatus callee object] (Ready p later) :=
    triple_spares (by simp [checkStatus])
  cases signal : l.signal with
  | none =>
      simp only [signalHandles, signal, Option.toList_none, List.map_nil, List.nil_append]
      refine .cons (triple_spares ?_) check
      simp only [signal, Option.elim_none, Code.Each.cons_iff, Code.within_leaf, Code.Each.nil,
        List.forall_mem_singleton, sparesBooks_leaf, eventOf_launch]
      exact ⟨rfl, trivial⟩
  | some place =>
      obtain ⟨tier, slot⟩ := place
      simp only [signalHandles, signal, Option.toList_some, List.map_cons, List.map_nil]
      refine .cons (triple_event wellFormed rfl ?_) check
      simp only [signal, Option.elim_some, eventOf_launch]

/-- So does the launch of a kernel that is looked up. -/
theorem triple_launchOf (wellFormed : p.WellFormed) (l : Launch) :
    BooksTriple p (Ready p (signalHandles l ++ later))
      ((p.kernels[l.kernel]?).elim [] fun k => launch p k.kernel l) (Ready p later) := by
  cases p.kernels[l.kernel]? with
  | none =>
      refine .nil fun a ready => ?_
      cases signal : l.signal <;> simp only [signalHandles, signal] at ready
      · exact ready
      · exact ready.skip
  | some k => exact triple_launch wellFormed k.kernel l

theorem triple_launches (wellFormed : p.WellFormed) :
    BooksTriple p (Ready p (slotHandles p)) (launches p) (Ready p []) := by
  suffices rows : ∀ ls : List Launch,
      BooksTriple p (Ready p (ls.flatMap signalHandles))
        (ls.flatMap fun l => (p.kernels[l.kernel]?).elim [] fun k => launch p k.kernel l)
        (Ready p []) by
    have slots : p.schedule.launches.flatMap signalHandles = slotHandles p := by
      rw [slotHandles_eq, ← Schedule.signals_launches, List.map_filterMap,
        List.filterMap_eq_flatMap_toList]
      exact List.flatMap_congr fun l _ => (Option.toList_map ..).symm
    rw [← slots]
    exact rows p.schedule.launches
  intro ls
  induction ls with
  | nil => exact .nil fun _ pre => pre
  | cons l ls ih => exact Contract.Triple.append (triple_launchOf wellFormed l) ih

/-- Where all slots are null, the launches may acquire their events. -/
theorem ready_slots (wellFormed : p.WellFormed) {b : Books}
    (emptied : Emptied p (slotHandles p) b) : Ready p (slotHandles p) b := by
  have nodup := places_nodup wellFormed
  rw [allHandles, List.map_append, List.nodup_append] at nodup
  exact
    { toEmptied := emptied
      nodup := nodup.2.1
      subset := List.subset_append_right _ _ }

theorem triple_launchPhase (wellFormed : p.WellFormed) (perPass : Bool) :
    BooksTriple p (Ready p (slotHandles p)) (launchPhase p perPass) (Ready p []) := by
  refine triple_phase (fun _ ready => ready.holds) (fun _ ready => ready.holds)
    (.append (.append (.append (triple_spares ?_) (triple_launches wellFormed)) (triple_spares ?_))
      (triple_spares ?_)) <;>
    simp [readClock, callForStatus, checkStatus, isReleaser, isNumber, releaser?, eventOf]

theorem triple_eventPhase (wellFormed : p.WellFormed) :
    BooksTriple p (Ready p []) (eventPhase p) (Ready p (slotHandles p)) := by
  rw [eventPhase]
  split_ifs with none
  · exact .nil fun _ pre => by simpa [slotHandles, none] using pre
  · refine .append (triple_spares (by simp)) ?_
    refine .weaken (triple_releaseLists wellFormed fun tier mem => List.mem_range.mp mem)
      (fun _ ready => ready.toEmptied) fun _ emptied => ready_slots wellFormed ?_
    simpa [slotHandles] using emptied

theorem sparesAll_uploadPhase (perPass : Bool) :
    Each (sparesBooks ·) (uploadPhase p perPass) := by
  cases perPass <;>
    simp [uploadPhase, uploads, rebinds, transfer, bindArgument, phase, announce, succeed,
      callForStatus, checkStatus, isReleaser, isNumber, releaser?, eventOf]

theorem sparesAll_downloadPhase (perPass : Bool) :
    Each (sparesBooks ·) (downloadPhase p perPass) := by
  cases perPass <;>
    simp [downloadPhase, downloads, transfer, phase, announce, succeed, callForStatus,
      checkStatus, isReleaser, isNumber, releaser?, eventOf]

/-- A pass finds all slots null and leaves them null. -/
theorem triple_pass (wellFormed : p.WellFormed) (perPass : Bool) :
    BooksTriple p (Ready p (slotHandles p)) (pass p perPass) (Ready p (slotHandles p)) :=
  .append (.append (.append (.append (triple_spares (sparesAll_uploadPhase perPass))
    (triple_launchPhase wellFormed perPass)) (triple_spares (sparesAll_downloadPhase perPass)))
    (triple_eventPhase wellFormed)) (triple_spares (by simp))

theorem sparesAll_hookCall (hook : Hook) : Each (sparesBooks ·) (hookCall p hook) := by
  rw [hookCall]
  cases hook.perPass <;> split <;> simp [phase, announce, succeed, isReleaser]

theorem triple_run (wellFormed : p.WellFormed) :
    BooksTriple p (Ready p (slotHandles p)) (run p) (Ready p (slotHandles p)) := by
  rw [run]
  split
  · exact triple_pass wellFormed false
  · refine .cons (.idle rfl) (.cons (.idle rfl) (.repeatWhile (.append (.append
      (triple_spares (sparesAll_hookCall .loopPreamble)) (triple_pass wellFormed true))
      (triple_spares (sparesAll_hookCall .loopPostamble)))
      (fun a b ready given => ?_) fun a b ready given => ?_))
    · rwa [given.1]
    · rwa [given.1]

theorem sparesAll_compareOutput (c : Check) : Each (sparesBooks ·) (compareOutput c) := by
  have index : ∀ loop ∈ c.loops, isNumber loop.1 := by
    rw [Check.loops]
    cases c.elements <;> cases c.lanes <;> simp [isNumber]
  unfold compareOutput nest
  generalize c.loops = loops at index
  induction loops with
  | nil => simp [reportMismatch, isReleaser, isNumber]
  | cons loop loops ih =>
      obtain ⟨head, tail⟩ := List.forall_mem_cons.mp index
      simpa [head] using ih tail

theorem sparesAll_verdict : Each (sparesBooks ·) (verdict p) := by
  simp [verdict, profilingReport, validation, announce, succeed, isReleaser, isNumber,
    sparesAll_compareOutput, sparesAll_hookCall]

/-! ## The clean-up -/

section Cleanup

variable {hs : List Handle}

/-- A handle is released, if it is not null. -/
theorem triple_releaseVar {v : Var} {callee : Callee} (number : isNumber v = false)
    (releases : isReleaser callee) :
    BooksTriple p (Holds (.ofVar callee v :: hs)) [release callee v] (Holds hs) := by
  have kept : (Handle.ofVar callee v).place.kept := by simp [Handle.ofVar, Place.kept, number]
  refine .guarded (R := fun a => Holds (.ofVar callee v :: hs) a.books ∧
    a.books.content (.var v) ≠ .null) (fun a b holds given => ?_) (fun a b holds given => ?_)
    (.plain rfl fun a pre => ⟨by simp [resourceContract, Stmt.isLeave], fun b done => ?_⟩)
  · obtain ⟨rfl, known⟩ := given
    have answer := holds.null_iff_of_truth (e := .var v) List.mem_cons_self kept rfl (known _ rfl)
    exact ⟨holds, by simpa [Handle.ofVar] using answer⟩
  · obtain ⟨rfl, known⟩ := given
    have answer := holds.null_iff_of_truth (e := .var v) List.mem_cons_self kept rfl (known _ rfl)
    exact holds.drop (answer.mpr rfl)
  · have released := done.1
    simp only [releases, if_true, List.head?_cons, Option.bind_some, Ledger.place?] at released
    rw [released]
    exact pre.1.release pre.2

/-- A row of handles is released. -/
theorem triple_releaseRow {β : Type} {var : β → Var} {callee : Callee} {bs : List β}
    (number : ∀ b ∈ bs, isNumber (var b) = false) (releases : isReleaser callee) :
    BooksTriple p (Holds (bs.map (fun b => .ofVar callee (var b)) ++ hs))
      (bs.map fun b => release callee (var b)) (Holds hs) := by
  induction bs with
  | nil => exact .nil fun _ pre => pre
  | cons b bs ih =>
      obtain ⟨head, tail⟩ := List.forall_mem_cons.mp number
      exact .cons (triple_releaseVar head releases) (ih tail)

theorem triple_releaseGroup {P Q : Books → Prop} {title : String} {releases : List Stmt}
    (triple : BooksTriple p P releases Q) : BooksTriple p P (releaseGroup title releases) Q := by
  rw [releaseGroup]
  split_ifs with empty
  · rwa [List.isEmpty_iff.mp empty] at triple
  · exact .cons (.idle rfl) (.cons (.idle rfl) triple)

/-- The handles besides the slots, in the order in which they are released. -/
def releaseOrder (p : Plan) : List Handle :=
  p.buffers.reverse.map bufferHandle ++ (p.kernels.reverse.map kernelHandle ++
    ([.ofVar .clReleaseProgram .program, .ofVar .free .programContent,
        .ofVar .fclose .programFile] ++
      (p.kernels.reverse.map queueHandle ++
        ([.ofVar .clReleaseContext .context, .ofVar .free .devices, .ofVar .free .platforms] ++
          ((heap p).reverse.map (.ofVar .free) ++ [])))))

theorem releaseOrder_perm : (allHandles p).Perm (slotHandles p ++ releaseOrder p) := by
  rw [List.perm_iff_count]
  intro h
  simp only [allHandles, heapHandles, setupHandles, deviceHandles, programHandles, releaseOrder,
    List.map_reverse, List.count_append, List.count_reverse, List.count_cons, List.count_nil]
  omega

theorem triple_cleanupHook {P : Books → Prop} (hook : Hook) :
    BooksTriple p P (hookCall p hook) P := by
  apply booksTriple_of_unchecked
  rw [hookCall]
  cases hook.perPass <;> split <;>
    simp [phase, announce, succeed, Stmt.isIdle, Stmt.isPlain, isReleaser]

/-- The clean-up releases whatever the handles hold. -/
theorem triple_cleanup (wellFormed : p.WellFormed) :
    BooksTriple p (Holds (allHandles p)) (cleanup p).tail fun _ => True := by
  have events : BooksTriple p (Holds (allHandles p))
      ((List.range p.schedule.boundaries).reverse.map (releaseList p))
      (Holds (releaseOrder p)) := by
    have lists : BooksTriple p (Emptied p [])
        ((List.range p.schedule.boundaries).reverse.map (releaseList p)) (Emptied p ([] ++ _)) :=
      triple_releaseLists wellFormed fun tier mem => by simpa using mem
    refine .weaken lists (fun _ holds => ⟨holds, by simp⟩) fun _ emptied => ?_
    refine (emptied.holds.of_perm releaseOrder_perm).drop_all fun h mem => emptied.null h ?_
    simpa [slotHandles] using mem
  have storage : ∀ v ∈ (heap p).reverse, isNumber v = false := by
    intro v mem
    obtain ⟨name, rfl | rfl⟩ := mem_heap (List.mem_reverse.mp mem) <;> rfl
  show BooksTriple p _ ([Stmt.cleanupLabel] ++ releaseGroup _ _ ++ releaseGroup _ _ ++
    releaseGroup _ _ ++ releaseGroup _ _ ++ releaseGroup _ _ ++ releaseGroup _ _ ++
    hookCall p .cleanup ++ releaseGroup _ _ ++ [Stmt.blank, .leave (.var .exitCode)]) _
  exact .append (.append (.append (.append (.append (.append (.append (.append (.append
    (.idle rfl)
    (triple_releaseGroup events))
    (triple_releaseGroup (triple_releaseRow (fun _ _ => rfl) rfl)))
    (triple_releaseGroup (triple_releaseRow (fun _ _ => rfl) rfl)))
    (triple_releaseGroup (.cons (triple_releaseVar rfl rfl)
      (.cons (triple_releaseVar rfl rfl) (triple_releaseVar rfl rfl)))))
    (triple_releaseGroup (triple_releaseRow (fun _ _ => rfl) rfl)))
    (triple_releaseGroup (.cons (triple_releaseVar rfl rfl)
      (.cons (triple_releaseVar rfl rfl) (triple_releaseVar rfl rfl)))))
    (triple_cleanupHook .cleanup))
    (triple_releaseGroup (triple_releaseRow storage rfl)))
    (.cons (.idle rfl) (.leave fun a holds _ => holds.settled))

end Cleanup

end KernelHost.Host
