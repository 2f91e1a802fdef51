import KernelHost.Proofs.Resources.Handles

/-!
# Readiness

The condition that carries the proof about resources along the main path: the handles of the plan
hold what is left to release, and those that are still to be filled are null.  A failed check may
leave the main path at any point, since the first half is all that the clean-up needs.
-/

namespace KernelHost.Host

open Code (Call Callee Condition Contract Each Expr Stmt Var)

/-- The handles hold what is left to release, and some of them are null. -/
structure Emptied (p : Plan) (nulls : List Handle) (b : Books) : Prop where
  /-- The handles hold what is left. -/
  holds : Holds (allHandles p) b
  /-- Some of them are null. -/
  null : ∀ h ∈ nulls, b.content h.place = .null

/-- What comes later has not been acquired. -/
structure Ready (p : Plan) (later : List Handle) (b : Books) : Prop extends Emptied p later b where
  /-- What comes later is told apart. -/
  nodup : (later.map (·.place)).Nodup
  /-- It is in handles of the plan. -/
  subset : later ⊆ allHandles p

/-- What is to be shown about the resources of a plan. -/
def resourceContract (p : Plan) : Contract Ledger where
  machine := ledgerMachine
  program := body p
  observed s a := s.isLeave → Settled a.books.deeds
  atLanding a := Holds (allHandles p) a.books

/-- A triple whose conditions are about the books. -/
def BooksTriple (p : Plan) (P : Books → Prop) (ss : List Stmt) (Q : Books → Prop) : Prop :=
  (resourceContract p).Triple (fun a => P a.books) ss fun a => Q a.books

/-- A row of blocks, with a condition on the books that says how far the row is done. -/
theorem booksTriple_flatMap {p : Plan} {β : Type} {f : β → List Stmt} {bs : List β}
    (I : List β → Books → Prop)
    (each : ∀ before b behind, bs = before ++ b :: behind →
      BooksTriple p (I before) (f b) (I (before ++ [b]))) :
    BooksTriple p (I []) (bs.flatMap f) (I bs) :=
  Contract.Triple.flatMap (C := resourceContract p) (fun before a => I before a.books) each

/-! ## Blocks that spare the books -/

/-- Whether a statement by itself has no part in handles and resources. -/
def sparesBooks : Stmt → Bool
  | .assign (.var v) _ => isNumber v
  | .assign (.index (.var list) (.var _)) _ => !(Place.slot list 0).kept
  | .increase .. | .increment _ => true
  | .store (.var v) call =>
    isNumber v && (releaser? call.callee).isNone && (eventOf call).isNone
  | .perform call | .guarded _ call => !isReleaser call.callee
  | .count index _ _ => isNumber index
  | .assign .. | .store .. | .declare .. | .declareList .. | .leave _ => false
  | _ => true

attribute [local simp] sparesBooks

@[simp]
theorem sparesBooks_leaf :
    (sparesBooks .blank) ∧
      (∀ text, sparesBooks (.comment text)) ∧
      (∀ v value, sparesBooks (.assign (.var v) value) = isNumber v) ∧
      (∀ list v value, sparesBooks (.assign (.index (.var list) (.var v)) value) =
        !(Place.slot list 0).kept) ∧
      (∀ target value, sparesBooks (.increase target value)) ∧
      (∀ v, sparesBooks (.increment v)) ∧
      (∀ v call, sparesBooks (.store (.var v) call) =
        (isNumber v && (releaser? call.callee).isNone && (eventOf call).isNone)) ∧
      (∀ call, sparesBooks (.perform call) = !isReleaser call.callee) ∧
      (∀ c call, sparesBooks (.guarded c call) = !isReleaser call.callee) ∧
      (∀ c failure, sparesBooks (.ensure c failure)) ∧
      (∀ c body, sparesBooks (.when c body)) ∧
      (∀ c body otherwise, sparesBooks (.choose c body otherwise)) ∧
      (∀ index bound body, sparesBooks (.count index bound body) = isNumber index) ∧
      (∀ c body, sparesBooks (.repeatWhile c body)) ∧
      sparesBooks .cleanupLabel := by
  simp

theorem Books.put_of_not_kept {b : Books} {place : Place} {c : Content}
    (kept : place.kept = false) : b.put place c = b := by
  simp [Books.put, kept]

theorem kept_slot (list : Var) (k : Nat) : (Place.slot list k).kept = (Place.slot list 0).kept := by
  cases list <;> rfl

theorem books_eq_of_spares {s : Stmt} {a b : Ledger} (spares : sparesBooks s)
    (done : ledgerMachine.effect s a b) : b.books = a.books := by
  cases s with
  | assign target value =>
      have same := done.1
      unfold sparesBooks at spares
      split at spares <;> simp_all [Ledger.place?]
      · exact Books.put_of_not_kept (by simpa [Place.kept] using spares)
      · exact Books.put_of_not_kept (by simpa [kept_slot] using spares)
  | increase | increment => exact done.1
  | store target call =>
      cases target with
      | var v =>
          obtain ⟨finished, stores, -, -⟩ := done
          simp only [sparesBooks, Bool.and_eq_true, Option.isNone_iff_eq_none] at spares
          obtain ⟨⟨number, releaser⟩, event⟩ := spares
          have put : b.books = a.books.put (.var v) .other := by
            simpa [Books.Stores, releaser, event] using stores
          rw [put, Books.put_of_not_kept (by simpa [Place.kept] using number)]
      | _ => exact done.elim
  | perform call =>
      have same := done.1
      simp_all
  | declare | declareList => simp at spares
  | _ => exact done.elim

theorem isReleaser_failure (f : Code.Failure) : isReleaser f.call.callee = false := by
  cases f with
  | function callee object => cases object <;> rfl
  | posix | lookup => rfl

theorem calm_of_spares {p : Plan} {s : Stmt} (spares : sparesBooks s) :
    (resourceContract p).Calm Ledger.books s := by
  have asks (c : Condition) : (resourceContract p).Asks Ledger.books c :=
    fun _ _ _ given => congrArg Ledger.books given.1
  have keeps {t : Stmt} (leave : t.isLeave = false) (spares : sparesBooks t) :
      (resourceContract p).Keeps Ledger.books t :=
    ⟨fun a left => by simp [leave] at left, fun a b done => books_eq_of_spares spares done⟩
  cases s with
  | ensure c f => exact ⟨asks c, keeps rfl (by simp [isReleaser_failure])⟩
  | guarded c call => exact ⟨asks _, keeps rfl spares⟩
  | «when» | choose | repeatWhile => exact asks _
  | count index bound body => exact fun k => keeps rfl spares
  | leave value => simp at spares
  | _ => exact fun _ => keeps rfl spares

/-- A block whose statements all spare the books keeps every condition on them. -/
theorem booksTriple_of_spares {p : Plan} {P : Books → Prop} {ss : List Stmt}
    (land : ∀ b, P b → Holds (allHandles p) b) (spares : Each (sparesBooks ·) ss) :
    BooksTriple p P ss P :=
  Contract.Quiet.of_allWithin ss (fun s mem => calm_of_spares (spares s mem)) P
    fun a pre => land a.books pre

/-- Without checks, that does not depend on what the clean-up needs. -/
theorem booksTriple_of_unchecked {p : Plan} {P : Books → Prop} {ss : List Stmt}
    (unchecked : ∀ s ∈ ss, (s.isIdle ∨ s.isPlain) ∧ sparesBooks s) : BooksTriple p P ss P := by
  induction ss with
  | nil => exact .nil fun _ pre => pre
  | cons s ss ih =>
      obtain ⟨⟨kind, spares⟩, rest⟩ := List.forall_mem_cons.mp unchecked
      refine .cons ?_ (ih rest)
      rcases kind with idle | plain
      · exact .idle idle
      · refine .plain plain fun a pre => ⟨fun left => ?_, fun b done => ?_⟩
        · cases s <;> simp [Stmt.isPlain, Stmt.isLeave] at plain left
        · rwa [books_eq_of_spares spares done]

/-! ## Handles that are filled -/

namespace Ready

variable {p : Plan} {later : List Handle} {h : Handle} {b c : Books}

/-- What comes next may be left out. -/
theorem skip (ready : Ready p (h :: later) b) : Ready p later b where
  holds := ready.holds
  null k mem := ready.null k (List.mem_cons_of_mem _ mem)
  nodup := (List.nodup_cons.mp ready.nodup).2
  subset _ mem := ready.subset (List.mem_cons_of_mem _ mem)

/-- Where the content of what comes later is the same, so is what has to be shown of it. -/
theorem of_holds (ready : Ready p (h :: later) b) (holds : Holds (allHandles p) c)
    (content : ∀ place, place ≠ h.place → c.content place = b.content place) :
    Ready p later c where
  holds := holds
  null k mem := by
    have apart : k.place ≠ h.place := fun equal =>
      (List.nodup_cons.mp ready.nodup).1 (List.mem_map.mpr ⟨k, mem, equal⟩)
    rw [content k.place apart]
    exact ready.skip.null k mem
  nodup := ready.skip.nodup
  subset := ready.skip.subset

/-- What comes next is acquired. -/
theorem gain (wellFormed : p.WellFormed) (ready : Ready p (h :: later) b) (kept : h.place.kept)
    (gains : Books.Gains h.place h.releaser b c) : Ready p later c := by
  have mem : h ∈ allHandles p := ready.subset List.mem_cons_self
  have perm := List.perm_cons_erase mem
  have apart : h.place ∉ ((allHandles p).erase h).map (·.place) := by
    have nodup := (perm.map (·.place)).nodup_iff.mp (places_nodup wellFormed)
    exact (List.nodup_cons.mp nodup).1
  have rest := (ready.holds.of_perm perm).drop (ready.null h List.mem_cons_self)
  refine ready.of_holds ((rest.gain kept apart gains).of_perm perm.symm) fun place ne => ?_
  obtain ⟨r, -, -, rfl⟩ := gains
  exact Books.content_put_of_ne b _ ne

/-- What comes next could not be acquired. -/
theorem put_null (ready : Ready p (h :: later) b) : Ready p later (b.put h.place .null) := by
  have same (place : Place) : (b.put h.place .null).content place = b.content place := by
    by_cases equal : place = h.place
    · subst equal
      rw [Books.put]
      split
      · simp [ready.null h List.mem_cons_self]
      · rfl
    · exact Books.content_put_of_ne b _ equal
  exact ready.of_holds (ready.holds.congr (Books.deeds_put ..) fun k _ => same k.place)
    fun place _ => same place

end Ready

section Acquiring

variable {p : Plan} {later : List Handle}

/-- A condition does not depend on the content of a place. -/
def Frames (place : Place) (F : Books → Prop) : Prop :=
  ∀ b c : Books, (∀ other, other ≠ place → c.content other = b.content other) → F b → F c

/-- A call fills a handle with what it acquires, or leaves it null. -/
theorem triple_acquire_frame (wellFormed : p.WellFormed) {v : Var} {callee : Callee} {call : Call}
    {F : Books → Prop} (frame : Frames (.var v) F) (number : isNumber v = false)
    (acquires : releaser? call.callee = some callee) :
    BooksTriple p (fun b => Ready p (.ofVar callee v :: later) b ∧ F b) [.store (.var v) call]
      fun b => Ready p later b ∧ F b := by
  refine .plain rfl fun a ⟨ready, framed⟩ =>
    ⟨by simp [resourceContract, Stmt.isLeave], fun b done => ?_⟩
  obtain ⟨finished, stores, -, -⟩ := done
  cases finished with
  | true =>
      have gains : Books.Gains (.var v) callee a.books b.books := by
        simpa [Books.Stores, acquires] using stores
      refine ⟨ready.gain wellFormed (by simp [Handle.ofVar, Place.kept, number]) gains,
        frame a.books b.books (fun other ne => ?_) framed⟩
      obtain ⟨r, -, -, same⟩ := gains
      rw [same]
      exact Books.content_put_of_ne a.books _ ne
  | false =>
      have put : b.books = a.books.put (.var v) .null := by
        simpa [Books.Stores, acquires] using stores
      rw [put]
      exact ⟨ready.put_null,
        frame a.books _ (fun other ne => Books.content_put_of_ne a.books _ ne) framed⟩

theorem triple_acquire (wellFormed : p.WellFormed) {v : Var} {callee : Callee} {call : Call}
    (number : isNumber v = false) (acquires : releaser? call.callee = some callee) :
    BooksTriple p (Ready p (.ofVar callee v :: later)) [.store (.var v) call] (Ready p later) :=
  Contract.Triple.weaken
    (triple_acquire_frame wellFormed (F := fun _ => True) (fun _ _ _ _ => trivial) number acquires)
    (fun _ ready => ⟨ready, trivial⟩) fun _ ready => ready.1

/-- A row of blocks, each of which fills one handle. -/
theorem triple_acquire_row {β : Type} {f : β → List Stmt} {handle : β → Handle} {bs : List β}
    (each : ∀ b later, BooksTriple p (Ready p (handle b :: later)) (f b) (Ready p later)) :
    BooksTriple p (Ready p (bs.map handle ++ later)) (bs.flatMap f) (Ready p later) := by
  induction bs with
  | nil => exact .nil fun _ pre => pre
  | cons b bs ih => exact Contract.Triple.append (each b _) ih

theorem triple_spares {ss : List Stmt} (spares : Each (sparesBooks ·) ss) :
    BooksTriple p (Ready p later) ss (Ready p later) :=
  booksTriple_of_spares (fun _ ready => ready.holds) spares

theorem triple_phase {P Q : Books → Prop} {title message : String} {perPass : Bool}
    {ss : List Stmt} (before : ∀ b, P b → Holds (allHandles p) b)
    (behind : ∀ b, Q b → Holds (allHandles p) b) (triple : BooksTriple p P ss Q) :
    BooksTriple p P (phase title perPass message ss) Q := by
  refine Contract.Triple.append (Contract.Triple.append (booksTriple_of_spares before ?_) triple)
    (booksTriple_of_spares behind ?_)
  · cases perPass <;> simp [announce, isReleaser]
  · simp [succeed, isReleaser]

end Acquiring

/-! ## Handles that are emptied -/

/-- A handle has been released, but it has not been set to null. -/
structure Dangling (p : Plan) (h : Handle) (nulls : List Handle) (b : Books) : Prop where
  /-- The other handles hold what is left. -/
  holds : Holds ((allHandles p).erase h) b
  /-- Some of them are null. -/
  null : ∀ k ∈ nulls, b.content k.place = .null

section Emptying

variable {p : Plan} {nulls : List Handle} {h : Handle} {b : Books}

theorem Emptied.release (emptied : Emptied p nulls b) (mem : h ∈ allHandles p)
    (held : b.content h.place ≠ .null) :
    Dangling p h nulls (b.release h.releaser (some h.place)) where
  holds := (emptied.holds.of_perm (List.perm_cons_erase mem)).release held
  null := emptied.null

theorem Dangling.put_null (wellFormed : p.WellFormed) (dangling : Dangling p h nulls b)
    (mem : h ∈ allHandles p) (kept : h.place.kept) :
    Emptied p (h :: nulls) (b.put h.place .null) := by
  have perm := List.perm_cons_erase mem
  have apart : ∀ k ∈ (allHandles p).erase h, k.place ≠ h.place := by
    have nodup := (perm.map (·.place)).nodup_iff.mp (places_nodup wellFormed)
    exact fun k within equal => (List.nodup_cons.mp nodup).1 (List.mem_map.mpr ⟨k, within, equal⟩)
  have self : (b.put h.place .null).content h.place = .null := Books.content_put_self b _ _ kept
  constructor
  · refine (Holds.add ?_ self).of_perm perm.symm
    exact dangling.holds.congr (Books.deeds_put ..)
      fun k within => Books.content_put_of_ne b _ (apart k within)
  · rintro k (_ | ⟨_, within⟩)
    · exact self
    · by_cases equal : k.place = h.place
      · rw [equal, self]
      · rw [Books.content_put_of_ne b _ equal]
        exact dangling.null k within

theorem Ledger.place?_congr {a b : Ledger} (number : ∀ v, b.number v = a.number v) (e : Expr) :
    b.place? e = a.place? e := by
  unfold Ledger.place?
  split <;> simp [number]

/-- A handle is released and set to null. -/
theorem triple_release (wellFormed : p.WellFormed) {e : Expr} (mem : h ∈ allHandles p)
    (kept : h.place.kept) (releases : isReleaser h.releaser) (hook : isHook h.releaser = false)
    (value : ∀ inner, e ≠ .address inner) :
    (resourceContract p).Triple
      (fun a => a.place? e = some h.place ∧ Emptied p nulls a.books ∧
        a.books.content h.place ≠ .null)
      [.perform ⟨h.releaser, [e]⟩, .assign e .null] fun a => Emptied p (h :: nulls) a.books := by
  refine Contract.Triple.cons
    (Q := fun a => a.place? e = some h.place ∧ Dangling p h nulls a.books)
    (.plain rfl fun a ⟨located, emptied, held⟩ =>
      ⟨by simp [resourceContract, Stmt.isLeave], fun b done => ?_⟩)
    (.plain rfl fun a ⟨located, dangling⟩ =>
      ⟨by simp [resourceContract, Stmt.isLeave], fun b done => ?_⟩)
  · obtain ⟨books, touched⟩ := done
    have number (v : Var) : b.number v = a.number v :=
      touched v (by simp [writes, hook, (value _).symm])
    simp only [releases, if_true, List.head?_cons, Option.bind_some, located] at books
    rw [Ledger.place?_congr number, books]
    exact ⟨located, emptied.release mem held⟩
  · obtain ⟨books, -, -⟩ := done
    simp only [located, Option.elim_some, if_true] at books
    rw [books]
    exact dangling.put_null wellFormed mem kept

end Emptying

end KernelHost.Host
