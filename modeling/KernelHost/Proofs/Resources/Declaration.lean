import KernelHost.Proofs.Resources.Readiness

/-!
# Declaration

Handles are declared as null, and storage is allocated where it is declared.  No check lies between
the first declaration and the last, so the clean-up never meets a handle that is not declared.
-/

namespace KernelHost.Host

open Code (Callee Contract Declarator Expr Initial Stmt Var)

variable {p : Plan} {hs ns : List Handle}

/-- Some handles hold what is left to release, and others are null. -/
structure Declared (hs ns : List Handle) (b : Books) : Prop where
  /-- Some hold what is left. -/
  holds : Holds hs b
  /-- Others are null. -/
  null : ∀ h ∈ ns, b.content h.place = .null

/-- Only the content of a place has changed. -/
structure Books.Off (place : Place) (b c : Books) : Prop where
  /-- Nothing has happened. -/
  deeds : c.deeds = b.deeds
  /-- All other places hold what they held. -/
  content : ∀ other, other ≠ place → c.content other = b.content other

theorem Books.off_put (place : Place) (b : Books) (c : Content) :
    Books.Off place b (b.put place c) :=
  ⟨Books.deeds_put .., fun _ ne => Books.content_put_of_ne b c ne⟩

namespace Declared

variable {h : Handle} {b c : Books}

/-- Another place may change. -/
theorem off (declared : Declared hs ns b) {place : Place} (off : Books.Off place b c)
    (apart : place ∉ (hs ++ ns).map (·.place)) : Declared hs ns c := by
  have ne : ∀ h ∈ hs ++ ns, h.place ≠ place := fun h mem equal =>
    apart (List.mem_map.mpr ⟨h, mem, equal⟩)
  constructor
  · exact declared.holds.congr off.deeds
      fun h mem => off.content _ (ne h (List.mem_append_left _ mem))
  · intro h mem
    rw [off.content _ (ne h (List.mem_append_right _ mem))]
    exact declared.null h mem

/-- A handle is declared as null. -/
theorem put_null (declared : Declared hs ns b) (kept : h.place.kept)
    (apart : h.place ∉ hs.map (·.place)) : Declared hs (ns ++ [h]) (b.put h.place .null) := by
  have self : (b.put h.place .null).content h.place = .null := Books.content_put_self b _ _ kept
  constructor
  · refine declared.holds.congr (Books.deeds_put ..) fun k mem => ?_
    exact Books.content_put_of_ne b _ fun equal => apart (List.mem_map.mpr ⟨k, mem, equal⟩)
  · intro k mem
    by_cases equal : k.place = h.place
    · rw [equal, self]
    · rw [Books.content_put_of_ne b _ equal]
      rcases List.mem_append.mp mem with mem | mem
      · exact declared.null k mem
      · exact absurd (congrArg Handle.place (List.mem_singleton.mp mem)) equal

/-- Storage is allocated. -/
theorem gain (declared : Declared hs ns b) (kept : h.place.kept)
    (apart : h.place ∉ (hs ++ ns).map (·.place)) (gains : Books.Gains h.place h.releaser b c) :
    Declared (hs ++ [h]) ns c := by
  simp only [List.map_append, List.mem_append, not_or] at apart
  have perm : (h :: hs).Perm (hs ++ [h]) := (List.perm_append_singleton h hs).symm
  refine ⟨(declared.holds.gain kept apart.1 gains).of_perm perm, fun k mem => ?_⟩
  have ne : k.place ≠ h.place := fun equal => apart.2 (List.mem_map.mpr ⟨k, mem, equal⟩)
  obtain ⟨r, -, -, rfl⟩ := gains
  exact (Books.content_put_of_ne b _ ne).trans (declared.null k mem)

/-- Storage could not be allocated. -/
theorem fail (declared : Declared hs ns b) (kept : h.place.kept)
    (apart : h.place ∉ (hs ++ ns).map (·.place)) :
    Declared (hs ++ [h]) ns (b.put h.place .null) := by
  have self : (b.put h.place .null).content h.place = .null := Books.content_put_self b _ _ kept
  have perm : (h :: hs).Perm (hs ++ [h]) := (List.perm_append_singleton h hs).symm
  have off := declared.off (Books.off_put h.place b .null) apart
  exact ⟨(off.holds.add self).of_perm perm, off.null⟩

end Declared

/-! ## Numbers -/

/-- A declaration of a number. -/
def isNumeric (d : Declarator) : Bool :=
  isNumber d.var &&
    match d.initial with
    | .none | .value _ => true
    | _ => false

/-- Whether a statement declares nothing but numbers. -/
def declaresNumbers : Stmt → Bool
  | .blank | .comment _ => true
  | .declare _ items => items.all isNumeric
  | .declareList _ var _ _ => isNumber var
  | _ => false

attribute [local simp] Stmt.isLeave declaresNumbers

/-- Only the completion lists have elements that the books follow. -/
theorem fill_of_ne {b : Books} {v : Var} {c : Content} (ne : ∀ tier, v ≠ .tierDone tier) :
    b.fill v c = b := by
  have content : (b.fill v c).content = b.content := by
    funext place
    cases place with
    | var w => rfl
    | slot list k =>
        refine if_neg fun ⟨same, kept⟩ => ?_
        obtain ⟨tier, rfl⟩ := Place.kept_slot_iff.mp kept
        exact ne tier same.symm
  cases b
  simp_all [Books.fill]

theorem put_fill_of_number {b : Books} {v : Var} {c d : Content} (number : isNumber v) :
    (b.put (.var v) c).fill v d = b := by
  rw [Books.put_of_not_kept (by simp [Place.kept, number]),
    fill_of_ne (by rintro tier rfl; simp [isNumber] at number)]

theorem books_eq_of_numeric {items : List Declarator} {a b : Ledger}
    (numeric : items.all isNumeric) (done : a.DeclaresAll items b) : b.books = a.books := by
  induction items generalizing a with
  | nil => exact congrArg Ledger.books done
  | cons d items ih =>
      obtain ⟨c, first, rest⟩ := done
      simp only [List.all_cons, Bool.and_eq_true] at numeric
      rw [ih numeric.2 rest]
      obtain ⟨number, initial⟩ := Bool.and_eq_true_iff.mp numeric.1
      rw [Ledger.Declares] at first
      cases given : d.initial <;> simp only [given] at first initial
      · rw [first.1, put_fill_of_number number]
      · rw [first.1, Books.put_of_not_kept (by simp [Place.kept, number])]
      · simp at initial
      · simp at initial

/-- Declarations of numbers keep every condition on the books. -/
theorem triple_numbers {P : Books → Prop} {ss : List Stmt} (numbers : ∀ s ∈ ss, declaresNumbers s) :
    BooksTriple p P ss P := by
  induction ss with
  | nil => exact .nil fun _ pre => pre
  | cons s ss ih =>
      refine .cons ?_ (ih fun t mem => numbers t (List.mem_cons_of_mem _ mem))
      have head := numbers s List.mem_cons_self
      cases s with
      | blank | comment => exact .idle rfl
      | declare type items =>
          refine .plain rfl fun a pre =>
            ⟨by simp [resourceContract], fun b done => ?_⟩
          rwa [books_eq_of_numeric head done]
      | declareList type var size content =>
          refine .plain rfl fun a pre =>
            ⟨by simp [resourceContract], fun b done => ?_⟩
          rwa [done.1, put_fill_of_number head]
      | _ => simp at head

/-! ## Handles with fixed places -/

/-- The handles that are declared before the variables of the manifest. -/
def fixedHandles (p : Plan) : List Handle :=
  deviceHandles p ++ programHandles ++ p.kernels.map kernelHandle ++ slotHandles p

/-- A handle is declared as null. -/
theorem triple_declareNull {type : String} {pointer : Bool} {v : Var} {callee : Callee}
    (number : isNumber v = false) (apart : .var v ∉ hs.map (·.place)) :
    BooksTriple p (Declared hs ns)
      [.declare type [{ var := v, pointer, initial := .value .null }]]
      (Declared hs (ns ++ [.ofVar callee v])) := by
  refine .plain rfl fun a declared =>
    ⟨by simp [resourceContract], fun b declares => ?_⟩
  obtain ⟨c, done, same⟩ := declares
  rw [show b = c from same, done.1, if_pos rfl]
  exact declared.put_null (h := .ofVar callee v) (by simp [Handle.ofVar, Place.kept, number]) apart

/-- A row of declarations, each of which declares handles as null. -/
theorem triple_declareRow {β : Type} {f : β → Stmt} {handles : β → List Handle} {bs : List β}
    (each : ∀ b ns, BooksTriple p (Declared hs ns) [f b] (Declared hs (ns ++ handles b))) :
    BooksTriple p (Declared hs ns) (bs.map f) (Declared hs (ns ++ bs.flatMap handles)) := by
  induction bs generalizing ns with
  | nil => exact .nil fun _ pre => by simpa using pre
  | cons b bs ih =>
      have rest : BooksTriple p (Declared hs (ns ++ handles b)) (bs.map f)
          (Declared hs (ns ++ handles b ++ bs.flatMap handles)) := ih
      rw [List.append_assoc] at rest
      exact .cons (each b ns) rest

/-- A completion list is declared with all its slots null. -/
theorem triple_declareTier (tier : Nat) {type : String} {size : Option Nat} {count : Nat} :
    BooksTriple p (Declared [] ns)
      [.declare type [{ var := .tierDone tier, size, initial := .nulls count }]]
      (Declared [] (ns ++ tierHandles p tier)) := by
  refine .plain rfl fun a declared =>
    ⟨by simp [resourceContract], fun b declares => ?_⟩
  obtain ⟨c, done, same⟩ := declares
  rw [show b = c from same, done.1]
  have slot (k : Nat) : (a.books.fill (.tierDone tier) .null).content (.slot (.tierDone tier) k) =
      .null := by
    simp [Books.fill, Place.kept]
  refine ⟨declared.holds.congr rfl (by simp), fun h mem => ?_⟩
  rcases List.mem_append.mp mem with mem | mem
  · have null := declared.null h mem
    generalize h.place = place at null
    cases place with
    | var w => exact null
    | slot list k =>
        simp only [Books.fill]
        split_ifs
        · rfl
        · exact null
  · obtain ⟨k, -, rfl⟩ := List.mem_map.mp mem
    exact slot k

theorem triple_setupDeclarations :
    BooksTriple p (Declared [] []) (setupDeclarations p)
      (Declared [] (deviceHandles p ++ programHandles ++ p.kernels.map kernelHandle)) := by
  have null {ns : List Handle} {type : String} {pointer : Bool} {v : Var} (callee : Callee)
      (number : isNumber v = false) :
      BooksTriple p (Declared [] ns)
        [.declare type [{ var := v, pointer, initial := .value .null }]]
        (Declared [] (ns ++ [Handle.ofVar callee v])) :=
    triple_declareNull number (by simp)
  have numbers {s : Stmt} {ns : List Handle} (number : declaresNumbers s) :
      BooksTriple p (Declared [] ns) [s] (Declared [] ns) :=
    triple_numbers (by simpa using number)
  have queues {ns : List Handle} :
      BooksTriple p (Declared [] ns)
        (p.kernels.map fun k => declareHandle "cl_command_queue" (.queue k.kernel.ident))
        (Declared [] (ns ++ p.kernels.flatMap fun k => [queueHandle k])) :=
    triple_declareRow fun k ns => null .clReleaseCommandQueue rfl
  have kernels {ns : List Handle} :
      BooksTriple p (Declared [] ns)
        (p.kernels.map fun k => declareHandle "cl_kernel" (.kernel k.kernel.ident))
        (Declared [] (ns ++ p.kernels.flatMap fun k => [kernelHandle k])) :=
    triple_declareRow fun k ns => null .clReleaseKernel rfl
  refine .weaken (.append (.append (.append
    (.cons (numbers rfl) <| .cons (numbers rfl) <| .cons (numbers rfl) <|
      .cons (null .free rfl) <| .cons (null .free rfl) (null .clReleaseContext rfl))
    queues)
    (.cons (null .fclose rfl) <| .cons (numbers rfl) <| .cons (null .free rfl) <|
      .cons (numbers rfl) (null .clReleaseProgram rfl)))
    kernels)
    (fun _ pre => pre) fun _ declared => ?_
  simpa [deviceHandles, programHandles, List.map_eq_flatMap] using declared

theorem triple_declarations :
    BooksTriple p (Declared [] []) (declarations p) (Declared [] (fixedHandles p)) := by
  have numbers {P : Books → Prop} {ss : List Stmt} (all : ∀ s ∈ ss, declaresNumbers s) :
      BooksTriple p P ss P := triple_numbers all
  have tiers {ns : List Handle} :
      BooksTriple p (Declared [] ns)
        ((List.range p.schedule.boundaries).map fun tier =>
          .declare "cl_event" [{
            var := .tierDone tier
            size := some (p.schedule.listLength tier)
            initial := .nulls (p.schedule.listLength tier) }])
        (Declared [] (ns ++ slotHandles p)) :=
    triple_declareRow fun tier _ => triple_declareTier tier
  refine .append (.append (.append (numbers ?_) triple_setupDeclarations)
    (.append (.append (.append (numbers ?_) (numbers ?_)) (numbers ?_)) tiers)) (numbers ?_)
  · simp [declareValue, isNumeric, isNumber]
  · split <;> simp [declareValue, isNumeric, isNumber]
  · simp [declareValue, isNumeric, isNumber]
  · split <;> simp [declareValue, isNumeric, isNumber]
  · intro s mem
    obtain ⟨k, -, mem⟩ := List.mem_flatMap.mp mem
    cases sizes : k.kernel.range.localSizes <;>
      simp [rangeDeclarations, declareValue, sizes] at mem <;>
      rcases mem with rfl | rfl | rfl <;> rfl

/-! ## Variables of the manifest -/

/-- The handles of the storage of a variable. -/
def storageHandles (v : Placed) : List Handle :=
  (heapOf v).map (.ofVar .free)

/-- The handle of the buffer of a variable, if it has one. -/
def bufferHandles (template : Template) (v : Placed) : List Handle :=
  (v.buffer? template).toList.map bufferHandle

/-- Something that is no handle is declared. -/
theorem triple_declareOther {s : Stmt} {var : Var} (plain : s.isPlain) (leave : s.isLeave = false)
    (effect : ∀ a b : Ledger, a.Effect s b → b.books = a.books.put (.var var) .other)
    (apart : .var var ∉ (hs ++ ns).map (·.place)) :
    BooksTriple p (Declared hs ns) [s] (Declared hs ns) := by
  refine .plain plain fun a declared =>
    ⟨by simp [-Stmt.isLeave, resourceContract, leave], fun b done => ?_⟩
  rw [effect a b done]
  exact declared.off (Books.off_put ..) apart

/-- Storage is allocated. -/
theorem triple_allocate {type : String} {var : Var} {size : Expr} (number : isNumber var = false)
    (apart : .var var ∉ (hs ++ ns).map (·.place)) :
    BooksTriple p (Declared hs ns)
      [.declare type [{ var, pointer := true, initial := .result ⟨.malloc, [size]⟩ }]]
      (Declared (hs ++ [.ofVar .free var]) ns) := by
  have kept : (Handle.ofVar .free var).place.kept := by simp [Handle.ofVar, Place.kept, number]
  refine .plain rfl fun a declared =>
    ⟨by simp [resourceContract], fun b declares => ?_⟩
  obtain ⟨c, done, same⟩ := declares
  obtain ⟨finished, stores, -, -⟩ := done
  rw [show b = c from same]
  cases finished with
  | true => exact declared.gain kept apart stores
  | false =>
      rw [show c.books = a.books.put (.var var) .null from stores]
      exact declared.fail kept apart

/-- Storage is declared: what needs it is allocated. -/
theorem triple_declareStorage (v : Placed) {var : Var} (contents : Contents)
    (number : isNumber var = false) (list : ∀ tier, var ≠ .tierDone tier)
    (apart : .var var ∉ (hs ++ ns).map (·.place)) :
    BooksTriple p (Declared hs ns) [declareStorage v var contents]
      (Declared (hs ++ if v.layout.storage.isArray && Layout.needsHeap contents then
        [.ofVar .free var] else []) ns) := by
  cases contents with
  | literal text =>
      simp only [Layout.needsHeap, Bool.and_false, Bool.false_eq_true, if_false, List.append_nil]
      simp only [declareStorage]
      split_ifs
      · refine triple_declareOther rfl rfl (fun a b done => ?_) apart
        rw [done.1, fill_of_ne list]
      · refine triple_declareOther rfl rfl (fun a b done => ?_) apart
        rw [done.1, fill_of_ne list]
      · refine triple_declareOther rfl rfl (fun a b done => ?_) apart
        obtain ⟨c, first, rfl⟩ := done
        simpa [Expr.null] using first.1
  | generator | outside =>
      simp only [Layout.needsHeap, Bool.and_true]
      simp only [declareStorage]
      split_ifs
      · exact triple_allocate number apart
      · rw [List.append_nil]
        refine triple_declareOther rfl rfl (fun a b done => ?_) apart
        obtain ⟨c, first, rfl⟩ := done
        rw [first.1, fill_of_ne list]

theorem storageHandles_eq (v : Placed) :
    storageHandles v = (if v.layout.onHeap then [.ofVar .free (.host v.decl.name)] else []) ++
      if v.layout.referenceOnHeap then [.ofVar .free (.reference v.decl.name)] else [] := by
  unfold storageHandles heapOf
  split_ifs <;> rfl

theorem triple_declareBuffer {v : Placed}
    (apart : .var (.buffer v.decl.name) ∉ hs.map (·.place)) :
    BooksTriple p (Declared hs ns)
      ((v.buffer? p.template).toList.map fun b => declareHandle "cl_mem" b.handle)
      (Declared hs (ns ++ bufferHandles p.template v)) := by
  cases made : v.buffer? p.template with
  | none => exact .nil fun _ pre => by simpa [bufferHandles, made] using pre
  | some b =>
      obtain ⟨_, _, _, -, -, rfl⟩ := Placed.buffer?_eq_some_iff.mp made
      simp only [bufferHandles, made, Option.toList_some, List.map_cons, List.map_nil]
      exact triple_declareNull rfl apart

/-- A variable is declared with its reference copy and its buffer. -/
theorem triple_declareVariable {v : Placed} (role : v.layout.role ≠ .scratch)
    (host : .var (.host v.decl.name) ∉ (hs ++ ns).map (·.place))
    (reference : .var (.reference v.decl.name) ∉ (hs ++ ns).map (·.place))
    (buffer : .var (.buffer v.decl.name) ∉ hs.map (·.place)) :
    BooksTriple p (Declared hs ns) (declareVariable p.template v)
      (Declared (hs ++ storageHandles v) (ns ++ bufferHandles p.template v)) := by
  have value := triple_declareStorage (p := p) v v.layout.initial rfl (by simp) host
  have onHeap : (v.layout.storage.isArray && Layout.needsHeap v.layout.initial) =
      v.layout.onHeap := by
    simp [Layout.onHeap, bne_iff_ne.mpr role]
  rw [onHeap] at value
  rw [storageHandles_eq]
  cases given : v.layout.reference with
  | none =>
      have absent : v.layout.referenceOnHeap = false := by simp [Layout.referenceOnHeap, given]
      simp only [declareVariable, given, Option.elim, absent, Bool.false_eq_true, if_false,
        List.append_nil]
      refine .append value (triple_declareBuffer ?_)
      split_ifs <;> simpa [Handle.ofVar] using buffer
  | some contents =>
      have present : v.layout.referenceOnHeap =
          (v.layout.storage.isArray && Layout.needsHeap contents) := by
        simp [Layout.referenceOnHeap, given]
      simp only [declareVariable, given, Option.elim, present]
      rw [← List.append_assoc]
      refine .append (.cons value (.cons (triple_declareStorage v contents rfl (by simp) ?_)
        (triple_numbers ?_))) (triple_declareBuffer ?_)
      · split_ifs <;> simpa [Handle.ofVar] using reference
      · simp [declareValue, isNumeric, isNumber]
      · split_ifs <;> simpa [Handle.ofVar] using buffer

/-- No handle with a fixed place, and none of a buffer, is kept in storage. -/
theorem fixed_apart {h : Handle} {vs : List Placed}
    (mem : h ∈ fixedHandles p ++ vs.flatMap (bufferHandles p.template)) (name : String) :
    h.place ≠ .var (.host name) ∧ h.place ≠ .var (.reference name) := by
  simp only [fixedHandles, deviceHandles, programHandles, slotHandles, tierHandles, bufferHandles,
    List.mem_append, List.mem_map, List.mem_flatMap, List.mem_cons, List.not_mem_nil] at mem
  rcases mem with (((((rfl | rfl | rfl | mem) | ⟨k, -, rfl⟩) | (rfl | rfl | rfl | mem)) |
    ⟨k, -, rfl⟩) | ⟨tier, -, slot, -, rfl⟩) | ⟨v, -, b, -, rfl⟩
  all_goals first
    | exact mem.elim
    | simp [Handle.ofVar, queueHandle, kernelHandle, slotHandle, bufferHandle, Buffer.handle]

/-- Storage is kept in the variables of the manifest and their reference copies. -/
theorem place_of_storage {h : Handle} {vs : List Placed} (mem : h ∈ vs.flatMap storageHandles) :
    ∃ v ∈ vs, h.place = .var (.host v.decl.name) ∨ h.place = .var (.reference v.decl.name) := by
  obtain ⟨v, v_mem, mem⟩ := List.mem_flatMap.mp mem
  obtain ⟨var, var_mem, rfl⟩ := List.mem_map.mp mem
  exact ⟨v, v_mem, (mem_heapOf var_mem).imp (congrArg Place.var) (congrArg Place.var)⟩

theorem triple_declareVariables (wellFormed : p.WellFormed) :
    BooksTriple p (Declared [] (fixedHandles p))
      (p.hostPlaced.flatMap (declareVariable p.template))
      (Declared (p.hostPlaced.flatMap storageHandles)
        (fixedHandles p ++ p.hostPlaced.flatMap (bufferHandles p.template))) := by
  have row := booksTriple_flatMap (p := p) (f := declareVariable p.template)
    (fun before => Declared (before.flatMap storageHandles)
      (fixedHandles p ++ before.flatMap (bufferHandles p.template)))
    fun before v behind (split : p.hostPlaced = _) => ?_
  · simpa using row
  have v_mem : v ∈ p.hostPlaced := by simp [split]
  have onHost : v.decl.onHost := (Plan.mem_hostPlaced.mp v_mem).elim fun _ found => found.2.2
  have role : v.layout.role ≠ .scratch := by
    rw [(wellFormed.fits v_mem).role]
    simpa [Variable.onHost] using onHost
  have fresh : ∀ w ∈ before, w.decl.name ≠ v.decl.name := by
    have names := wellFormed.names_nodup
    rw [split, List.map_append, List.map_cons, List.nodup_append] at names
    exact fun w mem equal => names.2.2 _ (List.mem_map_of_mem mem) _ List.mem_cons_self equal
  have apart : ∀ h ∈ before.flatMap storageHandles ++
      (fixedHandles p ++ before.flatMap (bufferHandles p.template)),
      h.place ≠ .var (.host v.decl.name) ∧ h.place ≠ .var (.reference v.decl.name) := by
    intro h mem
    rcases List.mem_append.mp mem with mem | mem
    · obtain ⟨w, w_mem, place | place⟩ := place_of_storage mem <;>
        simp [place, fresh w w_mem]
    · exact fixed_apart mem v.decl.name
  have buffer : .var (.buffer v.decl.name) ∉ (before.flatMap storageHandles).map (·.place) := by
    rintro mem
    obtain ⟨h, h_mem, equal⟩ := List.mem_map.mp mem
    obtain ⟨w, -, place | place⟩ := place_of_storage h_mem <;> simp [place] at equal
  have each := triple_declareVariable (p := p) role
    (fun mem => (List.mem_map.mp mem).elim fun h found => (apart h found.1).1 found.2)
    (fun mem => (List.mem_map.mp mem).elim fun h found => (apart h found.1).2 found.2) buffer
  simpa [List.append_assoc] using each

/-- Behind the declarations, everything that the set-up acquires is null. -/
theorem ready_of_declared (wellFormed : p.WellFormed) {b : Books}
    (declared : Declared (p.hostPlaced.flatMap storageHandles)
      (fixedHandles p ++ p.hostPlaced.flatMap (bufferHandles p.template)) b) :
    Ready p (setupHandles p ++ slotHandles p) b := by
  have storage : heapHandles p = p.hostPlaced.flatMap storageHandles := by
    rw [heapHandles, heap, List.map_flatMap]
    rfl
  have buffers : p.buffers.map bufferHandle =
      p.hostPlaced.flatMap (bufferHandles p.template) := by
    rw [wellFormed.buffers_eq, List.map_filterMap, List.filterMap_eq_flatMap_toList]
    exact List.flatMap_congr fun v _ => Option.toList_map ..
  have null : ∀ h ∈ setupHandles p ++ slotHandles p, b.content h.place = .null := by
    intro h mem
    apply declared.null h
    simp only [setupHandles, fixedHandles, buffers, List.mem_append] at mem ⊢
    tauto
  have perm : (setupHandles p ++ slotHandles p ++ heapHandles p).Perm (allHandles p) := by
    rw [allHandles, List.append_assoc (heapHandles p)]
    exact List.perm_append_comm
  have nodup := places_nodup wellFormed
  rw [allHandles, List.append_assoc, List.map_append, List.nodup_append] at nodup
  exact
    { holds := ((storage ▸ declared.holds).add_all null).of_perm perm
      null
      nodup := nodup.2.1
      subset := fun h mem => perm.subset (List.mem_append_left _ mem) }

theorem sparesAll_fills (v : Placed) : Code.Each (sparesBooks ·) (fills v) := by
  have fill (var : Var) (contents : Contents) :
      Code.Each (sparesBooks ·) (fill v var contents) := by
    cases contents <;> simp [Host.fill, isReleaser]
  cases reference : v.layout.reference <;> simp [fills, fill, reference]

theorem triple_hostVariables (wellFormed : p.WellFormed) :
    BooksTriple p (Declared [] (fixedHandles p)) (hostVariables p)
      (Ready p (setupHandles p ++ slotHandles p)) := by
  refine .append (.append (.append (triple_numbers ?_)
    (.weaken (triple_declareVariables wellFormed) (fun _ pre => pre)
      fun _ declared => ready_of_declared wellFormed declared)) (triple_spares ?_))
    (triple_spares ?_)
  · simp
  · simp [allocationPhase, phase, announce, succeed, demand, isReleaser]
  · simp [fillPhase, phase, announce, succeed, isReleaser, sparesAll_fills]

end KernelHost.Host
