import KernelHost.Proofs.Plan.Checks
import KernelHost.Proofs.Schedule.Wiring
import KernelHost.Proofs.Scope.Extents

/-!
# Subscripts

Where an array with a declared length is subscripted, the place is below the length: it is a number
that is, or the index of a loop around it whose bound is no greater.
-/

namespace KernelHost

open Code (Call Callee Each Expr Stmt Var)

/-- What is subscripted in an expression, with the places. -/
def Code.Expr.subscripts : Expr → List (Var × Expr)
  | .cast _ e | .address e | .not e | .paren e | .field e _ => e.subscripts
  | .index array place =>
    array.var?.toList.map (·, place) ++ array.subscripts ++ place.subscripts
  | .lane vector place => vector.subscripts ++ place.subscripts
  | .binary _ left right => left.subscripts ++ right.subscripts
  | .outside expected actual tolerance =>
    expected.subscripts ++ actual.subscripts ++ tolerance.subscripts
  | _ => []

/-- A place is below a length, in loops with the given indices and bounds around it. -/
def Code.Expr.Below (loops : List (Var × Nat)) (length : Nat) : Expr → Prop
  | .number n => n < length
  | .var v => ∃ bound ≤ length, loops.lookup v = some bound
  | _ => False

namespace Host

/-- Places in arrays with a declared length are below it. -/
def Confined (p : Plan) (loops : List (Var × Nat)) (e : Expr) : Prop :=
  ∀ x ∈ e.subscripts, ∀ extent length, HasExtent p x.1 extent → extent.count = some length →
    x.2.Below loops length

mutual

/-- Places in arrays are below their lengths in a statement and all statements inside it. -/
def StmtConfined (p : Plan) (loops : List (Var × Nat)) : Stmt → Prop
  | .when c body => Confined p loops c ∧ BlockConfined p loops body
  | .choose c body otherwise =>
    Confined p loops c ∧ BlockConfined p loops body ∧ BlockConfined p loops otherwise
  | .count index bound body => BlockConfined p ((index, bound) :: loops) body
  | .repeatWhile c body => Confined p loops c ∧ BlockConfined p loops body
  | s => ∀ e ∈ s.operands, Confined p loops e

/-- Places in arrays are below their lengths in a block. -/
def BlockConfined (p : Plan) (loops : List (Var × Nat)) : List Stmt → Prop
  | [] => True
  | s :: ss => StmtConfined p loops s ∧ BlockConfined p loops ss

end

variable {p : Plan} {loops : List (Var × Nat)}

@[simp]
theorem blockConfined_nil : BlockConfined p loops [] := by
  simp [BlockConfined]

@[simp]
theorem blockConfined_cons {s : Stmt} {ss : List Stmt} :
    BlockConfined p loops (s :: ss) ↔ StmtConfined p loops s ∧ BlockConfined p loops ss := by
  simp [BlockConfined]

@[simp]
theorem blockConfined_append {ss ts : List Stmt} :
    BlockConfined p loops (ss ++ ts) ↔ BlockConfined p loops ss ∧ BlockConfined p loops ts := by
  induction ss with
  | nil => simp
  | cons s ss ih => simp [ih, and_assoc]

theorem blockConfined_flatMap {α : Type} {as : List α} {f : α → List Stmt}
    (each : ∀ a ∈ as, BlockConfined p loops (f a)) : BlockConfined p loops (as.flatMap f) := by
  induction as with
  | nil => simp
  | cons a as ih =>
      have rest : ∀ b ∈ as, BlockConfined p loops (f b) :=
        fun b mem => each b (List.mem_cons_of_mem _ mem)
      simpa using ⟨each a List.mem_cons_self, ih rest⟩

/-- Outside all loops, places are numbers. -/
theorem Confined.of_nil {e : Expr} (confined : Confined p [] e) : Confined p loops e := by
  intro x mem extent length has count
  have below := confined x mem extent length has count
  cases place : x.2 <;> simp_all [Expr.Below]

/-- The places that a statement uses by itself are numbers. -/
def Numbered (p : Plan) (s : Stmt) : Prop :=
  ∀ e ∈ s.operands, Confined p [] e

attribute [local simp] StmtConfined Numbered Stmt.operands Code.Condition.operands
  Code.Failure.call Expr.subscripts

mutual

theorem StmtConfined.of_within (s : Stmt) (numbered : ∀ t ∈ s.within, Numbered p t)
    (loops : List (Var × Nat)) : StmtConfined p loops s := by
  have self : ∀ e ∈ s.operands, Confined p loops e := fun e mem =>
    (numbered s (by cases s <;> simp [Stmt.within]) e mem).of_nil
  cases s with
  | when c body =>
      have inner := BlockConfined.of_each body (Code.forall_within_when.mp numbered).2 loops
      simpa [inner] using self c (by simp)
  | choose c body otherwise =>
      obtain ⟨-, first, second⟩ := Code.forall_within_choose.mp numbered
      have inner := BlockConfined.of_each body first loops
      have other := BlockConfined.of_each otherwise second loops
      simpa [inner, other] using self c (by simp)
  | count index bound body =>
      have inner := BlockConfined.of_each body (Code.forall_within_count.mp numbered).2
      simpa using inner _
  | repeatWhile c body =>
      have inner := BlockConfined.of_each body (Code.forall_within_repeatWhile.mp numbered).2 loops
      simpa [inner] using self c (by simp)
  | _ => exact self

/-- Where all places are numbers, they are in bounds in any loops. -/
theorem BlockConfined.of_each (ss : List Stmt) (numbered : Each (Numbered p) ss)
    (loops : List (Var × Nat)) : BlockConfined p loops ss := by
  cases ss with
  | nil => simp
  | cons s ss =>
      obtain ⟨first, rest⟩ := Each.cons_iff.mp numbered
      exact blockConfined_cons.mpr ⟨.of_within s first loops, .of_each ss rest loops⟩

end

section Forms

/-! ## Expressions -/

/-- A place is below the length of an array, if the array has one. -/
def Inside (p : Plan) (loops : List (Var × Nat)) (v : Var) (place : Expr) : Prop :=
  ∀ extent length, HasExtent p v extent → extent.count = some length → place.Below loops length

@[simp]
theorem confined_leaf :
    (∀ v, Confined p loops (.var v)) ∧ (∀ name, Confined p loops (.constant name)) ∧
      (∀ n, Confined p loops (.number n)) ∧ (∀ n, Confined p loops (.unsigned n)) ∧
      (∀ pieces, Confined p loops (.literal pieces)) ∧
      (∀ text, Confined p loops (.quoted text)) ∧
      (∀ text, Confined p loops (.verbatim text)) ∧
      (∀ type, Confined p loops (.sizeOf type)) ∧ Confined p loops .null ∧
      (∀ body, Confined p loops (.plain body)) ∧
      ∀ count type, Confined p loops (.bytesOf count type) := by
  simp [Confined, Expr.null, Expr.plain, Expr.bytesOf]

@[simp]
theorem confined_node :
    (∀ type e, Confined p loops (.cast type e) ↔ Confined p loops e) ∧
      (∀ e, Confined p loops (.address e) ↔ Confined p loops e) ∧
      (∀ e, Confined p loops (.not e) ↔ Confined p loops e) ∧
      (∀ e, Confined p loops (.paren e) ↔ Confined p loops e) ∧
      (∀ e name, Confined p loops (.field e name) ↔ Confined p loops e) ∧
      (∀ v place, Confined p loops (.index (.var v) place) ↔
        Inside p loops v place ∧ Confined p loops place) ∧
      (∀ vector place, Confined p loops (.lane vector place) ↔
        Confined p loops vector ∧ Confined p loops place) ∧
      (∀ op left right, Confined p loops (.binary op left right) ↔
        Confined p loops left ∧ Confined p loops right) ∧
      ∀ expected actual tolerance, Confined p loops (.outside expected actual tolerance) ↔
        Confined p loops expected ∧ Confined p loops actual ∧ Confined p loops tolerance := by
  simp [Confined, Inside, Expr.var?, or_imp, forall_and]

/-- The lists that the set-up fills in have no declared length. -/
@[simp]
theorem inside_list {place : Expr} :
    Inside p loops .platforms place ∧ Inside p loops .devices place ∧
      Inside p loops .programContent place := by
  simp [Inside, not_hasExtent]

/-! ## Statements -/

@[simp]
theorem numbered_phase {title message : String} {perPass : Bool} {ss : List Stmt} :
    Each (Numbered p) (phase title perPass message ss) ↔ Each (Numbered p) ss := by
  cases perPass <;> simp [phase, announce, succeed]

@[simp]
theorem numbered_callForStatus {call : Call} {object : Option String} :
    Each (Numbered p) (callForStatus call object) ↔ ∀ e ∈ call.args, Confined p [] e := by
  cases object <;>
    simp [callForStatus, checkStatus]

@[simp]
theorem numbered_callForResult {target : Var} {call : Call} {object : Option String} :
    Each (Numbered p) (callForResult target call object) ↔ ∀ e ∈ call.args, Confined p [] e := by
  cases object <;>
    simp [callForResult, checkStatus]

theorem numbered_hookCall (hook : Hook) : Each (Numbered p) (hookCall p hook) := by
  rw [hookCall]
  split
  · have arguments : ∀ e ∈ p.signature.arguments hook.perPass, Confined p [] e := by
      intro e mem
      rw [Signature.arguments, List.mem_append, List.mem_flatMap] at mem
      rcases mem with ⟨q, -, of⟩ | of
      · rcases List.mem_cons.mp of with rfl | of
        · simp
        · split at of <;> simp_all
      · split at of <;> simp_all
    simpa using arguments
  · simp

end Forms

/-! ## Sections -/

theorem confined_hostAddress (b : Buffer) : Confined p loops b.hostAddress := by
  rw [Buffer.hostAddress]
  split <;> simp

theorem numbered_bindArgument (ident : String) (a : Argument) :
    Each (Numbered p) (bindArgument ident a) := by
  cases binding : a.binding <;>
    simp [bindArgument, binding, Binding.size, Binding.address]

theorem numbered_setup (p : Plan) : Each (Numbered p) (setup p) := by
  have queue (k : Kernel) : Each (Numbered p) (queuePhase p k) := by
    cases api : p.settings.api <;>
      simp [queuePhase, createQueue, api, chosenDevice, statusAddress]
  have program : Each (Numbered p) (programPhase p) := by
    rw [programPhase, createProgram]
    split <;> simp [chosenDevice, statusAddress]
  have buffer (b : Buffer) : Each (Numbered p) (createBuffer b) := by
    cases access : b.access <;>
      simp [createBuffer, access, BufferAccess.flags, BufferAccess.copiesHost, Buffer.size,
        confined_hostAddress, statusAddress]
  simp [setup, platformPhase, devicePhase, contextPhase, openPhase, readPhase, buildPhase,
    kernelPhase, bufferPhase, argumentPhase, numbered_bindArgument, allocateList, demandIndex,
    demand, chosenDevice, chosenPlatform, statusAddress, queue, program, buffer]

/-- What is subscripted stands as an element. -/
theorem mem_leavesAs_of_mem_subscripts {x : Var × Expr} {e : Expr} (mem : x ∈ e.subscripts)
    (stand : Code.Stand) : (.var x.1, .element) ∈ e.leavesAs stand := by
  induction e generalizing stand with
  | cast _ e ih | address e ih | not e ih | paren e ih | field e _ ih => exact ih mem _
  | index array place iha ihp =>
      simp only [Expr.subscripts, List.mem_append, List.mem_map, Option.mem_toList] at mem
      simp only [Expr.leavesAs, List.mem_append]
      rcases mem with (⟨v, is, rfl⟩ | mem) | mem
      · cases array <;> simp_all [Expr.var?, Expr.leavesAs]
      · exact .inl (iha mem _)
      · exact .inr (ihp mem _)
  | lane left right ihl ihr | binary _ left right ihl ihr =>
      simp only [Expr.subscripts, List.mem_append] at mem
      simp only [Expr.leavesAs, List.mem_append]
      exact mem.imp (ihl · _) (ihr · _)
  | outside expected actual tolerance ihe iha iht =>
      simp only [Expr.subscripts, List.mem_append] at mem
      simp only [Expr.leavesAs, List.mem_append]
      exact mem.imp (Or.imp (ihe · _) (iha · _)) (iht · _)
  | _ => simp at mem

/-- What uses no variable subscripts none. -/
theorem Opens.numbered {s : Stmt} (opens : Opens s) : Numbered p s := by
  intro e e_mem x mem
  have used : x.1 ∈ s.uses := by
    simp only [Stmt.uses, List.mem_append, List.mem_map, List.mem_flatMap]
    refine .inl ⟨(x.1, .element), ⟨e, e_mem, ?_⟩, rfl⟩
    exact List.mem_filterMap.mpr ⟨_, mem_leavesAs_of_mem_subscripts mem .itself, rfl⟩
  rw [opens.uses] at used
  simp at used

theorem numbered_preparation (p : Plan) :
    Each (Numbered p) (allocationPhase p ++ fillPhase p) := by
  have fill (v : Placed) (var : Var) (contents : Contents) :
      Each (Numbered p) (fill v var contents) := by
    cases contents with
    | generator name =>
        rw [Host.fill]
        split <;> simp
    | _ => simp [Host.fill]
  have fills (v : Placed) : Each (Numbered p) (fills v) := by
    cases reference : v.layout.reference <;> simp [Host.fills, reference, fill]
  simp [allocationPhase, fillPhase, demand, fills]

theorem numbered_launches (p : Plan) : Each (Numbered p) (launches p) := by
  refine Each.flatMap_iff.mpr fun l l_mem => ?_
  cases p.kernels[l.kernel]? with
  | none => simp
  | some k =>
      have wait : ∀ e ∈ waitOf p l, Confined p [] e := by
        unfold waitOf
        cases l.wait <;> simp
      have signal : Confined p [] (signalOf l) := by
        unfold signalOf
        cases signals : l.signal with
        | none => simp
        | some place =>
            have inside : Inside p [] (.tierDone place.1) (.number place.2) := by
              intro extent length has count
              obtain ⟨-, rfl⟩ := hasExtent_tierDone.mp has
              obtain rfl := Option.some.inj count
              exact (Schedule.lt_listLength_of_signal l_mem signals).2
            simpa using inside
      have sizes : Confined p [] (sizesOf k.kernel) := by
        unfold sizesOf
        split <;> simp
      simpa [launch_eq, or_imp, forall_and, signal, sizes] using wait

theorem confined_releaseList (tier : Nat) : StmtConfined p loops (releaseList p tier) := by
  have inside : Inside p ((.i, p.schedule.listLength tier) :: loops) (.tierDone tier)
      (.var .i) := by
    intro extent length has count
    obtain ⟨-, rfl⟩ := hasExtent_tierDone.mp has
    obtain rfl := Option.some.inj count
    exact ⟨_, Nat.le_refl _, by simp⟩
  simp [releaseList, inside]

theorem confined_nest {nested : List (Var × Nat)} {ss : List Stmt}
    (body : BlockConfined p (nested.reverse ++ loops) ss) :
    BlockConfined p loops (nest nested ss) := by
  induction nested generalizing loops with
  | nil => exact body
  | cons l nested ih =>
      have inner := @ih (l :: loops) (by simpa using body)
      rw [nest] at inner
      simpa [nest] using inner

/-- The elements that are compared are those of the variable. -/
theorem confined_access {w : Placed} {c : Check} (compared : w.ComparedBy c) {base : Var}
    (has : ∀ extent, HasExtent p base extent → extent = extentOf w) :
    Confined p (c.loops.reverse ++ loops) (c.access base) := by
  have elements := compared.elements
  cases array : w.layout.storage.isArray with
  | true =>
      rw [array, if_pos rfl] at elements
      have inside (around : List (Var × Nat))
          (index : around.lookup .i = some w.layout.storage.count) :
          Inside p around base (.var .i) := by
        intro extent length found count
        rw [has extent found, extentOf, if_pos array] at count
        obtain rfl := Option.some.inj count
        exact ⟨_, Nat.le_refl _, index⟩
      -- The index of lanes inside elements is another one, so it does not hide that of elements.
      cases lanes : c.lanes with
      | none =>
          have place := inside ((.i, w.layout.storage.count) :: loops) rfl
          simpa [Check.access, Check.elementIndex?, Check.laneIndex?, Check.loops, elements, lanes]
            using place
      | some n =>
          have place := inside ((.j, n) :: (.i, w.layout.storage.count) :: loops) rfl
          simpa [Check.access, Check.elementIndex?, Check.laneIndex?, Check.loops, elements, lanes]
            using place
  | false =>
      rw [array, if_neg Bool.false_ne_true] at elements
      cases lanes : c.lanes <;>
        simp [Check.access, Check.elementIndex?, Check.laneIndex?, elements, lanes]

theorem confined_compareOutput (wellFormed : p.WellFormed) {w : Placed} (mem : w ∈ p.hostPlaced)
    {c : Check} (compared : w.ComparedBy c) : BlockConfined p loops (compareOutput c) := by
  have expected : Confined p (c.loops.reverse ++ loops) c.expected := by
    rw [Check.expected, compared.output]
    exact confined_access compared fun e has => extent_eq_of_hasExtent wellFormed mem (.inr has)
  have actual : Confined p (c.loops.reverse ++ loops) c.actual := by
    rw [Check.actual, compared.output]
    exact confined_access compared fun e has => extent_eq_of_hasExtent wellFormed mem (.inl has)
  have test : Confined p (c.loops.reverse ++ loops) c.test := by
    rw [Check.test, compared.comparison]
    cases w.decl.tolerance <;> simp [Comparison.condition, expected, actual]
  have args : ∀ e ∈ c.locationArgs.map Expr.var ++ [c.expected, c.actual],
      Confined p (c.loops.reverse ++ loops) e := by
    intro e mem
    simp only [List.mem_append, List.mem_map, List.mem_cons, List.not_mem_nil, or_false] at mem
    obtain ⟨v, -, rfl⟩ | rfl | rfl := mem
    · simp
    · exact expected
    · exact actual
  refine confined_nest ?_
  simpa [reportMismatch, test] using args

/-! ## The program -/

theorem confined_events {tiers : List Nat} :
    BlockConfined p loops (tiers.map (releaseList p)) := by
  induction tiers with
  | nil => simp
  | cons tier tiers ih => simp [ih, confined_releaseList]

theorem confined_pass (p : Plan) (perPass : Bool) : BlockConfined p loops (pass p perPass) := by
  have transfer (callee : Callee) (b : Buffer) : Each (Numbered p) (transfer callee b) := by
    simp [Host.transfer, confined_hostAddress, Buffer.size]
  have front : Each (Numbered p)
      (uploadPhase p perPass ++ launchPhase p perPass ++ downloadPhase p perPass) := by
    simp [uploadPhase, uploads, rebinds, numbered_bindArgument, launchPhase, numbered_launches,
      downloadPhase, downloads, transfer, readClock, elapsed]
  have events : BlockConfined p loops (eventPhase p) := by
    rw [eventPhase]
    split
    · simp
    · simp [confined_events]
  rw [pass, blockConfined_append, blockConfined_append]
  exact ⟨⟨.of_each _ front loops, events⟩, by simp⟩

theorem confined_run (p : Plan) : BlockConfined p loops (run p) := by
  have hook (h : Hook) : BlockConfined p loops (hookCall p h) :=
    .of_each _ (numbered_hookCall h) loops
  rw [run]
  split
  · exact confined_pass p false
  · simp [confined_pass, hook]

theorem confined_verdict (wellFormed : p.WellFormed) {m : Manifest} (arranged : p.Arranges m) :
    BlockConfined p loops (verdict p) := by
  have hook : BlockConfined p loops (hookCall p .postamble) :=
    .of_each _ (numbered_hookCall _) loops
  have report : Each (Numbered p) (profilingReport p) := by
    simp [profilingReport]
  have compared : BlockConfined p loops (p.checks.flatMap compareOutput) := by
    refine blockConfined_flatMap fun c mem => ?_
    obtain ⟨w, w_mem, compared⟩ := arranged.exists_of_mem_checks mem
    exact confined_compareOutput wellFormed w_mem compared
  have outcome : BlockConfined p loops (validation p) := by
    rw [validation]
    split
    · simp
    · simp [compared, announce, succeed]
  rw [verdict, blockConfined_append, blockConfined_append]
  exact ⟨⟨hook, .of_each _ report loops⟩, outcome⟩

theorem confined_cleanup (p : Plan) : BlockConfined p loops (cleanup p) := by
  have hook : BlockConfined p loops (hookCall p .cleanup) :=
    .of_each _ (numbered_hookCall _) loops
  have group {title : String} {releases : List Stmt} (inside : BlockConfined p loops releases) :
      BlockConfined p loops (releaseGroup title releases) := by
    rw [releaseGroup]
    split <;> simp [inside]
  have released {title : String} {α : Type} {as : List α} {f : α → Stmt}
      (plain : ∀ a ∈ as, ∃ callee v, f a = release callee v) :
      BlockConfined p loops (releaseGroup title (as.map f)) := by
    refine group (.of_each _ (Each.map_iff.mpr fun a mem => ?_) loops)
    obtain ⟨callee, v, eq⟩ := plain a mem
    simp [eq, release]
  have program : BlockConfined p loops [release .clReleaseProgram .program,
      release .free .programContent, release .fclose .programFile] := by
    simp [release]
  have last : BlockConfined p loops [release .clReleaseContext .context,
      release .free .devices, release .free .platforms] := by
    simp [release]
  have ends : BlockConfined p loops [.blank, .cleanupLabel] ∧
      BlockConfined p loops [.blank, .leave (.var .exitCode)] := by
    simp
  simp only [cleanup, blockConfined_append]
  exact ⟨⟨⟨⟨⟨⟨⟨⟨⟨ends.1, group confined_events⟩, released fun b _ => ⟨_, _, rfl⟩⟩,
    released fun k _ => ⟨_, _, rfl⟩⟩, group program⟩, released fun k _ => ⟨_, _, rfl⟩⟩,
    group last⟩, hook⟩, released fun v _ => ⟨_, _, rfl⟩⟩, ends.2⟩

/-- Wherever `main` subscripts an array with a declared length, the place is below it. -/
theorem confined_body (wellFormed : p.WellFormed) {m : Manifest} (arranged : p.Arranges m) :
    BlockConfined p [] (body p) := by
  have opened : BlockConfined p [] (opening p) :=
    .of_each _ (fun s mem => (opens_opening p s mem).numbered) []
  have prepared : BlockConfined p [] (allocationPhase p ++ fillPhase p) :=
    .of_each _ (numbered_preparation p) []
  have hook : BlockConfined p [] (hookCall p .preamble) := .of_each _ (numbered_hookCall _) []
  have setup : BlockConfined p [] (setup p) := .of_each _ (numbered_setup p) []
  rw [blockConfined_append] at prepared
  simp [body_eq, behindOpening, opened, prepared, hook, setup, confined_run, confined_cleanup,
    confined_verdict wellFormed arranged]

end Host
end KernelHost
