import KernelHost.Proofs.Code.Operands
import KernelHost.Proofs.Code.Landing

/-!
# Checks of statuses

A call of the runtime leaves its status in a variable of `main`, by its result or through an
address.  Each such call is written in one function and its check in another; still, in every block
of the program, the check that names the call is the very next statement.
-/

namespace KernelHost

open Code (Call Callee Each Expr Stand Stmt Var)

namespace Code.Stmt

/-- The blocks right inside a statement. -/
def bodies : Stmt → List (List Stmt)
  | .when _ body | .count _ _ body | .repeatWhile _ body => [body]
  | .choose _ body otherwise => [body, otherwise]
  | _ => []

/-- A block and all blocks inside it. -/
def blocks (ss : List Stmt) : List (List Stmt) :=
  ss :: (allWithin ss).flatMap bodies

attribute [local simp] bodies

@[simp]
theorem bodies_leaf :
    bodies .blank = [] ∧
      (∀ text, bodies (.comment text) = []) ∧
      (∀ type items, bodies (.declare type items) = []) ∧
      (∀ type v size content, bodies (.declareList type v size content) = []) ∧
      (∀ target value, bodies (.assign target value) = []) ∧
      (∀ target value, bodies (.increase target value) = []) ∧
      (∀ v, bodies (.increment v) = []) ∧
      (∀ target call, bodies (.store target call) = []) ∧
      (∀ call, bodies (.perform call) = []) ∧
      (∀ c failure, bodies (.ensure c failure) = []) ∧
      (∀ c call, bodies (.guarded c call) = []) ∧
      bodies .cleanupLabel = [] ∧
      ∀ value, bodies (.leave value) = [] := by
  simp

/-- The blocks inside a statement are written among its lines, one tabulator deeper. -/
theorem lines_of_mem_bodies {s : Stmt} {body : List Stmt} (mem : body ∈ s.bodies) (depth : Nat) :
    ∃ above below, s.lines depth = above ++ block (depth + 1) body ++ below := by
  cases s with
  | «when» c inner =>
      obtain rfl : body = inner := by simpa using mem
      exact ⟨[_], [_], rfl⟩
  | choose c inner otherwise =>
      have mem : body = inner ∨ body = otherwise := by simpa using mem
      rcases mem with rfl | rfl
      · refine ⟨[⟨depth, "if(" ++ c.text ++ ") \x7b"⟩],
          ⟨depth, "\x7d else \x7b"⟩ :: block (depth + 1) otherwise ++ [⟨depth, "\x7d"⟩], ?_⟩
        simp [lines]
      · refine ⟨⟨depth, "if(" ++ c.text ++ ") \x7b"⟩ :: block (depth + 1) inner ++
          [⟨depth, "\x7d else \x7b"⟩], [⟨depth, "\x7d"⟩], ?_⟩
        simp [lines]
  | count index bound inner =>
      obtain rfl : body = inner := by simpa using mem
      exact ⟨[_], [_], rfl⟩
  | repeatWhile c inner =>
      obtain rfl : body = inner := by simpa using mem
      exact ⟨[_], [_], rfl⟩
  | _ => simp at mem

theorem lines_of_mem {ss : List Stmt} {s : Stmt} (mem : s ∈ ss) (depth : Nat) :
    ∃ above below, block depth ss = above ++ s.lines depth ++ below := by
  obtain ⟨front, back, rfl⟩ := List.append_of_mem mem
  exact ⟨block depth front, block depth back, by simp [block]⟩

/-- A statement stands in a block or in a block inside one of its statements. -/
inductive Inside : List Stmt → Stmt → Prop
  | here {ss : List Stmt} {s : Stmt} (mem : s ∈ ss) : Inside ss s
  | deeper {ss body : List Stmt} {s t : Stmt} (mem : s ∈ ss) (body_mem : body ∈ s.bodies)
      (inside : Inside body t) : Inside ss t

mutual

theorem inside_of_mem_within {t : Stmt} :
    (s : Stmt) → t ∈ s.within → Inside [s] t
  | .when c inner, mem => by
      rw [within, List.mem_cons] at mem
      rcases mem with rfl | mem
      · exact .here (List.mem_singleton_self _)
      · exact .deeper (List.mem_singleton_self _) (by simp)
          (inside_of_mem_allWithin inner mem)
  | .choose c inner otherwise, mem => by
      rw [within, List.mem_cons, List.mem_append] at mem
      rcases mem with rfl | mem | mem
      · exact .here (List.mem_singleton_self _)
      · exact .deeper (List.mem_singleton_self _) (by simp)
          (inside_of_mem_allWithin inner mem)
      · exact .deeper (List.mem_singleton_self _) (by simp)
          (inside_of_mem_allWithin otherwise mem)
  | .count index bound inner, mem => by
      rw [within, List.mem_cons] at mem
      rcases mem with rfl | mem
      · exact .here (List.mem_singleton_self _)
      · exact .deeper (List.mem_singleton_self _) (by simp)
          (inside_of_mem_allWithin inner mem)
  | .repeatWhile c inner, mem => by
      rw [within, List.mem_cons] at mem
      rcases mem with rfl | mem
      · exact .here (List.mem_singleton_self _)
      · exact .deeper (List.mem_singleton_self _) (by simp)
          (inside_of_mem_allWithin inner mem)
  | .blank, mem | .comment _, mem | .declare _ _, mem | .declareList _ _ _ _, mem
  | .assign _ _, mem | .increase _ _, mem | .increment _, mem | .store _ _, mem
  | .perform _, mem | .ensure _ _, mem | .guarded _ _, mem | .cleanupLabel, mem
  | .leave _, mem => .here (by simpa [within] using mem)

theorem inside_of_mem_allWithin {t : Stmt} :
    (ss : List Stmt) → t ∈ allWithin ss → Inside ss t
  | [], mem => by simp [allWithin] at mem
  | s :: ss, mem => by
      rw [allWithin, List.mem_append] at mem
      rcases mem with mem | mem
      · cases inside_of_mem_within s mem with
        | here mem => exact .here (by simp_all)
        | deeper mem body_mem inside =>
            exact .deeper (by simp_all) body_mem inside
      · cases inside_of_mem_allWithin ss mem with
        | here mem => exact .here (List.mem_cons_of_mem _ mem)
        | deeper mem body_mem inside =>
            exact .deeper (List.mem_cons_of_mem _ mem) body_mem inside

end

theorem within_eq (s : Stmt) : s.within = s :: s.bodies.flatMap allWithin := by
  cases s <;> simp [within]

/-- What is inside a statement of a block is inside the block. -/
theorem mem_allWithin_of_mem_within {ss : List Stmt} {s t : Stmt} (inside : Inside ss s)
    (mem : t ∈ s.within) : t ∈ allWithin ss := by
  have within {ss : List Stmt} {s t : Stmt} (mem : s ∈ ss) (t_mem : t ∈ s.within) :
      t ∈ allWithin ss := by
    obtain ⟨front, back, rfl⟩ := List.append_of_mem mem
    simp [allWithin, t_mem]
  induction inside with
  | here s_mem => exact within s_mem mem
  | deeper s_mem body_mem _ ih =>
      refine within s_mem ?_
      rw [within_eq]
      exact List.mem_cons_of_mem _ (List.mem_flatMap.mpr ⟨_, body_mem, ih mem⟩)

theorem mem_allWithin_of_inside {ss : List Stmt} {t : Stmt} (inside : Inside ss t) :
    t ∈ allWithin ss :=
  mem_allWithin_of_mem_within inside (by simp [within_eq])

theorem Inside.of_mem_bodies {ss body : List Stmt} {s t : Stmt} (inside : Inside ss s)
    (body_mem : body ∈ s.bodies) (mem : t ∈ body) : Inside ss t := by
  induction inside with
  | here s_mem => exact .deeper s_mem body_mem (.here mem)
  | deeper u_mem inner_mem _ ih => exact .deeper u_mem inner_mem (ih body_mem)

theorem Inside.lines {ss : List Stmt} {s : Stmt} (inside : Inside ss s) (depth : Nat) :
    ∃ deeper above below, block depth ss = above ++ s.lines deeper ++ below := by
  induction inside generalizing depth with
  | here mem => exact ⟨depth, lines_of_mem mem depth⟩
  | deeper mem body_mem _ ih =>
      obtain ⟨above, below, written⟩ := lines_of_mem mem depth
      obtain ⟨above', below', body_written⟩ := lines_of_mem_bodies body_mem depth
      obtain ⟨deeper, above'', below'', inner_written⟩ := ih (depth + 1)
      exact ⟨deeper, above ++ above' ++ above'', below'' ++ below' ++ below, by
        simp [written, body_written, inner_written]⟩

/-- A block of a program is written somewhere among its lines. -/
theorem lines_of_mem_blocks {ss inner : List Stmt} (mem : inner ∈ blocks ss) (depth : Nat) :
    ∃ deeper above below, block depth ss = above ++ block deeper inner ++ below := by
  rcases List.mem_cons.mp mem with rfl | mem
  · exact ⟨depth, [], [], by simp⟩
  · obtain ⟨s, s_mem, inner_mem⟩ := List.mem_flatMap.mp mem
    obtain ⟨deeper, above, below, written⟩ := (inside_of_mem_allWithin ss s_mem).lines depth
    obtain ⟨above', below', inner_written⟩ := lines_of_mem_bodies inner_mem deeper
    exact ⟨deeper + 1, above ++ above', below' ++ below, by simp [written, inner_written]⟩

end Code.Stmt

namespace Host

/-- A call is handed the address of the status. -/
def Addressed (call : Call) : Prop :=
  (Var.callStatus, Stand.address) ∈ call.args.flatMap Expr.stands

theorem addressed_iff {call : Call} :
    Addressed call ↔ (Var.callStatus, Stand.address) ∈ call.args.flatMap Expr.stands :=
  Iff.rfl

/-- A statement makes a call that leaves its status behind. -/
def TakesStatus (s : Stmt) (call : Call) : Prop :=
  call ∈ s.made ∧ (s = .store (.var .callStatus) call ∨ Addressed call)

/-- A statement leaves the status alone. -/
def Calm (s : Stmt) : Prop :=
  ∀ call, ¬ TakesStatus s call

/-- In a block, the check of each status comes next. -/
def Followed : List Stmt → Prop
  | [] => True
  | s :: ss =>
    (∀ call, TakesStatus s call → ∃ object rest, ss = checkStatus call.callee object :: rest) ∧
      Followed ss

attribute [local simp] Stmt.made Code.Initial.made Code.Condition.made Code.Failure.call

theorem calm_iff {s : Stmt} (noStore : ∀ call, s ≠ .store (.var .callStatus) call) :
    Calm s ↔ ∀ call ∈ s.made, ¬ Addressed call := by
  simp only [Calm, TakesStatus, noStore, false_or, not_and]

@[simp]
theorem calm_leaf :
    Calm .blank ∧
      (∀ text, Calm (.comment text)) ∧
      (∀ type v size content, Calm (.declareList type v size content)) ∧
      (∀ target value, Calm (.assign target value)) ∧
      (∀ target value, Calm (.increase target value)) ∧
      (∀ v, Calm (.increment v)) ∧
      (∀ c body, Calm (.when c body)) ∧
      (∀ c body otherwise, Calm (.choose c body otherwise)) ∧
      (∀ index bound body, Calm (.count index bound body)) ∧
      (∀ c body, Calm (.repeatWhile c body)) ∧
      Calm .cleanupLabel ∧
      ∀ value, Calm (.leave value) := by
  simp [calm_iff]

@[simp]
theorem calm_call {call : Call} :
    (Calm (.perform call) ↔ ¬ Addressed call) ∧
      (∀ c, Calm (.guarded c call) ↔ ¬ Addressed call) ∧
      ∀ v, v ≠ .callStatus → (Calm (.store (.var v) call) ↔ ¬ Addressed call) := by
  refine ⟨by simp [calm_iff], fun c => by simp [calm_iff], fun v other => ?_⟩
  rw [calm_iff fun call same => other (by cases same; rfl)]
  simp

@[simp]
theorem calm_declare {type : String} {items : List Code.Declarator} :
    Calm (.declare type items) ↔ ∀ d ∈ items, ∀ call ∈ d.initial.made, ¬ Addressed call := by
  rw [calm_iff (by simp)]
  simp only [Stmt.made, List.mem_flatMap]
  exact ⟨fun all d mem call made => all call ⟨d, mem, made⟩,
    fun all call ⟨d, mem, made⟩ => all d mem call made⟩

@[simp]
theorem calm_ensure {c : Code.Condition} {failure : Code.Failure} :
    Calm (.ensure c failure) ↔ (∀ call ∈ c.made, ¬ Addressed call) ∧ ¬ Addressed failure.call := by
  simp [calm_iff, or_imp, forall_and]

/-! ## Rows of statements -/

namespace Followed

variable {ss ts : List Stmt}

theorem append (first : Followed ss) (second : Followed ts) : Followed (ss ++ ts) := by
  induction ss with
  | nil => exact second
  | cons s ss ih =>
      refine ⟨fun call takes => ?_, ih first.2⟩
      obtain ⟨object, rest, rfl⟩ := first.1 call takes
      exact ⟨object, rest ++ ts, rfl⟩

theorem of_calm (calm : ∀ s ∈ ss, Calm s) : Followed ss := by
  induction ss with
  | nil => trivial
  | cons s ss ih =>
      obtain ⟨head, tail⟩ := List.forall_mem_cons.mp calm
      exact ⟨fun call takes => absurd takes (head call), ih tail⟩

theorem of_split {front rest : List Stmt} {s : Stmt} {call : Call}
    (followed : Followed (front ++ s :: rest)) (takes : TakesStatus s call) :
    ∃ object later, rest = checkStatus call.callee object :: later := by
  induction front with
  | nil => exact followed.1 call takes
  | cons t front ih => exact ih followed.2

end Followed

/-- In all blocks of a row, the check of each status comes next. -/
structure Secured (ss : List Stmt) : Prop where
  followed : Followed ss
  inside : ∀ s ∈ Stmt.allWithin ss, ∀ body ∈ s.bodies, Followed body

namespace Secured

variable {α : Type} {ss ts : List Stmt}

theorem nil : Secured [] :=
  ⟨trivial, by simp [Stmt.allWithin]⟩

theorem append (first : Secured ss) (second : Secured ts) : Secured (ss ++ ts) := by
  refine ⟨first.followed.append second.followed, ?_⟩
  rw [Stmt.allWithin_append]
  exact List.forall_mem_append.mpr ⟨first.inside, second.inside⟩

theorem flatMap {as : List α} {f : α → List Stmt} (each : ∀ a ∈ as, Secured (f a)) :
    Secured (as.flatMap f) := by
  induction as with
  | nil => exact nil
  | cons a as ih =>
      obtain ⟨head, tail⟩ := List.forall_mem_cons.mp each
      exact head.append (ih tail)

theorem ite {c : Prop} [Decidable c] (first : Secured ss) (second : Secured ts) :
    Secured (if c then ss else ts) := by
  split
  · exact first
  · exact second

/-- Where no status is taken at all, none goes without a check. -/
theorem of_calm (calm : Each Calm ss) : Secured ss where
  followed := .of_calm fun _ mem => calm.of_mem mem
  inside _ s_mem _ body_mem := by
    refine .of_calm fun t mem => calm t ?_
    exact Stmt.mem_allWithin_of_inside
      ((Stmt.inside_of_mem_allWithin ss s_mem).of_mem_bodies body_mem mem)

theorem repeatWhile {c : Expr} (body : Secured ss) : Secured [.repeatWhile c ss] := by
  refine ⟨.of_calm (by simp), ?_⟩
  simp only [Stmt.allWithin, Stmt.within, List.append_nil, List.forall_mem_cons, Stmt.bodies,
    List.mem_singleton, forall_eq]
  exact ⟨body.followed, body.inside⟩

theorem of_mem_blocks {block : List Stmt} (secured : Secured ss) (mem : block ∈ Stmt.blocks ss) :
    Followed block := by
  rcases List.mem_cons.mp mem with rfl | mem
  · exact secured.followed
  · obtain ⟨s, s_mem, mem⟩ := List.mem_flatMap.mp mem
    exact secured.inside s s_mem block mem

end Secured

/-! ## Calls -/

theorem calm_checkStatus (callee : Callee) (object : Option String) :
    Calm (checkStatus callee object) := by
  cases object <;> simp [checkStatus, addressed_iff]

/-- A call that is checked right behind, whether its result is the status or something else. -/
theorem secured_call (target : Var) (call : Call) (object : Option String) :
    Secured [.store (.var target) call, checkStatus call.callee object] := by
  refine ⟨⟨fun c takes => ?_, .of_calm (by simp [calm_checkStatus])⟩, ?_⟩
  · obtain rfl : c = call := by simpa using takes.1
    exact ⟨object, [], rfl⟩
  · simp [Stmt.allWithin, checkStatus]

theorem secured_callForStatus (call : Call) (object : Option String) :
    Secured (callForStatus call object) :=
  secured_call .callStatus call object

theorem secured_callForResult (target : Var) (call : Call) (object : Option String) :
    Secured (callForResult target call object) :=
  secured_call target call object

@[simp]
theorem calm_announce (perPass : Bool) (message : String) : Calm (announce perPass message) := by
  cases perPass <;> simp [announce, addressed_iff]

@[simp]
theorem calm_succeed : Calm succeed := by
  simp [succeed, addressed_iff]

@[simp]
theorem within_phase :
    (∀ perPass message, (announce perPass message).within = [announce perPass message]) ∧
      succeed.within = [succeed] :=
  ⟨fun _ _ => rfl, rfl⟩

@[simp]
theorem calm_phase {title message : String} {perPass : Bool} {body : List Stmt} :
    Each Calm (phase title perPass message body) ↔ Each Calm body := by
  simp [phase]

theorem secured_phase {title message : String} {perPass : Bool} {body : List Stmt}
    (secured : Secured body) : Secured (phase title perPass message body) := by
  have opening : Each Calm [.blank, .comment title, announce perPass message] := by simp
  have closing : Each Calm [succeed] := by simp
  exact ((Secured.of_calm opening).append secured).append (.of_calm closing)

@[simp]
theorem calm_demand {pointer : Var} {object : Expr} :
    Calm (demand pointer object) ↔ (Var.callStatus, Stand.address) ∉ object.stands := by
  simp [demand, addressed_iff]

/-! ## Sections that take no status -/

section Calm

variable (p : Plan)

theorem calm_declarations : Each Calm (declarations p) := by
  simp [declarations, setupDeclarations, runDeclarations, rangeDeclarations, declareValue,
    declareBare, declarePointer, declareHandle]

theorem calm_declareStorage (v : Placed) (var : Var) (contents : Contents) :
    Calm (declareStorage v var contents) := by
  unfold declareStorage
  split <;> split_ifs <;> simp [declareValue, declareBare, addressed_iff]

theorem calm_hostVariables : Each Calm (hostVariables p) := by
  have fill (v : Placed) (var : Var) (other : var ≠ .callStatus) (contents : Contents) :
      Each Calm (fill v var contents) := by
    cases contents with
    | generator name =>
        rw [Host.fill]
        split <;> simp [addressed_iff, other.symm]
    | _ => simp [Host.fill]
  have copy (v : Placed) : Each Calm (declareVariable p.template v) ∧ Each Calm (fills v) := by
    cases reference : v.layout.reference <;>
      simp [declareVariable, fills, reference, declareHandle, declareValue, fill,
        within_of_plain (declareStorage_plain ..).1, calm_declareStorage]
  have demanded (var : Var) : (demand var (.plain var.text)).within =
      [demand var (.plain var.text)] := rfl
  simp [hostVariables, allocationPhase, fillPhase, demanded, copy]

/-- Hooks are handed the values of variables, and no addresses. -/
theorem not_addressed_hook (s : Signature) (perPass : Bool) (hook : Hook) :
    ¬ Addressed ⟨.hook hook, s.arguments perPass⟩ := by
  have params : ∀ e ∈ s.arguments perPass, (Var.callStatus, Stand.address) ∉ e.stands := by
    simp only [Signature.arguments, List.forall_mem_append, List.forall_mem_flatMap]
    refine ⟨fun param _ => ?_, ?_⟩
    · split <;> simp
    · split <;> simp
  simpa [addressed_iff] using params

theorem calm_hookCall (hook : Hook) : Each Calm (hookCall p hook) := by
  rw [hookCall]
  split
  · simp [not_addressed_hook]
  · exact .nil

theorem calm_eventPhase : Each Calm (eventPhase p) := by
  simp [eventPhase, releaseList, addressed_iff]

theorem calm_verdict : Each Calm (verdict p) := by
  have operand (c : Check) : (Var.callStatus, Stand.address) ∉ c.expected.stands ∧
      (Var.callStatus, Stand.address) ∉ c.actual.stands := by
    cases elements : c.elements <;> cases lanes : c.lanes <;>
      simp [Check.expected, Check.actual, Check.access, Check.elementIndex?, Check.laneIndex?,
        elements, lanes]
  have report (c : Check) : Each Calm (reportMismatch c) := by
    simp [reportMismatch, addressed_iff, operand]
  have nest (c : Check) : Each Calm (compareOutput c) := by
    unfold compareOutput Host.nest
    induction c.loops with
    | nil => simp [report]
    | cons loop loops ih => simpa using ih
  simp [verdict, calm_hookCall, profilingReport, validation, nest, addressed_iff]

theorem calm_cleanup : Each Calm (cleanup p) := by
  have group {title : String} {releases : List Stmt} :
      Each Calm (releaseGroup title releases) ↔ Each Calm releases := by
    rw [releaseGroup]
    split <;> simp_all
  simp [cleanup, group, calm_hookCall, release, releaseList, addressed_iff, -List.map_reverse]

end Calm

/-! ## Sections that check what they call -/

section Secured

variable (p : Plan)

theorem secured_allocateList (list count : Var) (type : String) (other : list ≠ .callStatus) :
    Secured (allocateList list count type) := by
  have checked : (demand list (.plain list.text)).within = [demand list (.plain list.text)] := rfl
  exact .of_calm (by simp [allocateList, checked, other, addressed_iff])

theorem secured_demandIndex (kind : String) (index : Nat) (count : Var) :
    Secured [demandIndex kind index count] :=
  .of_calm (by simp [demandIndex, addressed_iff])

theorem secured_discovery : Secured (platformPhase p ++ devicePhase p ++ contextPhase p) := by
  have platforms : Secured (platformPhase p) := by
    refine secured_phase (.append (.append (.append ?_ ?_) ?_) (secured_demandIndex _ _ _))
    · exact secured_callForStatus _ _
    · exact secured_allocateList _ _ _ (by decide)
    · exact secured_callForStatus _ _
  have devices : Secured (devicePhase p) := by
    refine secured_phase (.append (.append (.append ?_ ?_) ?_) (secured_demandIndex _ _ _))
    · exact secured_callForStatus _ _
    · exact secured_allocateList _ _ _ (by decide)
    · exact secured_callForStatus _ _
  exact (platforms.append devices).append (secured_phase (secured_callForResult _ _ _))

theorem calm_openPhase : Each Calm (openPhase p) := by
  simp [openPhase, demand, addressed_iff]

theorem calm_readPhase : Each Calm (readPhase p) := by
  simp [readPhase, demand, addressed_iff]

theorem secured_bufferPhase : Secured (bufferPhase p) := by
  refine .ite .nil (secured_phase (.flatMap fun b _ => ?_))
  exact secured_callForResult _ _ _

theorem secured_argumentPhase (k : PlannedKernel) : Secured (argumentPhase k) := by
  refine .ite .nil (secured_phase (.flatMap fun a _ => ?_))
  exact secured_callForStatus _ _

theorem secured_setup : Secured (setup p) := by
  have queues : Secured (p.kernels.flatMap fun k => queuePhase p k.kernel) :=
    .flatMap fun _ _ => secured_phase (secured_callForResult _ _ _)
  have program : Secured (programPhase p) := secured_phase (secured_callForResult _ _ _)
  have build : Secured (buildPhase p) := secured_phase (secured_callForStatus _ _)
  have kernels : Secured (p.kernels.flatMap fun k => kernelPhase k.kernel) :=
    .flatMap fun _ _ => secured_phase (secured_callForResult _ _ _)
  have arguments : Secured (p.kernels.flatMap argumentPhase) :=
    .flatMap fun k _ => secured_argumentPhase k
  have file : Secured (openPhase p ++ readPhase p) :=
    .of_calm (by simp [calm_openPhase, calm_readPhase])
  have loaded := (((secured_discovery p).append queues).append file).append program
  have built := ((loaded.append build).append kernels).append (secured_bufferPhase p)
  simpa [setup] using built.append arguments

theorem secured_transfers (callee : Callee) (bs : List Buffer) :
    Secured (bs.flatMap (transfer callee)) :=
  .flatMap fun _ _ => secured_callForStatus _ _

theorem secured_launches : Secured (launches p) := by
  refine .flatMap fun l _ => ?_
  cases p.kernels[l.kernel]? with
  | none => exact .nil
  | some k => exact secured_callForStatus _ _

theorem secured_pass (perPass : Bool) : Secured (pass p perPass) := by
  have rebinds : Secured (rebinds p) :=
    .flatMap fun _ _ => .flatMap fun _ _ => secured_callForStatus _ _
  have upload : Secured (uploadPhase p perPass) :=
    .ite .nil (secured_phase ((secured_transfers _ _).append rebinds))
  have download : Secured (downloadPhase p perPass) :=
    .ite .nil (secured_phase (secured_transfers _ _))
  have clock (v : Var) (other : v ≠ .callStatus) : Calm (readClock v) := by
    simp [readClock, addressed_iff, other.symm]
  have launch : Secured (launchPhase p perPass) := by
    refine secured_phase (.append (.append (.append ?_ (secured_launches p)) ?_) ?_)
    · exact .ite (.of_calm (by simpa [readClock] using clock .timeBefore (by decide))) .nil
    · exact .flatMap fun _ _ => secured_callForStatus _ _
    · exact .ite (.of_calm (by simpa [readClock] using clock .timeAfter (by decide))) .nil
  have events : Secured (eventPhase p ++ [Stmt.blank, .increment .iterations]) :=
    .of_calm (by simp [calm_eventPhase])
  simpa [pass] using ((upload.append launch).append download).append events

theorem secured_run : Secured (run p) := by
  have hook (hook : Hook) : Secured (hookCall p hook) := .of_calm (calm_hookCall p hook)
  rw [run]
  split
  · exact secured_pass p false
  · have inner := ((hook .loopPreamble).append (secured_pass p true)).append (hook .loopPostamble)
    have opening : Secured [.blank, .comment "Kernel loop"] := .of_calm (by simp)
    exact opening.append (.repeatWhile inner)

/-- Wherever the program takes a status, it checks it next. -/
theorem secured_body : Secured (body p) := by
  have opening := (Secured.of_calm (calm_declarations p)).append (.of_calm (calm_hostVariables p))
  have front := ((opening.append (.of_calm (calm_hookCall p .preamble))).append
    (secured_setup p)).append (secured_run p)
  exact (front.append (.of_calm (calm_verdict p))).append (.of_calm (calm_cleanup p))

end Secured

end Host
end KernelHost
