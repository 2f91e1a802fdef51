import KernelHost.Proofs.Code.Landing
import KernelHost.Proofs.Execution.Quiet
import KernelHost.Proofs.Freshness.Stores

/-!
# Harmless blocks

Most statements move no data: they neither launch nor transfer, and they are handed no variable of
the manifest.  Hooks and generators are, but all that they change is what is on the host.
-/

namespace KernelHost.Host

open Code (Call Callee Condition Contract Each Expr Stmt Var)

variable {α : Type} {p : Plan}

/-- What is to be shown about the data of a plan: what kernels find where they are launched, and
what the outputs hold where a pass is counted. -/
def dataContract (α : Type) (p : Plan) : Contract (Stores α) where
  machine := storeMachine α
  program := body p
  observed s a :=
    (∀ k ∈ p.kernels, launched? s = some k.kernel.ident → a.data.Fresh k) ∧
      (s = .increment .iterations → a.data.Fetched p)
  atLanding _ := True

/-- A triple whose conditions are about the data. -/
def DataTriple (p : Plan) (P : Data α → Prop) (ss : List Stmt) (Q : Data α → Prop) : Prop :=
  (dataContract α p).Triple (fun a => P a.data) ss fun a => Q a.data

/-- A row of blocks, with a condition on the data that says how far the row is done. -/
theorem dataTriple_flatMap {β : Type} {f : β → List Stmt} {bs : List β}
    (I : List β → Data α → Prop)
    (each : ∀ before b behind, bs = before ++ b :: behind →
      DataTriple p (I before) (f b) (I (before ++ [b]))) :
    DataTriple p (I []) (bs.flatMap f) (I bs) :=
  Contract.Triple.flatMap (C := dataContract α p) (fun before a => I before a.data) each

/-! ## Statements that move no data -/

/-- Whether a variable is part of the stores. -/
def isStored : Var → Bool
  | .host _ | .buffer _ | .kernel _ => true
  | _ => false

/-- Whether a call passes something to kernels, transfers, launches, or takes a buffer away. -/
def movesData : Callee → Bool
  | .clSetKernelArg | .clEnqueueWriteBuffer | .clEnqueueReadBuffer | .clEnqueueNDRangeKernel
  | .clReleaseMemObject => true
  | _ => false

/-- Whether a variable is one of the manifest. -/
def isHostVar : Var → Bool
  | .host _ => true
  | _ => false

attribute [local simp] movesData isHostVar

/-- Whether an expression is a variable of the manifest or its address. -/
def isHost : Expr → Bool
  | .var v | .address (.var v) => isHostVar v
  | _ => false

@[simp]
theorem isHost_leaf :
    (∀ v, isHost (.var v) = isHostVar v) ∧
      (∀ v, isHost (.address (.var v)) = isHostVar v) ∧
      (∀ array place, isHost (.index array place) = false) ∧
      (∀ array place, isHost (.address (.index array place)) = false) ∧
      (∀ name, isHost (.constant name) = false) ∧
      (∀ n, isHost (.number n) = false) ∧
      (∀ n, isHost (.unsigned n) = false) ∧
      (∀ pieces, isHost (.literal pieces) = false) ∧
      (∀ text, isHost (.quoted text) = false) ∧
      (∀ type e, isHost (.cast type e) = false) ∧
      ∀ op left right, isHost (.binary op left right) = false := by
  simp [isHost]

/-- Whether a call moves no data, and is handed no variable of the manifest unless it may be. -/
def Harmless (mayHand : Bool) (call : Call) : Bool :=
  !movesData call.callee && (mayHand || !call.args.any isHost)

@[simp]
theorem harmless_mk (mayHand : Bool) (callee : Callee) (args : List Expr) :
    Harmless mayHand ⟨callee, args⟩ = (!movesData callee && (mayHand || !args.any isHost)) := rfl

/-- Whether a statement by itself moves no data. -/
def sparesData (mayHand : Bool) : Stmt → Bool
  | .assign target _ | .increase target _ => (base? target).any (!isStored ·)
  | .increment v => !isStored v && v != .iterations
  | .store (.var v) call => !isStored v && Harmless mayHand call
  | .perform call | .guarded _ call => Harmless mayHand call
  | .ensure (.holds _) f => Harmless mayHand f.call
  | .ensure (.givesOne call) f => Harmless mayHand call && Harmless mayHand f.call
  | .count index _ _ => !isStored index
  | .store .. | .declare .. | .declareList .. | .leave _ => false
  | _ => true

attribute [local simp] sparesData

@[simp]
theorem sparesData_leaf (mayHand : Bool) :
    (sparesData mayHand .blank) ∧
      (∀ text, sparesData mayHand (.comment text)) ∧
      (∀ target value, sparesData mayHand (.assign target value) =
        (base? target).any (!isStored ·)) ∧
      (∀ target value, sparesData mayHand (.increase target value) =
        (base? target).any (!isStored ·)) ∧
      (∀ v call, sparesData mayHand (.store (.var v) call) =
        (!isStored v && Harmless mayHand call)) ∧
      (∀ call, sparesData mayHand (.perform call) = Harmless mayHand call) ∧
      (∀ c call, sparesData mayHand (.guarded c call) = Harmless mayHand call) ∧
      (∀ c f, sparesData mayHand (.ensure (.holds c) f) = Harmless mayHand f.call) ∧
      (∀ call f, sparesData mayHand (.ensure (.givesOne call) f) =
        (Harmless mayHand call && Harmless mayHand f.call)) ∧
      (∀ c body, sparesData mayHand (.when c body)) ∧
      (∀ index bound body, sparesData mayHand (.count index bound body) = !isStored index) ∧
      ∀ c body, sparesData mayHand (.repeatWhile c body) := by
  simp

@[simp]
theorem harmless_failure (mayHand : Bool) :
    (∀ callee object, Harmless mayHand (Code.Failure.function callee object).call) ∧
      (∀ e, Harmless mayHand (Code.Failure.posix e).call = (mayHand || !isHost e)) ∧
      ∀ kind index count, Harmless mayHand (Code.Failure.lookup kind index count).call =
        (mayHand || !isHost (.var count)) := by
  refine ⟨fun callee object => ?_, fun e => ?_, fun kind index count => ?_⟩
  · cases object <;> simp [Code.Failure.call, Expr.plain]
  · simp [Code.Failure.call]
  · simp [Code.Failure.call, Expr.plain]

@[simp]
theorem spares_phase {mayHand : Bool} {title message : String} {perPass : Bool}
    {ss : List Stmt} :
    Each (sparesData mayHand ·) (phase title perPass message ss) ↔
      Each (sparesData mayHand ·) ss := by
  cases perPass <;>
    simp [phase, announce, succeed, Expr.plain]

namespace Data

/-- The wiring is the same, and so is what is on the host unless hooks may change it. -/
structure Same (mayHand : Bool) (a b : Data α) : Prop where
  /-- The wiring is the same. -/
  wiring : b.wiring = a.wiring
  /-- What is on the host is the same. -/
  host : mayHand = false → b.host = a.host

variable {mayHand : Bool} {a b c : Data α}

theorem Same.trans (first : Same mayHand a b) (second : Same mayHand b c) : Same mayHand a c :=
  ⟨second.wiring.trans first.wiring, fun no => (second.host no).trans (first.host no)⟩

theorem Same.eq (same : Same false a b) : b = a := by
  obtain ⟨wiring, host⟩ := same
  cases a
  cases b
  simp_all

theorem Redefines.same {v : Var} (stored : isStored v = false) (done : a.Redefines v b) :
    Same mayHand a b := by
  cases v with
  | host | buffer | kernel => simp [isStored] at stored
  | _ =>
      obtain rfl : b = a := done
      exact ⟨rfl, fun _ => rfl⟩

theorem Makes.same {call : Call} (harmless : Harmless mayHand call) (done : a.Makes call b) :
    Same mayHand a b := by
  obtain ⟨callee, args⟩ := call
  simp only [Harmless, Bool.and_eq_true, Bool.not_eq_true', Bool.or_eq_true] at harmless
  have hands : a.Hands ⟨callee, args⟩ b := by
    cases callee with
    | clSetKernelArg | clEnqueueWriteBuffer | clEnqueueReadBuffer | clEnqueueNDRangeKernel
    | clReleaseMemObject => simp at harmless
    | _ => exact done
  obtain ⟨host, rfl, same⟩ := hands
  refine ⟨rfl, fun no => funext fun name => same name ?_⟩
  have none : ∀ e ∈ args, isHost e = false := by
    simpa [no] using harmless.2
  rintro (handed | handed)
  · exact absurd (none _ handed) (by simp)
  · exact absurd (none _ handed) (by simp)

theorem Assigns.same {target : Expr} (stored : (base? target).any (!isStored ·))
    (done : a.Assigns target b) : Same mayHand a b := by
  rw [Assigns] at done
  cases base : base? target with
  | none => simp [base] at stored
  | some v =>
      rw [base] at done stored
      exact Redefines.same (by simpa using stored) done

theorem Yields.same {v : Var} {call : Call} (stored : isStored v = false)
    (harmless : Harmless mayHand call) (done : a.Yields v call b) : Same mayHand a b := by
  have made : ∃ c, a.Makes call c ∧ c.Redefines v b := by
    unfold Yields at done
    split at done
    · simp [isStored] at stored
    · exact done
  obtain ⟨c, made, redefined⟩ := made
  exact (made.same harmless).trans (redefined.same stored)

end Data

theorem same_of_spares {mayHand : Bool} {s : Stmt} {a b : Stores α} (plain : s.isPlain)
    (spares : sparesData mayHand s) (done : (storeMachine α).effect s a b) :
    a.data.Same mayHand b.data := by
  cases s with
  | declare | declareList => simp at spares
  | assign | increase => exact Data.Assigns.same spares done
  | increment v =>
      simp only [sparesData, Bool.and_eq_true, Bool.not_eq_true'] at spares
      exact Data.Redefines.same spares.1 done
  | store target call =>
      cases target with
      | var v =>
          simp only [sparesData, Bool.and_eq_true, Bool.not_eq_true'] at spares
          obtain ⟨finished, moved, -⟩ := done
          cases finished with
          | true => exact Data.Yields.same spares.1 spares.2 moved
          | false => exact Data.Redefines.same spares.1 moved
      | _ => simp at spares
  | perform => exact Data.Makes.same spares done
  | _ => simp [Stmt.isPlain] at plain

/-- Nothing is to be shown in front of a statement that neither launches nor counts passes. -/
theorem observed_of_silent {s : Stmt} (launch : launched? s = none)
    (count : s ≠ .increment .iterations) (a : Stores α) : (dataContract α p).observed s a :=
  ⟨fun k _ launched => by simp [launch] at launched, fun counted => absurd counted count⟩

theorem observed_of_sure {s : Stmt} (sure : isSure s) (a : Stores α) :
    (dataContract α p).observed s a := by
  refine observed_of_silent ?_ ?_ a <;> cases s <;> simp_all [launched?, isSure]

theorem observed_of_spares {mayHand : Bool} {s : Stmt} (spares : sparesData mayHand s)
    (a : Stores α) : (dataContract α p).observed s a := by
  refine observed_of_silent ?_ ?_ a
  · unfold launched?
    split
    · rename_i target _ _ _
      cases target <;> simp [Harmless] at spares
    · rfl
  · rintro rfl
    simp at spares

/-- Statements that move no data keep every view that does not show more than they keep. -/
theorem calm_of_sparesData {β : Type} {view : Stores α → β} {mayHand : Bool}
    (shows : ∀ a b : Stores α, a.data.Same mayHand b.data → view b = view a) {s : Stmt}
    (spares : sparesData mayHand s) : (dataContract α p).Calm view s := by
  have asks (c : Expr) : (dataContract α p).Asks view (.holds c) :=
    fun _ _ _ given => congrArg view given.1
  have keeps {t : Stmt} (plain : t.isPlain) (spares : sparesData mayHand t) :
      (dataContract α p).Keeps view t :=
    ⟨observed_of_spares spares, fun a b done => shows a b (same_of_spares plain spares done)⟩
  cases s with
  | ensure c f =>
      cases c with
      | holds c => exact ⟨asks c, keeps rfl spares⟩
      | givesOne call =>
          simp only [sparesData, Bool.and_eq_true] at spares
          exact ⟨fun a given b done => shows a b (Data.Makes.same spares.1 done),
            keeps rfl spares.2⟩
  | guarded c call => exact ⟨asks c, keeps rfl spares⟩
  | «when» c | choose c | repeatWhile c => exact asks c
  | count index bound body =>
      refine fun k => keeps rfl ?_
      simpa [base?] using spares
  | leave => simp at spares
  | _ => exact fun plain => keeps plain spares

/-- A block that moves no data keeps every condition on the data. -/
theorem dataTriple_of_spares {P : Data α → Prop} {ss : List Stmt}
    (spares : Each (sparesData false ·) ss) : DataTriple p P ss P :=
  Contract.Quiet.of_allWithin ss
    (fun s mem => calm_of_sparesData (fun _ _ same => same.eq) (spares s mem)) P fun _ _ => trivial

/-- Hooks and generators keep every condition on the wiring. -/
theorem dataTriple_of_hands {P : Wiring α → Prop} {ss : List Stmt}
    (spares : Each (sparesData true ·) ss) :
    DataTriple p (fun a => P a.wiring) ss fun a => P a.wiring :=
  Contract.Quiet.of_allWithin ss
    (fun s mem => calm_of_sparesData (fun _ _ same => same.wiring) (spares s mem)) P
    fun _ _ => trivial

theorem dataTriple_phase {P Q : Data α → Prop} {title message : String} {perPass : Bool}
    {ss : List Stmt} (triple : DataTriple p P ss Q) :
    DataTriple p P (phase title perPass message ss) Q := by
  refine .append (.append (dataTriple_of_spares ?_) triple) (dataTriple_of_spares ?_)
  · cases perPass <;> simp [announce, Expr.plain]
  · simp [succeed]

theorem dataTriple_hookCall {P : Wiring α → Prop} (hook : Hook) :
    DataTriple p (fun a => P a.wiring) (hookCall p hook) fun a => P a.wiring := by
  apply dataTriple_of_hands
  rw [hookCall]
  -- The lemma about phases is about the condition by its name.
  split <;> simp [-sparesData]

/-! ## Blocks without launches -/

/-- A block that stores nothing and counts no passes cannot break the contract. -/
theorem dataTriple_of_sure {P : Data α → Prop} {ss : List Stmt} (sure : Sure ss) :
    DataTriple p P ss fun _ => True := by
  have keeps {s : Stmt} (sure : isSure s) :
      (dataContract α p).Keeps (fun _ => ()) s :=
    ⟨observed_of_sure sure, fun _ _ _ => rfl⟩
  have calm {s : Stmt} (sure : isSure s) : (dataContract α p).Calm (fun _ => ()) s := by
    cases s with
    | ensure | leave => simp [isSure] at sure
    | guarded => exact ⟨fun _ _ _ _ => rfl, keeps rfl⟩
    | «when» | choose | repeatWhile => exact fun _ _ _ _ => rfl
    | count => exact fun _ => keeps rfl
    | _ => exact fun _ => keeps sure
  have quiet := Contract.Quiet.of_allWithin ss fun s mem => calm (sure s mem)
  exact .weaken (quiet (fun _ => True) fun _ _ => trivial) (fun _ _ => trivial) fun _ _ => trivial

end KernelHost.Host
