import KernelHost.Proofs.Code.Views
import KernelHost.Proofs.Execution.Triples

/-!
# Quiet blocks

Most of the program does not touch what a proof is about.  A proof names the part of the state that
it looks at, its view; a block is quiet if it keeps every condition on the view.  Whether a block is
quiet can be told from its statements one by one.
-/

namespace KernelHost.Code.Contract

variable {σ β : Type} (C : Contract σ) (view : σ → β)

/-- A block keeps every condition on the view under which the clean-up may begin. -/
def Quiet (ss : List Stmt) : Prop :=
  ∀ P : β → Prop, (∀ a, P (view a) → C.atLanding a) →
    C.Triple (fun a => P (view a)) ss fun a => P (view a)

/-- A statement without control may be met in every state, and keeps the view. -/
structure Keeps (s : Stmt) : Prop where
  /-- Nothing has to hold in front of it. -/
  observed : ∀ a, C.observed s a
  /-- The view stays the same. -/
  view_eq : ∀ a b, C.machine.effect s a b → view b = view a

/-- What a condition of a check or a branch calls keeps the view. -/
def Asks (c : Condition) : Prop :=
  ∀ a given b, C.machine.test c a given b → view b = view a

/-- What a statement does by itself keeps the view. -/
def Calm : Stmt → Prop
  | .ensure c failure => C.Asks view c ∧ C.Keeps view (.perform failure.call)
  | .guarded c call => C.Asks view (.holds c) ∧ C.Keeps view (.perform call)
  | .when c _ | .choose c _ _ | .repeatWhile c _ => C.Asks view (.holds c)
  | .count index _ _ => ∀ k, C.Keeps view (.assign (.var index) (.number k))
  | .leave _ => False
  | s => s.isPlain → C.Keeps view s

variable {C view}

namespace Quiet

theorem nil : C.Quiet view [] :=
  fun _ _ => .nil fun _ pre => pre

theorem append {ss ts : List Stmt} (first : C.Quiet view ss) (second : C.Quiet view ts) :
    C.Quiet view (ss ++ ts) :=
  fun P land => (first P land).append (second P land)

theorem plain {s : Stmt} (plain : s.isPlain) (keeps : C.Keeps view s) : C.Quiet view [s] :=
  fun _ _ => .plain plain fun a pre =>
    ⟨keeps.observed a, fun b done => by rwa [keeps.view_eq a b done]⟩

theorem ensure {c : Condition} {f : Failure} (asks : C.Asks view c)
    (report : C.Keeps view (.perform f.call)) : C.Quiet view [.ensure c f] := by
  intro P land
  refine .ensure (fun a b pre given => ?_)
    fun a b pre given => ⟨report.observed b, fun d done => ?_⟩
  · rwa [asks a true b given]
  · apply land d
    rwa [report.view_eq b d done, asks a false b given]

section Branches

variable {c : Expr} (asks : C.Asks view (.holds c))

include asks

theorem guarded {call : Call} (keeps : C.Keeps view (.perform call)) :
    C.Quiet view [.guarded c call] := by
  intro P land
  refine .guarded (fun a b pre given => ?_) (fun a b pre given => ?_)
    (plain rfl keeps P land)
  · rwa [asks a true b given]
  · rwa [asks a false b given]

theorem when {ss : List Stmt} (body : C.Quiet view ss) :
    C.Quiet view [.when c ss] := by
  intro P land
  refine .when (fun a b pre given => ?_) (fun a b pre given => ?_) (body P land)
  · rwa [asks a true b given]
  · rwa [asks a false b given]

theorem choose {ss ts : List Stmt} (body : C.Quiet view ss)
    (otherwise : C.Quiet view ts) : C.Quiet view [.choose c ss ts] := by
  intro P land
  refine .choose (fun a b pre given => ?_) (fun a b pre given => ?_) (body P land)
    (otherwise P land)
  · rwa [asks a true b given]
  · rwa [asks a false b given]

theorem repeatWhile {ss : List Stmt} (body : C.Quiet view ss) :
    C.Quiet view [.repeatWhile c ss] := by
  intro P land
  refine .repeatWhile (body P land) (fun a b pre given => ?_) fun a b pre given => ?_
  · rwa [asks a true b given]
  · rwa [asks a false b given]

end Branches

theorem count {index : Var} {bound : Nat} {ss : List Stmt}
    (turn : ∀ k, C.Keeps view (.assign (.var index) (.number k))) (body : C.Quiet view ss) :
    C.Quiet view [.count index bound ss] :=
  fun P land => .count (fun _ a => P (view a))
    (fun k _ => (plain rfl (turn k) P land).append (body P land))
    (plain rfl (turn bound) P land)

mutual

/-- A statement is quiet if it and all statements inside it are calm. -/
theorem of_within (s : Stmt) (calm : ∀ t ∈ s.within, C.Calm view t) : C.Quiet view [s] := by
  have self : C.Calm view s := calm s (by cases s <;> simp [Stmt.within])
  cases s with
  | blank | comment | cleanupLabel => exact fun _ _ => .idle rfl
  | declare | declareList | assign | increase | increment | store | perform =>
      exact plain rfl (self rfl)
  | ensure => exact ensure self.1 self.2
  | guarded => exact guarded self.1 self.2
  | when c body =>
      refine when self (of_allWithin body fun t mem => calm t ?_)
      simp [Stmt.within, mem]
  | choose c body otherwise =>
      refine choose self (of_allWithin body fun t mem => calm t ?_)
        (of_allWithin otherwise fun t mem => calm t ?_) <;>
        simp [Stmt.within, mem]
  | count index bound body =>
      refine count self (of_allWithin body fun t mem => calm t ?_)
      simp [Stmt.within, mem]
  | repeatWhile c body =>
      refine repeatWhile self (of_allWithin body fun t mem => calm t ?_)
      simp [Stmt.within, mem]
  | leave => exact self.elim

/-- A block is quiet if all statements in it are calm. -/
theorem of_allWithin (ss : List Stmt) (calm : Each (C.Calm view) ss) : C.Quiet view ss := by
  cases ss with
  | nil => exact nil
  | cons s ss =>
      obtain ⟨first, rest⟩ := Each.cons_iff.mp calm
      exact append (of_within s first) (of_allWithin ss rest)

end

end Quiet
end KernelHost.Code.Contract
