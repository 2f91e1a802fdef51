import KernelHost.Proofs.Code.Views
import KernelHost.Proofs.Execution.Steps
import Mathlib.Tactic.Common

/-!
# Progress

A program cannot be stuck in a block if what each of its statements does, and what each condition
gives, has a next state.  An execution is kept in good states; where checks may fail, it may end in
the clean-up instead of behind the block.
-/

namespace KernelHost.Code

/-- How a program is led to its end. -/
structure Guide (σ : Type) where
  /-- The machine that the program runs on. -/
  machine : Machine σ
  program : List Stmt
  /-- The states that it is kept in. -/
  good : σ → Prop
  /-- Whether checks may fail. -/
  mayFail : Prop

namespace Guide

variable {σ : Type} (G : Guide σ)

/-- The machine gets from one point to another. -/
abbrev Goes (c d : Config σ) : Prop :=
  Reaches G.machine G.program c d

/-- From a good state in front of a block, the program can get behind it, or to the clean-up. -/
def Passable (ss : List Stmt) : Prop :=
  ∀ a rest, G.good a → ∃ b, G.good b ∧
    (G.Goes ⟨ss ++ rest, a⟩ ⟨rest, b⟩ ∨
      G.mayFail ∧ G.Goes ⟨ss ++ rest, a⟩ ⟨landing G.program, b⟩)

/-- A statement without control can be made. -/
def Makes (s : Stmt) : Prop :=
  ∀ a, G.good a → ∃ b, G.machine.effect s a b ∧ G.good b

/-- What a statement needs by itself for the program not to be stuck in it. -/
def Able : Stmt → Prop
  | .ensure c f => ∀ a, G.good a →
    (∃ b, G.machine.test c a true b ∧ G.good b) ∨
      G.mayFail ∧ ∃ b d, G.machine.test c a false b ∧
        G.machine.effect (.perform f.call) b d ∧ G.good d
  | .guarded c call => G.Makes (.perform call) ∧
    ∀ a, G.good a → ∃ given b, G.machine.test (.holds c) a given b ∧ G.good b
  | .when c _ | .choose c _ _ =>
    ∀ a, G.good a → ∃ given b, G.machine.test (.holds c) a given b ∧ G.good b
  | .count index _ _ => ∀ k, G.Makes (.assign (.var index) (.number k))
  | .repeatWhile c _ => ∀ a, G.good a → ∃ b, G.machine.test (.holds c) a false b ∧ G.good b
  | .leave _ => False
  | s => s.isPlain → G.Makes s

variable {G}

namespace Passable

variable {ss ts : List Stmt} {s : Stmt}

theorem nil : G.Passable [] :=
  fun a _ good => ⟨a, good, .inl .refl⟩

theorem append (first : G.Passable ss) (second : G.Passable ts) : G.Passable (ss ++ ts) := by
  intro a rest good
  rw [List.append_assoc]
  obtain ⟨b, good, behind | ⟨may, landed⟩⟩ := first a (ts ++ rest) good
  · obtain ⟨d, good, behind' | ⟨may, landed⟩⟩ := second b rest good
    · exact ⟨d, good, .inl (behind.trans behind')⟩
    · exact ⟨d, good, .inr ⟨may, behind.trans landed⟩⟩
  · exact ⟨b, good, .inr ⟨may, landed⟩⟩

/-- A statement is passable if it has a step to a block that is. -/
theorem of_step (next : ∀ a rest, G.good a → ∃ ts b, G.Passable ts ∧ G.good b ∧
    Step G.machine G.program ⟨s :: rest, a⟩ ⟨ts ++ rest, b⟩) : G.Passable [s] := by
  intro a rest good
  obtain ⟨ts, b, passable, good, step⟩ := next a rest good
  obtain ⟨d, good, behind | ⟨may, landed⟩⟩ := passable b rest good
  · exact ⟨d, good, .inl (.head step behind)⟩
  · exact ⟨d, good, .inr ⟨may, .head step landed⟩⟩

theorem idle (idle : s.isIdle) : G.Passable [s] :=
  of_step fun a _ good => ⟨[], a, nil, good, .idle idle⟩

theorem plain (plain : s.isPlain) (makes : G.Makes s) : G.Passable [s] :=
  of_step fun a _ good =>
    let ⟨b, done, good⟩ := makes a good
    ⟨[], b, nil, good, .plain plain done⟩

theorem flatMap {β : Type} {f : β → List Stmt} {bs : List β}
    (each : ∀ b ∈ bs, G.Passable (f b)) : G.Passable (bs.flatMap f) := by
  induction bs with
  | nil => exact nil
  | cons b bs ih =>
      have rest : ∀ c ∈ bs, G.Passable (f c) := fun c mem => each c (List.mem_cons_of_mem _ mem)
      exact append (each b List.mem_cons_self) (ih rest)

theorem ensure {c : Condition} {f : Failure} (able : G.Able (.ensure c f)) :
    G.Passable [.ensure c f] := by
  intro a rest good
  obtain ⟨b, given, good⟩ | ⟨may, b, d, given, done, good⟩ := able a good
  · exact ⟨b, good, .inl (.single (.passes given))⟩
  · exact ⟨d, good, .inr ⟨may, .head (.fails given) (.single (.plain rfl done))⟩⟩

theorem guarded {c : Expr} {call : Call} (able : G.Able (.guarded c call)) :
    G.Passable [.guarded c call] := by
  refine of_step fun a rest good => ?_
  obtain ⟨given, b, tested, good⟩ := able.2 a good
  cases given with
  | true => exact ⟨[.perform call], b, plain rfl able.1, good, .called tested⟩
  | false => exact ⟨[], b, nil, good, .uncalled tested⟩

theorem when {c : Expr} (able : G.Able (.when c ss)) (body : G.Passable ss) :
    G.Passable [.when c ss] := by
  refine of_step fun a rest good => ?_
  obtain ⟨given, b, tested, good⟩ := able a good
  cases given with
  | true => exact ⟨ss, b, body, good, .taken tested⟩
  | false => exact ⟨[], b, nil, good, .untaken tested⟩

theorem choose {c : Expr} (able : G.Able (.choose c ss ts)) (body : G.Passable ss)
    (otherwise : G.Passable ts) : G.Passable [.choose c ss ts] := by
  refine of_step fun a rest good => ?_
  obtain ⟨given, b, tested, good⟩ := able a good
  cases given with
  | true => exact ⟨ss, b, body, good, .first tested⟩
  | false => exact ⟨ts, b, otherwise, good, .second tested⟩

theorem count {index : Var} {bound : Nat} (able : G.Able (.count index bound ss))
    (body : G.Passable ss) : G.Passable [.count index bound ss] := by
  refine of_step fun a rest good => ⟨unrolled index bound ss, a, ?_, good, .count⟩
  exact append (flatMap fun k _ => append (plain rfl (able k)) body) (plain rfl (able bound))

theorem repeatWhile {c : Expr} (able : G.Able (.repeatWhile c ss)) (body : G.Passable ss) :
    G.Passable [.repeatWhile c ss] := by
  refine of_step fun a rest good => ⟨ss ++ [Stmt.when c [.repeatWhile c ss]], a, ?_, good, ?_⟩
  · refine append body (of_step fun b rest good => ?_)
    obtain ⟨d, tested, good⟩ := able b good
    exact ⟨[], d, nil, good, .untaken tested⟩
  · rw [List.append_assoc]
    exact .again

mutual

/-- A statement is passable if it and all statements inside it are able. -/
theorem of_within (s : Stmt) (able : ∀ t ∈ s.within, G.Able t) : G.Passable [s] := by
  have self : G.Able s := able s (by cases s <;> simp [Stmt.within])
  cases s with
  | blank | comment | cleanupLabel => exact idle rfl
  | declare | declareList | assign | increase | increment | store | perform =>
      exact plain rfl (self rfl)
  | ensure => exact ensure self
  | guarded => exact guarded self
  | when c body =>
      refine when self (of_allWithin body fun t mem => able t ?_)
      simp [Stmt.within, mem]
  | choose c body otherwise =>
      refine choose self (of_allWithin body fun t mem => able t ?_)
        (of_allWithin otherwise fun t mem => able t ?_) <;>
        simp [Stmt.within, mem]
  | count index bound body =>
      refine count self (of_allWithin body fun t mem => able t ?_)
      simp [Stmt.within, mem]
  | repeatWhile c body =>
      refine repeatWhile self (of_allWithin body fun t mem => able t ?_)
      simp [Stmt.within, mem]
  | leave => exact self.elim

/-- A block is passable if all statements in it are able. -/
theorem of_allWithin (ss : List Stmt) (able : Each G.Able ss) : G.Passable ss := by
  cases ss with
  | nil => exact nil
  | cons s ss =>
      obtain ⟨first, rest⟩ := Each.cons_iff.mp able
      exact append (of_within s first) (of_allWithin ss rest)

end

end Passable
end Guide
end KernelHost.Code
