import KernelHost.Code.Stmt
import Mathlib.Logic.Relation

/-!
# Steps of the host program

The program as a system that takes step after step.  What single statements do to a state, and what
conditions give in it, is left to a `Machine`; the order of the statements, the jump of a failed
check to the clean-up and the loops are the same for all machines.
-/

namespace KernelHost.Code

/-- What statements do to states, and what conditions give in them. -/
structure Machine (σ : Type) where
  /-- What a statement without control does. -/
  effect : Stmt → σ → σ → Prop
  /-- What a condition gives, and the state behind a call in it. -/
  test : Condition → σ → Bool → σ → Prop

namespace Stmt

/-- Whether a statement does nothing. -/
def isIdle : Stmt → Bool
  | .blank | .comment _ | .cleanupLabel => true
  | _ => false

/-- Whether a statement does something and goes on with the next one. -/
def isPlain : Stmt → Bool
  | .declare .. | .declareList .. | .assign .. | .increase .. | .increment _ | .store ..
  | .perform _ => true
  | _ => false

/-- Whether a statement is the label of the clean-up. -/
def isLabel : Stmt → Bool
  | .cleanupLabel => true
  | _ => false

/-- Whether a statement ends the program. -/
def isLeave : Stmt → Bool
  | .leave _ => true
  | _ => false

end Stmt

/-- Whether a call of the runtime, stored in a variable, reports its status. -/
def reportsStatus (target : Var) (call : Call) : Prop :=
  target = .callStatus ∨ .address (.var .callStatus) ∈ call.args

/-- The condition that the last call of the runtime was successful. -/
def succeeded : Expr :=
  .binary .equal (.constant "CL_SUCCESS") (.var .callStatus)

/-- The statements of a program from its label on. -/
def landing (program : List Stmt) : List Stmt :=
  program.dropWhile (!·.isLabel)

/-- A counted loop without its control: the index has each value in turn, and the bound at last. -/
def unrolled (index : Var) (bound : Nat) (body : List Stmt) : List Stmt :=
  (List.range bound).flatMap (fun k => .assign (.var index) (.number k) :: body) ++
    [.assign (.var index) (.number bound)]

/-- A point of an execution. -/
structure Config (σ : Type) where
  /-- The statements that come next. -/
  rest : List Stmt
  state : σ

variable {σ : Type}

/-- The steps of a program. -/
inductive Step (M : Machine σ) (program : List Stmt) : Config σ → Config σ → Prop
  | idle {s : Stmt} {rest : List Stmt} {a : σ} (idle : s.isIdle) :
      Step M program ⟨s :: rest, a⟩ ⟨rest, a⟩
  | plain {s : Stmt} {rest : List Stmt} {a b : σ} (plain : s.isPlain) (done : M.effect s a b) :
      Step M program ⟨s :: rest, a⟩ ⟨rest, b⟩
  | passes {c : Condition} {f : Failure} {rest : List Stmt} {a b : σ}
      (given : M.test c a true b) : Step M program ⟨.ensure c f :: rest, a⟩ ⟨rest, b⟩
  /-- A check fails: the failure is reported, and the clean-up comes next. -/
  | fails {c : Condition} {f : Failure} {rest : List Stmt} {a b : σ}
      (given : M.test c a false b) :
      Step M program ⟨.ensure c f :: rest, a⟩ ⟨.perform f.call :: landing program, b⟩
  | called {c : Expr} {call : Call} {rest : List Stmt} {a b : σ}
      (given : M.test (.holds c) a true b) :
      Step M program ⟨.guarded c call :: rest, a⟩ ⟨.perform call :: rest, b⟩
  | uncalled {c : Expr} {call : Call} {rest : List Stmt} {a b : σ}
      (given : M.test (.holds c) a false b) :
      Step M program ⟨.guarded c call :: rest, a⟩ ⟨rest, b⟩
  | taken {c : Expr} {body rest : List Stmt} {a b : σ} (given : M.test (.holds c) a true b) :
      Step M program ⟨.when c body :: rest, a⟩ ⟨body ++ rest, b⟩
  | untaken {c : Expr} {body rest : List Stmt} {a b : σ} (given : M.test (.holds c) a false b) :
      Step M program ⟨.when c body :: rest, a⟩ ⟨rest, b⟩
  | first {c : Expr} {body otherwise rest : List Stmt} {a b : σ}
      (given : M.test (.holds c) a true b) :
      Step M program ⟨.choose c body otherwise :: rest, a⟩ ⟨body ++ rest, b⟩
  | second {c : Expr} {body otherwise rest : List Stmt} {a b : σ}
      (given : M.test (.holds c) a false b) :
      Step M program ⟨.choose c body otherwise :: rest, a⟩ ⟨otherwise ++ rest, b⟩
  | count {index : Var} {bound : Nat} {body rest : List Stmt} {a : σ} :
      Step M program ⟨.count index bound body :: rest, a⟩ ⟨unrolled index bound body ++ rest, a⟩
  /-- A loop makes a pass, and the condition behind it decides about another one. -/
  | again {c : Expr} {body rest : List Stmt} {a : σ} :
      Step M program ⟨.repeatWhile c body :: rest, a⟩
        ⟨body ++ .when c [.repeatWhile c body] :: rest, a⟩

/-- Any number of steps. -/
def Reaches (M : Machine σ) (program : List Stmt) : Config σ → Config σ → Prop :=
  Relation.ReflTransGen (Step M program)

theorem landing_append {front back : List Stmt} (none : ∀ s ∈ front, s ≠ .cleanupLabel) :
    landing (front ++ .cleanupLabel :: back) = .cleanupLabel :: back := by
  have unlabelled : ∀ s ∈ front, (!s.isLabel) = true := by
    intro s mem
    have ne := none s mem
    cases s <;> simp_all [Stmt.isLabel]
  rw [landing, List.dropWhile_append_of_pos unlabelled]
  rfl

/-! ## What a statement may be followed by -/

section Inversion

variable {M : Machine σ} {program rest : List Stmt} {a : σ} {d : Config σ}

attribute [local simp] Stmt.isIdle Stmt.isPlain

theorem Stmt.not_plain_of_idle {s : Stmt} (idle : s.isIdle) : ¬ s.isPlain := by
  cases s <;> simp_all

theorem Step.of_idle {s : Stmt} (idle : s.isIdle) (step : Step M program ⟨s :: rest, a⟩ d) :
    d = ⟨rest, a⟩ := by
  cases step with
  | idle => rfl
  | plain plain => exact absurd plain (Stmt.not_plain_of_idle idle)
  | _ => simp at idle

theorem Step.of_plain {s : Stmt} (plain : s.isPlain) (step : Step M program ⟨s :: rest, a⟩ d) :
    ∃ b, M.effect s a b ∧ d = ⟨rest, b⟩ := by
  cases step with
  | idle idle => exact absurd plain (Stmt.not_plain_of_idle idle)
  | plain _ done => exact ⟨_, done, rfl⟩
  | _ => simp at plain

theorem Step.of_ensure {c : Condition} {f : Failure}
    (step : Step M program ⟨.ensure c f :: rest, a⟩ d) :
    ∃ b, (M.test c a true b ∧ d = ⟨rest, b⟩) ∨
      (M.test c a false b ∧ d = ⟨.perform f.call :: landing program, b⟩) := by
  cases step with
  | idle idle => simp at idle
  | plain plain => simp at plain
  | passes given => exact ⟨_, .inl ⟨given, rfl⟩⟩
  | fails given => exact ⟨_, .inr ⟨given, rfl⟩⟩

theorem Step.of_guarded {c : Expr} {call : Call}
    (step : Step M program ⟨.guarded c call :: rest, a⟩ d) :
    ∃ b, (M.test (.holds c) a true b ∧ d = ⟨.perform call :: rest, b⟩) ∨
      (M.test (.holds c) a false b ∧ d = ⟨rest, b⟩) := by
  cases step with
  | idle idle => simp at idle
  | plain plain => simp at plain
  | called given => exact ⟨_, .inl ⟨given, rfl⟩⟩
  | uncalled given => exact ⟨_, .inr ⟨given, rfl⟩⟩

theorem Step.of_choose {c : Expr} {body otherwise : List Stmt}
    (step : Step M program ⟨.choose c body otherwise :: rest, a⟩ d) :
    ∃ b, (M.test (.holds c) a true b ∧ d = ⟨body ++ rest, b⟩) ∨
      (M.test (.holds c) a false b ∧ d = ⟨otherwise ++ rest, b⟩) := by
  cases step with
  | idle idle => simp at idle
  | plain plain => simp at plain
  | first given => exact ⟨_, .inl ⟨given, rfl⟩⟩
  | second given => exact ⟨_, .inr ⟨given, rfl⟩⟩

theorem Step.of_when {c : Expr} {body : List Stmt}
    (step : Step M program ⟨.when c body :: rest, a⟩ d) :
    ∃ b, (M.test (.holds c) a true b ∧ d = ⟨body ++ rest, b⟩) ∨
      (M.test (.holds c) a false b ∧ d = ⟨rest, b⟩) := by
  cases step with
  | idle idle => simp at idle
  | plain plain => simp at plain
  | taken given => exact ⟨_, .inl ⟨given, rfl⟩⟩
  | untaken given => exact ⟨_, .inr ⟨given, rfl⟩⟩

theorem Step.of_count {index : Var} {bound : Nat} {body : List Stmt}
    (step : Step M program ⟨.count index bound body :: rest, a⟩ d) :
    d = ⟨unrolled index bound body ++ rest, a⟩ := by
  cases step with
  | idle idle => simp at idle
  | plain plain => simp at plain
  | count => rfl

theorem Step.of_repeatWhile {c : Expr} {body : List Stmt}
    (step : Step M program ⟨.repeatWhile c body :: rest, a⟩ d) :
    d = ⟨body ++ .when c [.repeatWhile c body] :: rest, a⟩ := by
  cases step with
  | idle idle => simp at idle
  | plain plain => simp at plain
  | again => rfl

theorem not_step_leave {value : Expr} : ¬ Step M program ⟨.leave value :: rest, a⟩ d := by
  intro step
  cases step with
  | idle idle => simp at idle
  | plain plain => simp at plain

end Inversion

/-! ## Rows of blocks -/

/-- A property of blocks, between conditions on the states in front and behind, holds of a row of
blocks if it holds of each. -/
structure Composes (T : (σ → Prop) → List Stmt → (σ → Prop) → Prop) : Prop where
  nil : ∀ P, T P [] P
  append : ∀ {P Q R ss ts}, T P ss Q → T Q ts R → T P (ss ++ ts) R

namespace Composes

variable {T : (σ → Prop) → List Stmt → (σ → Prop) → Prop} (composes : Composes T)

include composes

/-- A row of blocks, with a condition that says how far the row is done. -/
theorem flatMap {β : Type} {f : β → List Stmt} {bs : List β} (I : List β → σ → Prop)
    (each : ∀ before b behind, bs = before ++ b :: behind →
      T (I before) (f b) (I (before ++ [b]))) :
    T (I []) (bs.flatMap f) (I bs) := by
  suffices rest : ∀ before behind, bs = before ++ behind →
      T (I before) (behind.flatMap f) (I bs) from rest [] bs rfl
  intro before behind
  induction behind generalizing before with
  | nil =>
      intro split
      rw [split, List.append_nil]
      exact composes.nil _
  | cons b behind ih =>
      intro split
      exact composes.append (each before b behind split)
        (ih (before ++ [b]) (by simpa using split))

/-- The passes of a counted loop, with a condition that says how many are done. -/
theorem unrolled {index : Var} {bound : Nat} {body : List Stmt} {Q : σ → Prop} (I : Nat → σ → Prop)
    (each : ∀ k < bound, T (I k) (.assign (.var index) (.number k) :: body) (I (k + 1)))
    (last : T (I bound) [.assign (.var index) (.number bound)] Q) :
    T (I 0) (unrolled index bound body) Q := by
  refine composes.append (Q := I bound) ?_ last
  have steps : T (I ([] : List Nat).length)
      ((List.range bound).flatMap fun k => .assign (.var index) (.number k) :: body)
      (I (List.range bound).length) := by
    refine composes.flatMap (fun before => I before.length) fun before k behind split => ?_
    have place : before.length < bound := by
      have := congrArg List.length split
      simp at this
      omega
    have value : k = before.length := by
      have := congrArg (·[before.length]?) split
      simpa [place] using this.symm
    simpa [value] using each before.length place
  simpa using steps

end Composes

end KernelHost.Code
