import KernelHost.Proofs.Execution.Steps
import Mathlib.Tactic.Common

/-!
# Triples

What is to be shown of the steps of a program is a `Contract`: a condition on the state in front of
each statement that does something.  A triple says that a block keeps the contract from states with
a precondition on, provided that what follows it keeps it from states with the postcondition on, and
that the clean-up keeps it from states in which a check may fail.  The rules follow the structure of
statements, so that a proof about a section of the program follows its text.
-/

namespace KernelHost.Code

attribute [local simp] Stmt.isPlain Stmt.isLeave Stmt.isIdle

/-- What is to be shown of a program. -/
structure Contract (σ : Type) where
  /-- The machine that the program runs on. -/
  machine : Machine σ
  program : List Stmt
  /-- What has to hold in front of a statement. -/
  observed : Stmt → σ → Prop
  /-- What holds where the clean-up begins. -/
  atLanding : σ → Prop

variable {σ : Type}

namespace Contract

variable (C : Contract σ)

/-- The contract is kept for a number of steps. -/
def Safe : Nat → Config σ → Prop
  | 0, _ => True
  | n + 1, c =>
    (∀ s rest, c.rest = s :: rest → s.isPlain ∨ s.isLeave → C.observed s c.state) ∧
      ∀ d, Step C.machine C.program c d → Safe n d

variable {C}

theorem Safe.of_succ {n : Nat} {c : Config σ} (safe : C.Safe (n + 1) c) : C.Safe n c := by
  induction n generalizing c with
  | zero => trivial
  | succ n ih => exact ⟨safe.1, fun d step => ih (safe.2 d step)⟩

/-- What is safe for any number of steps keeps the contract wherever it gets. -/
theorem observed_of_reaches {c d : Config σ} (safe : ∀ n, C.Safe n c)
    (reached : Reaches C.machine C.program c d) {s : Stmt} {rest : List Stmt}
    (next : d.rest = s :: rest) (looked : s.isPlain ∨ s.isLeave) : C.observed s d.state := by
  have safe_end : ∀ n, C.Safe n d := by
    clear next
    induction reached with
    | refl => exact safe
    | tail _ step ih => exact fun n => (ih (n + 1)).2 _ step
  exact (safe_end 1).1 s rest next looked

/-! ## Triples of blocks -/

variable (C) in
/-- The clean-up keeps the contract for a number of steps from wherever it may begin. -/
def Lands (n : Nat) : Prop :=
  ∀ b, C.atLanding b → C.Safe n ⟨landing C.program, b⟩

variable (C) in
/-- From states with `P` on, a block keeps the contract if what follows it does from `Q` on.  The
clean-up is at least one step away. -/
def Triple (P : σ → Prop) (ss : List Stmt) (Q : σ → Prop) : Prop :=
  ∀ n rest a, P a → (∀ b, Q b → C.Safe n ⟨rest, b⟩) → (∀ m < n, C.Lands m) →
    C.Safe n ⟨ss ++ rest, a⟩

section Rules

variable {P P' Q Q' R : σ → Prop} {ss ts : List Stmt}

theorem Triple.nil (weaken : ∀ a, P a → Q a) : C.Triple P [] Q :=
  fun _ _ a pre next _ => next a (weaken a pre)

theorem Triple.append (first : C.Triple P ss Q) (second : C.Triple Q ts R) :
    C.Triple P (ss ++ ts) R := by
  intro n rest a pre next land
  rw [List.append_assoc]
  exact first n (ts ++ rest) a pre (fun b mid => second n rest b mid next land) land

theorem Triple.cons {s : Stmt} (first : C.Triple P [s] Q) (second : C.Triple Q ts R) :
    C.Triple P (s :: ts) R :=
  first.append second

theorem Triple.weaken (triple : C.Triple P ss Q) (before : ∀ a, P' a → P a)
    (behind : ∀ a, Q a → Q' a) : C.Triple P' ss Q' :=
  fun n rest a pre next land =>
    triple n rest a (before a pre) (fun b mid => next b (behind b mid)) land

/-- What the precondition says of all states may be used for the whole block. -/
theorem Triple.of_pure {φ : Prop} (implied : ∀ a, P a → φ) (triple : φ → C.Triple P ss Q) :
    C.Triple P ss Q :=
  fun n rest a pre next land => triple (implied a pre) n rest a pre next land

/-! ## Triples of single statements -/

/-- A statement is safe for as many steps as what may follow it, and one more. -/
theorem Triple.of_step {s : Stmt}
    (looked : ∀ a, P a → s.isPlain ∨ s.isLeave → C.observed s a)
    (next : ∀ n rest a d, P a → (∀ b, Q b → C.Safe n ⟨rest, b⟩) → (∀ m ≤ n, C.Lands m) →
      Step C.machine C.program ⟨s :: rest, a⟩ d → C.Safe n d) :
    C.Triple P [s] Q := by
  intro n rest a pre behind land
  cases n with
  | zero => trivial
  | succ n =>
      refine ⟨fun t ts split which => ?_, fun d step => ?_⟩
      · obtain ⟨rfl, -⟩ := List.cons.inj split
        exact looked a pre which
      · exact next n rest a d pre (fun b mid => (behind b mid).of_succ)
          (fun m le => land m (Nat.lt_succ_of_le le)) step

theorem Triple.idle {s : Stmt} (idle : s.isIdle) : C.Triple P [s] P := by
  refine .of_step (fun a pre which => ?_) fun n rest a d pre behind _ step => ?_
  · cases s <;> simp_all
  · rw [step.of_idle idle]
    exact behind a pre

theorem Triple.plain {s : Stmt} (plain : s.isPlain)
    (does : ∀ a, P a → C.observed s a ∧ ∀ b, C.machine.effect s a b → Q b) :
    C.Triple P [s] Q := by
  refine .of_step (fun a pre _ => (does a pre).1) fun n rest a d pre behind _ step => ?_
  obtain ⟨b, done, rfl⟩ := step.of_plain plain
  exact behind b ((does a pre).2 b done)

theorem Triple.ensure {c : Condition} {f : Failure}
    (passes : ∀ a b, P a → C.machine.test c a true b → Q b)
    (fails : ∀ a b, P a → C.machine.test c a false b → C.observed (.perform f.call) b ∧
      ∀ d, C.machine.effect (.perform f.call) b d → C.atLanding d) :
    C.Triple P [.ensure c f] Q := by
  refine .of_step (by simp) fun n rest a d pre behind land step => ?_
  obtain ⟨b, ⟨given, rfl⟩ | ⟨given, rfl⟩⟩ := step.of_ensure
  · exact behind b (passes a b pre given)
  · have report : C.Triple (fun e => C.observed (.perform f.call) e ∧
        ∀ d, C.machine.effect (.perform f.call) e d → C.atLanding d) [.perform f.call]
        C.atLanding := .plain rfl fun e kept => kept
    exact report n (landing C.program) b (fails a b pre given) (land n (Nat.le_refl n))
      fun m lt => land m (Nat.le_of_lt lt)

theorem Triple.guarded {c : Expr} {call : Call}
    (called : ∀ a b, P a → C.machine.test (.holds c) a true b → R b)
    (uncalled : ∀ a b, P a → C.machine.test (.holds c) a false b → Q b)
    (body : C.Triple R [.perform call] Q) : C.Triple P [.guarded c call] Q := by
  refine .of_step (by simp) fun n rest a d pre behind land step => ?_
  obtain ⟨b, ⟨given, rfl⟩ | ⟨given, rfl⟩⟩ := step.of_guarded
  · exact body n rest b (called a b pre given) behind fun m lt => land m (Nat.le_of_lt lt)
  · exact behind b (uncalled a b pre given)

theorem Triple.when {c : Expr}
    (taken : ∀ a b, P a → C.machine.test (.holds c) a true b → R b)
    (untaken : ∀ a b, P a → C.machine.test (.holds c) a false b → Q b)
    (body : C.Triple R ss Q) : C.Triple P [.when c ss] Q := by
  refine .of_step (by simp) fun n rest a d pre behind land step => ?_
  obtain ⟨b, ⟨given, rfl⟩ | ⟨given, rfl⟩⟩ := step.of_when
  · exact body n rest b (taken a b pre given) behind fun m lt => land m (Nat.le_of_lt lt)
  · exact behind b (untaken a b pre given)

theorem Triple.choose {c : Expr} {R' : σ → Prop}
    (first : ∀ a b, P a → C.machine.test (.holds c) a true b → R b)
    (second : ∀ a b, P a → C.machine.test (.holds c) a false b → R' b)
    (body : C.Triple R ss Q) (otherwise : C.Triple R' ts Q) :
    C.Triple P [.choose c ss ts] Q := by
  refine .of_step (by simp) fun n rest a d pre behind land step => ?_
  obtain ⟨b, ⟨given, rfl⟩ | ⟨given, rfl⟩⟩ := step.of_choose
  · exact body n rest b (first a b pre given) behind fun m lt => land m (Nat.le_of_lt lt)
  · exact otherwise n rest b (second a b pre given) behind fun m lt => land m (Nat.le_of_lt lt)

theorem Triple.leave {value : Expr} (done : ∀ a, P a → C.observed (.leave value) a) :
    C.Triple P [.leave value] Q :=
  .of_step (fun a pre _ => done a pre) fun _ _ _ _ _ _ _ step => absurd step not_step_leave

/-! ## Triples of rows and loops -/

theorem Triple.composes : Composes C.Triple :=
  ⟨fun _ => .nil fun _ pre => pre, .append⟩

/-- A row of blocks, with a condition that says how far the row is done. -/
theorem Triple.flatMap {β : Type} {f : β → List Stmt} {bs : List β} (I : List β → σ → Prop)
    (each : ∀ before b behind, bs = before ++ b :: behind →
      C.Triple (I before) (f b) (I (before ++ [b]))) :
    C.Triple (I []) (bs.flatMap f) (I bs) :=
  composes.flatMap I each

/-- A row of blocks that all keep a condition. -/
theorem Triple.flatMap_same {β : Type} {f : β → List Stmt} {bs : List β}
    (each : ∀ b ∈ bs, C.Triple P (f b) P) : C.Triple P (bs.flatMap f) P :=
  .flatMap (fun _ => P) fun _ b _ split => each b (by simp [split])

/-- A counted loop, with a condition that says how many passes are done. -/
theorem Triple.count {index : Var} {bound : Nat} (I : Nat → σ → Prop)
    (each : ∀ k < bound, C.Triple (I k) (.assign (.var index) (.number k) :: ss) (I (k + 1)))
    (last : C.Triple (I bound) [.assign (.var index) (.number bound)] Q) :
    C.Triple (I 0) [.count index bound ss] Q := by
  have row : C.Triple (I 0) (unrolled index bound ss) Q := composes.unrolled I each last
  refine .of_step (by simp) fun n rest a d pre behind land step => ?_
  rw [step.of_count]
  exact row n rest a pre behind fun m lt => land m (Nat.le_of_lt lt)

/-- A loop, with a condition that holds in front of each pass. -/
theorem Triple.repeatWhile {c : Expr} (body : C.Triple P ss R)
    (again : ∀ a b, R a → C.machine.test (.holds c) a true b → P b)
    (done : ∀ a b, R a → C.machine.test (.holds c) a false b → Q b) :
    C.Triple P [.repeatWhile c ss] Q := by
  intro n
  -- The loop in the tail of a pass has fewer steps left than the loop itself.
  induction n with
  | zero => exact fun _ _ _ _ _ => trivial
  | succ n ih =>
      intro rest a pre behind land
      have behind' : ∀ b, Q b → C.Safe n ⟨rest, b⟩ := fun b mid => (behind b mid).of_succ
      have land' : ∀ m < n, C.Lands m := fun m lt => land m (Nat.lt_succ_of_lt lt)
      refine ⟨fun t ts split which => ?_, fun d step => ?_⟩
      · obtain ⟨rfl, -⟩ := List.cons.inj split
        simp at which
      · rw [step.of_repeatWhile]
        refine body n _ a pre (fun b mid => ?_) land'
        cases n with
        | zero => trivial
        | succ n =>
            refine ⟨fun t ts split which => ?_, fun d step => ?_⟩
            · obtain ⟨rfl, -⟩ := List.cons.inj split
              simp at which
            · obtain ⟨e, ⟨given, rfl⟩ | ⟨given, rfl⟩⟩ := step.of_when
              · exact (ih rest e (again b e mid given) behind' land').of_succ
              · exact (behind' e (done b e mid given)).of_succ

end Rules

/-! ## Whole programs -/

theorem safe_nil (n : Nat) (a : σ) : C.Safe n ⟨[], a⟩ := by
  cases n with
  | zero => trivial
  | succ n => exact ⟨fun s rest split => by simp at split, fun d step => nomatch step⟩

/-- A program keeps its contract if its text does, and the clean-up does where a check failed. -/
theorem safe_of_triples {P Q R : σ → Prop} (main : C.Triple P C.program Q)
    (clean : C.Triple C.atLanding (landing C.program) R) {a : σ} (pre : P a) (n : Nat) :
    C.Safe n ⟨C.program, a⟩ := by
  have lands (n : Nat) : C.Lands n := by
    induction n using Nat.strongRecOn with
    | ind n ih =>
        intro b landed
        simpa using clean n [] b landed (fun d _ => safe_nil n d) ih
  simpa using main n [] a pre (fun d _ => safe_nil n d) fun m _ => lands m

end Contract
end KernelHost.Code
