import KernelHost.Proofs.Execution.Steps
import Mathlib.Tactic.Common

/-!
# Runs

What a block achieves: from each state with a precondition there is a run through the block, to a
state with a postcondition.  On a machine that leaves nothing open a program has one execution, so
what its run achieves is what every execution comes to.
-/

namespace KernelHost.Code

variable {σ : Type}

namespace Machine

/-- The state in front decides what statements do and what conditions give. -/
structure Determined (M : Machine σ) : Prop where
  effect : ∀ {s : Stmt} {a b d : σ}, M.effect s a b → M.effect s a d → b = d
  test : ∀ {c : Condition} {a b d : σ} {given given' : Bool},
    M.test c a given b → M.test c a given' d → given = given' ∧ b = d

variable (M : Machine σ) (program : List Stmt)

/-- From each state with `P`, a block can be run through to a state with `Q`. -/
def Achieves (P : σ → Prop) (ss : List Stmt) (Q : σ → Prop) : Prop :=
  ∀ a rest, P a → ∃ b, Q b ∧ Reaches M program ⟨ss ++ rest, a⟩ ⟨rest, b⟩

end Machine

namespace Machine.Achieves

variable {M : Machine σ} {program ss ts : List Stmt} {P Q R : σ → Prop} {s : Stmt}

theorem nil (weaken : ∀ a, P a → Q a) : M.Achieves program P [] Q :=
  fun a _ pre => ⟨a, weaken a pre, .refl⟩

theorem weaken {P' Q' : σ → Prop} (achieves : M.Achieves program P ss Q) (before : ∀ a, P' a → P a)
    (behind : ∀ a, Q a → Q' a) : M.Achieves program P' ss Q' := by
  intro a rest pre
  obtain ⟨b, post, through⟩ := achieves a rest (before a pre)
  exact ⟨b, behind b post, through⟩

/-- Nothing is to be done where nothing gets. -/
theorem never (none : ∀ a, ¬ P a) : M.Achieves program P ss Q :=
  fun a _ pre => absurd pre (none a)

theorem append (first : M.Achieves program P ss Q) (second : M.Achieves program Q ts R) :
    M.Achieves program P (ss ++ ts) R := by
  intro a rest pre
  rw [List.append_assoc]
  obtain ⟨b, mid, through⟩ := first a (ts ++ rest) pre
  obtain ⟨d, post, through'⟩ := second b rest mid
  exact ⟨d, post, through.trans through'⟩

theorem cons (first : M.Achieves program P [s] Q) (second : M.Achieves program Q ts R) :
    M.Achieves program P (s :: ts) R :=
  first.append second

theorem composes : Composes (M.Achieves program) :=
  ⟨fun _ => nil fun _ pre => pre, append⟩

theorem idle (idle : s.isIdle) : M.Achieves program P [s] P :=
  fun a _ pre => ⟨a, pre, .single (.idle idle)⟩

theorem plain (plain : s.isPlain) (does : ∀ a, P a → ∃ b, M.effect s a b ∧ Q b) :
    M.Achieves program P [s] Q := by
  intro a rest pre
  obtain ⟨b, done, post⟩ := does a pre
  exact ⟨b, post, .single (.plain plain done)⟩

theorem when {c : Expr}
    (gives : ∀ a, P a → ∃ given b, M.test (.holds c) a given b ∧ if given then R b else Q b)
    (body : M.Achieves program R ss Q) : M.Achieves program P [.when c ss] Q := by
  intro a rest pre
  obtain ⟨given, b, tested, mid⟩ := gives a pre
  cases given with
  | true =>
      obtain ⟨d, post, through⟩ := body b rest mid
      exact ⟨d, post, .head (.taken tested) through⟩
  | false => exact ⟨b, mid, .single (.untaken tested)⟩

theorem choose {c : Expr} {S : σ → Prop}
    (gives : ∀ a, P a → ∃ given b, M.test (.holds c) a given b ∧ if given then R b else S b)
    (body : M.Achieves program R ss Q) (otherwise : M.Achieves program S ts Q) :
    M.Achieves program P [.choose c ss ts] Q := by
  intro a rest pre
  obtain ⟨given, b, tested, mid⟩ := gives a pre
  cases given with
  | true =>
      obtain ⟨d, post, through⟩ := body b rest mid
      exact ⟨d, post, .head (.first tested) through⟩
  | false =>
      obtain ⟨d, post, through⟩ := otherwise b rest mid
      exact ⟨d, post, .head (.second tested) through⟩

/-- A counted loop, with a condition that says how many passes are done. -/
theorem count {index : Var} {bound : Nat} (I : Nat → σ → Prop)
    (each : ∀ k < bound,
      M.Achieves program (I k) (.assign (.var index) (.number k) :: ss) (I (k + 1)))
    (last : M.Achieves program (I bound) [.assign (.var index) (.number bound)] Q) :
    M.Achieves program (I 0) [.count index bound ss] Q := by
  intro a rest pre
  obtain ⟨b, post, through⟩ := composes.unrolled I each last a rest pre
  exact ⟨b, post, .head .count through⟩

end Machine.Achieves

/-! ## The only execution -/

section Determined

variable {M : Machine σ} {program : List Stmt}

theorem Step.unique (determined : M.Determined) {c d e : Config σ} (step : Step M program c d)
    (step' : Step M program c e) : d = e := by
  cases step with
  | idle idle => exact (step'.of_idle idle).symm
  | plain plain done =>
      obtain ⟨b, done', rfl⟩ := step'.of_plain plain
      rw [determined.effect done done']
  | passes given | fails given =>
      obtain ⟨b, ⟨given', rfl⟩ | ⟨given', rfl⟩⟩ := step'.of_ensure <;>
        simpa using determined.test given given'
  | called given | uncalled given =>
      obtain ⟨b, ⟨given', rfl⟩ | ⟨given', rfl⟩⟩ := step'.of_guarded <;>
        simpa using determined.test given given'
  | taken given | untaken given =>
      obtain ⟨b, ⟨given', rfl⟩ | ⟨given', rfl⟩⟩ := step'.of_when <;>
        simpa using determined.test given given'
  | first given | second given =>
      obtain ⟨b, ⟨given', rfl⟩ | ⟨given', rfl⟩⟩ := step'.of_choose <;>
        simpa using determined.test given given'
  | count => exact step'.of_count.symm
  | again => exact step'.of_repeatWhile.symm

theorem not_step_nil {a : σ} {d : Config σ} : ¬ Step M program ⟨[], a⟩ d :=
  nofun

/-- Wherever an execution of a program has got, it comes to the end that its run achieves. -/
theorem Machine.Achieves.always (determined : M.Determined) {P Q : σ → Prop} {ss : List Stmt}
    (achieves : M.Achieves program P ss Q) {a : σ} (pre : P a) :
    ∃ b, Q b ∧ ∀ d, Reaches M program ⟨ss, a⟩ d → Reaches M program d ⟨[], b⟩ := by
  obtain ⟨b, post, through⟩ := achieves a [] pre
  rw [List.append_nil] at through
  refine ⟨b, post, fun d reached => ?_⟩
  have unique : Relator.RightUnique (Step M program) :=
    fun _ _ _ step step' => step.unique determined step'
  -- Both lie on the one execution, and nothing comes behind its end.
  rcases Relation.ReflTransGen.total_of_right_unique unique reached through with before | behind
  · exact before
  · obtain rfl | ⟨e, step, -⟩ := behind.cases_head
    · exact .refl
    · exact absurd step not_step_nil

end Determined
end KernelHost.Code
