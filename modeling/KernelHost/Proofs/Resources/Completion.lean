import KernelHost.Proofs.Code.Landing
import KernelHost.Proofs.Execution.Progress
import KernelHost.Proofs.Resources.Ledger
import Mathlib.Tactic.SplitIfs

/-!
# Completion

The ledger never stops the host program: whatever happened so far, there is a way to the end.  Hence
what is proved of the end is not proved of nothing.
-/

namespace KernelHost.Host

open Code (Call Callee Condition Declarator Each Expr Guide Reaches Stmt Var reportsStatus)

namespace Ledger

variable (a : Ledger)

/-- A call may fail. -/
theorem exists_stores (target : Var) (call : Call) : ∃ b, a.Stores target call b := by
  classical
  let content : Content := if (releaser? call.callee).isSome then .null else .other
  let number : Var → Nat :=
    if reportsStatus target call then Function.update a.number .callStatus 1 else a.number
  refine ⟨⟨a.books.put (.var target) content, number⟩, false, ?_, fun reports => ?_,
    fun v apart => ?_⟩
  · cases releaser : releaser? call.callee <;>
      cases event : (eventOf call).bind a.place? <;>
      simp [Books.Stores, content, releaser]
  · simp [number, reports, Succeeded]
  · simp only [not_or] at apart
    by_cases reports : reportsStatus target call
    · have ne : v ≠ .callStatus := by
        rintro rfl
        rcases reports with rfl | status
        · exact apart.1 rfl
        · exact apart.2 (.inl status)
      simp [number, reports, Function.update_of_ne ne]
    · simp [number, reports]

theorem exists_declares (d : Declarator) : ∃ b, a.Declares d b := by
  unfold Declares
  cases d.initial with
  | none | value | nulls => exact ⟨⟨_, a.number⟩, rfl, fun _ _ => rfl⟩
  | result call => exact a.exists_stores d.var call

theorem exists_declaresAll (ds : List Declarator) : ∃ b, a.DeclaresAll ds b := by
  induction ds generalizing a with
  | nil => exact ⟨a, rfl⟩
  | cons d ds ih =>
      obtain ⟨c, first⟩ := a.exists_declares d
      obtain ⟨b, rest⟩ := ih c
      exact ⟨b, c, first, rest⟩

theorem exists_assigns (target value : Expr) : ∃ b, a.Assigns target value b := by
  cases value with
  | number n =>
      refine ⟨⟨_, fun v => if target = .var v then n else a.number v⟩, rfl,
        fun v apart => if_neg apart, fun v m same given => ?_⟩
      simpa [same] using given
  | _ => exact ⟨⟨_, a.number⟩, rfl, fun _ _ => rfl, fun _ _ _ given => by simp at given⟩

/-- Whatever a statement without control does, there is a state behind it. -/
theorem exists_effect {s : Stmt} (plain : s.isPlain) (ordinary : isOrdinary s) :
    ∃ b, ledgerMachine.effect s a b := by
  cases s with
  | declare type items => exact a.exists_declaresAll items
  | assign target value => exact a.exists_assigns target value
  | store target call =>
      cases target with
      | var v => exact a.exists_stores v call
      | _ => simp [isOrdinary] at ordinary
  | declareList | increase | increment | perform => exact ⟨⟨_, a.number⟩, rfl, fun _ _ => rfl⟩
  | _ => simp [Stmt.isPlain] at plain

/-- A condition gives something. -/
theorem exists_test (c : Condition) : ∃ given, ledgerMachine.test c a given a := by
  cases c with
  | holds e =>
      cases known : a.truth e with
      | none => exact ⟨true, rfl, by simp [known]⟩
      | some given => exact ⟨given, rfl, by simp [known]⟩
  | givesOne call => exact ⟨true, rfl, by simp⟩

end Ledger

/-- The host program is led to its end, whatever its state. -/
def endGuide (p : Plan) (mayFail : Prop) : Guide Ledger where
  machine := ledgerMachine
  program := body p
  good _ := True
  mayFail := mayFail

theorem makes_of_isOrdinary {p : Plan} {mayFail : Prop} {s : Stmt} (plain : s.isPlain)
    (ordinary : isOrdinary s) : (endGuide p mayFail).Makes s :=
  fun a _ => (a.exists_effect plain ordinary).imp fun _ done => ⟨done, trivial⟩

/-- The program is not stuck in an ordinary statement, nor in a check if checks may fail. -/
theorem able_of_isOrdinary {p : Plan} {mayFail : Prop} {s : Stmt} (ordinary : isOrdinary s)
    (check : ∀ c f, s = .ensure c f → mayFail) : (endGuide p mayFail).Able s := by
  have given (e : Expr) (a : Ledger) (_ : (endGuide p mayFail).good a) :
      ∃ given b, ledgerMachine.test (.holds e) a given b ∧ (endGuide p mayFail).good b :=
    (a.exists_test (.holds e)).imp fun _ given => ⟨a, given, trivial⟩
  cases s with
  | leave | cleanupLabel => simp [isOrdinary] at ordinary
  | ensure c f =>
      intro a _
      obtain ⟨given, tested⟩ := a.exists_test c
      cases given with
      | true => exact .inl ⟨a, tested, trivial⟩
      | false =>
          obtain ⟨d, done⟩ := a.exists_effect (s := .perform f.call) rfl rfl
          exact .inr ⟨check c f rfl, a, d, tested, done, trivial⟩
  | guarded c call => exact ⟨makes_of_isOrdinary rfl rfl, given c⟩
  | «when» c | choose c => exact given c
  | count index => exact fun k => makes_of_isOrdinary rfl rfl
  | repeatWhile c =>
      have flag : c = .var .loopFlag := by simpa [isOrdinary] using ordinary
      refine fun a _ => ⟨a, ⟨rfl, fun e same known truth => ?_⟩, trivial⟩
      simp [← Condition.holds.inj same, flag, Ledger.truth, Ledger.place?, Place.kept, isNumber,
        Option.filter, Code.succeeded] at truth
  | _ => exact fun plain => makes_of_isOrdinary plain ordinary

/-- From every state, the host program can come to its end. -/
theorem exists_reaches_leave (p : Plan) (a : Ledger) :
    ∃ b value rest, Reaches ledgerMachine (body p) ⟨body p, a⟩ ⟨.leave value :: rest, b⟩ := by
  obtain ⟨releases, sure, clean⟩ := cleanup_eq p
  have leaves (b : Ledger) :
      ∃ d, Reaches ledgerMachine (body p) ⟨releases ++ [Stmt.leave (.var .exitCode)], b⟩
        ⟨[.leave (.var .exitCode)], d⟩ := by
    have passable := Guide.Passable.of_allWithin (G := endGuide p False) releases
      fun s mem => able_of_isOrdinary (isOrdinary_of_isSure (sure s mem)) fun c f check => by
        simpa [check, isSure] using sure s mem
    obtain ⟨d, -, behind | ⟨may, -⟩⟩ := passable b [.leave (.var .exitCode)] trivial
    · exact ⟨d, behind⟩
    · exact may.elim
  have main : (endGuide p True).Passable (mainPath p) :=
    .of_allWithin _ fun s mem => able_of_isOrdinary (ordinary_mainPath p s mem) fun _ _ _ => trivial
  obtain ⟨b, -, behind⟩ := main a (cleanup p) trivial
  obtain ⟨d, left⟩ := leaves b
  have landed : Reaches ledgerMachine (body p) ⟨(cleanup p).tail, b⟩
      ⟨[.leave (.var .exitCode)], d⟩ := by
    rw [clean]
    exact .head (.idle rfl) left
  have reached : Reaches ledgerMachine (body p) ⟨body p, a⟩ ⟨(cleanup p).tail, b⟩ := by
    obtain behind | ⟨-, landed⟩ := behind
    · apply behind.tail
      rw [clean]
      exact .idle rfl
    · rw [← landing_body]
      exact landed
  exact ⟨d, .var .exitCode, [], reached.trans landed⟩

end KernelHost.Host
