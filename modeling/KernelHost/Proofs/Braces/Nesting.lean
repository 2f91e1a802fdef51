import KernelHost.Proofs.Code.Views
import KernelHost.Proofs.Text.Words
import Mathlib.Tactic.Common

/-!
# Braces

A text has its braces in balance if it closes all that it opens, and nothing that it does not.  This
is seen by counting the braces that are open from character to character.  The lines of a block of
statements leave as many open as there were in front of them, as far as the own texts of the
statements have no braces.
-/

namespace KernelHost

/-! ## Balance -/

/-- There are as many closing as opening braces, and in no prefix there are more. -/
structure Balanced (cs : List Char) : Prop where
  closed : cs.count '\x7d' = cs.count '\x7b'
  opened : ∀ front, front <+: cs → front.count '\x7d' ≤ front.count '\x7b'

/-- The number of open braces behind a text, by the number in front of it; there is none if some
brace closes nothing. -/
def nesting : Nat → List Char → Option Nat
  | n, [] => some n
  | n, c :: cs =>
    if c = '\x7b' then nesting (n + 1) cs
    else if c = '\x7d' then if n = 0 then none else nesting (n - 1) cs
    else nesting n cs

theorem nesting_append (n : Nat) (cs ds : List Char) :
    nesting n (cs ++ ds) = (nesting n cs).bind (nesting · ds) := by
  induction cs generalizing n with
  | nil => rfl
  | cons c cs ih =>
      simp only [List.cons_append, nesting, ih]
      split_ifs <;> rfl

/-- Braces that are open in front of a text may be closed in it. -/
theorem count_of_nesting {n k : Nat} {cs : List Char} (nested : nesting n cs = some k) :
    cs.count '\x7d' + k = cs.count '\x7b' + n ∧
      ∀ front, front <+: cs → front.count '\x7d' ≤ front.count '\x7b' + n := by
  induction cs generalizing n with
  | nil =>
      obtain rfl := Option.some.inj nested
      exact ⟨rfl, fun front inside => by simp [List.prefix_nil.mp inside]⟩
  | cons c cs ih =>
      have step {m : Nat} (rest : nesting m cs = some k)
          (here : ∀ ds : List Char, (c :: ds).count '\x7d' + ds.count '\x7b' + m =
            ds.count '\x7d' + (c :: ds).count '\x7b' + n) :
          (c :: cs).count '\x7d' + k = (c :: cs).count '\x7b' + n ∧
            ∀ front, front <+: c :: cs → front.count '\x7d' ≤ front.count '\x7b' + n := by
        obtain ⟨whole, prefixes⟩ := ih rest
        have shifted := here cs
        refine ⟨by omega, fun front inside => ?_⟩
        rcases List.prefix_cons_iff.mp inside with rfl | ⟨ds, rfl, rest⟩
        · simp
        · have shifted := here ds
          have := prefixes ds rest
          omega
      simp only [nesting] at nested
      split_ifs at nested with opens closes none
      · refine step nested fun ds => ?_
        simp [opens]
        omega
      · refine step nested fun ds => ?_
        simp [closes]
        omega
      · refine step nested fun ds => ?_
        simp [opens, closes]

/-- A text leaves as many braces open as there were in front of it. -/
def Steady (cs : List Char) : Prop :=
  ∀ n, nesting n cs = some n

namespace Steady

variable {cs ds : List Char}

theorem balanced (steady : Steady cs) : Balanced cs := by
  obtain ⟨whole, prefixes⟩ := count_of_nesting (steady 0)
  exact ⟨by omega, fun front inside => by simpa using prefixes front inside⟩

theorem nil : Steady [] :=
  fun _ => rfl

theorem append (left : Steady cs) (right : Steady ds) : Steady (cs ++ ds) := fun n => by
  rw [nesting_append, left n, Option.bind_some, right n]

end Steady

/-! ## Texts without braces -/

/-- A text has no braces. -/
def Braceless (s : String) : Prop :=
  ∀ c ∈ s.toList, c ≠ '\x7b' ∧ c ≠ '\x7d'

instance (s : String) : Decidable (Braceless s) :=
  List.decidableBAll _ s.toList

namespace Braceless

/-- For literals this is evaluated faster than the condition itself. -/
theorem ofList {cs : List Char} (plain : cs.all fun c => c != '\x7b' && c != '\x7d') :
    Braceless (.ofList cs) := by
  simpa [Braceless] using plain

@[simp]
theorem append_iff {s t : String} : Braceless (s ++ t) ↔ Braceless s ∧ Braceless t := by
  simp only [Braceless, String.toList_append, List.forall_mem_append]

@[simp]
theorem intercalate_iff {ss : List String} :
    Braceless (", ".intercalate ss) ↔ ∀ s ∈ ss, Braceless s := by
  induction ss with
  | nil => simpa using (by decide : Braceless "")
  | cons s ss ih =>
      cases ss with
      | nil => simp
      | cons t ts =>
          have separator : Braceless ", " := by decide
          rw [String.intercalate_cons_cons, append_iff, append_iff, ih]
          simp [separator]

theorem steady {s : String} (braceless : Braceless s) : Steady s.toList := by
  unfold Braceless at braceless
  generalize s.toList = cs at braceless ⊢
  intro n
  induction cs with
  | nil => rfl
  | cons c cs ih =>
      obtain ⟨⟨noOpening, noClosing⟩, rest⟩ := List.forall_mem_cons.mp braceless
      rw [nesting, if_neg noOpening, if_neg noClosing, ih rest]

theorem of_isWord {s : String} (word : IsWord s) : Braceless s := by
  intro c mem
  exact ⟨fun same => word.not_mem (by decide) (same ▸ mem),
    fun same => word.not_mem (by decide) (same ▸ mem)⟩

end Braceless

/-! ## Lines -/

namespace Code

/-- The text of lines, each of them ended. -/
def linesText (lines : List Line) : List Char :=
  lines.flatMap fun line => line.render.toList ++ ['\n']

theorem linesText_append (ls ls' : List Line) :
    linesText (ls ++ ls') = linesText ls ++ linesText ls' :=
  List.flatMap_append

/-- Only the texts of lines can have braces. -/
theorem nesting_linesText_cons (n : Nat) (line : Line) (ls : List Line) :
    nesting n (linesText (line :: ls)) =
      (nesting n line.text.toList).bind (nesting · (linesText ls)) := by
  have indented : nesting n line.render.toList = nesting n line.text.toList := by
    rw [Line.render]
    split
    · rename_i empty
      rw [beq_iff_eq.mp empty]
    · have tabulators : Braceless (.ofList (List.replicate line.depth '\t')) := by
        intro c mem
        obtain ⟨-, rfl⟩ : line.depth ≠ 0 ∧ c = '\t' := by simpa using mem
        decide
      rw [String.toList_append, nesting_append, tabulators.steady n, Option.bind_some]
  have ended (k : Nat) (cs : List Char) : nesting k ('\n' :: cs) = nesting k cs := rfl
  rw [linesText, List.flatMap_cons, nesting_append, nesting_append, indented]
  cases nesting n line.text.toList <;> simp [nesting, linesText]

/-! ## Statements -/

/-- An initialization has no braces but those of a list. -/
def Initial.Tidy : Initial → Prop
  | .none | .nulls _ => True
  | .value e => Braceless e.text
  | .result call => Braceless call.text

/-- The own texts of a statement have no braces. -/
def Stmt.Tidy : Stmt → Prop
  | .blank | .cleanupLabel => True
  | .comment text => Braceless text
  | .declare type items => Braceless type ∧ ∀ d ∈ items, Braceless d.var.text ∧ d.initial.Tidy
  | .declareList type var _ content => Braceless type ∧ Braceless var.text ∧ Braceless content
  | .assign target value | .increase target value => Braceless target.text ∧ Braceless value.text
  | .increment var | .count var _ _ => Braceless var.text
  | .store target call => Braceless target.text ∧ Braceless call.text
  | .perform call => Braceless call.text
  | .ensure condition failure => Braceless condition.text ∧ Braceless failure.call.text
  | .guarded condition call => Braceless condition.text ∧ Braceless call.text
  | .when condition _ | .choose condition _ _ | .repeatWhile condition _ => Braceless condition.text
  | .leave value => Braceless value.text

@[simp]
theorem braceless_repr (n : Nat) : Braceless n.repr :=
  .of_isWord (.toString n)

theorem braceless_sizeText (size : Option Nat) : Braceless (sizeText size) := by
  cases size with
  | none => exact (by decide : Braceless "")
  | some n =>
      have brackets : Braceless "[" ∧ Braceless "]" := by decide
      simp [sizeText, brackets]

theorem Initial.Tidy.steady {initial : Initial} (tidy : initial.Tidy) :
    Steady initial.text.toList := by
  cases initial with
  | none => exact .nil
  | value e => exact Braceless.steady (Braceless.append_iff.mpr ⟨by decide, tidy⟩)
  | result call => exact Braceless.steady (Braceless.append_iff.mpr ⟨by decide, tidy⟩)
  | nulls count =>
      have inner : Braceless (", ".intercalate (List.replicate count Expr.null.text)) := by
        rw [Braceless.intercalate_iff]
        intro s mem
        rw [(List.mem_replicate.mp mem).2]
        decide
      have opened : Steady (" = \x7b" ++ ", ".intercalate (List.replicate count Expr.null.text) ++
          "\x7d").toList := by
        intro n
        rw [String.toList_append, String.toList_append, nesting_append, nesting_append]
        have opening : nesting n " = \x7b".toList = some (n + 1) := rfl
        have closing : nesting (n + 1) "\x7d".toList = some n := rfl
        rw [opening, Option.bind_some, inner.steady, Option.bind_some, closing]
      exact opened

theorem steady_declarator {d : Declarator} (var : Braceless d.var.text) (tidy : d.initial.Tidy) :
    Steady d.text.toList := by
  have star : Braceless (if d.pointer then "*" else "") := by
    split <;> decide
  have front : Braceless ((if d.pointer then "*" else "") ++ d.var.text ++ sizeText d.size) := by
    simp [star, var, braceless_sizeText]
  rw [Declarator.text, String.toList_append]
  exact front.steady.append tidy.steady

theorem steady_intercalate {ss : List String} (each : ∀ s ∈ ss, Steady s.toList) :
    Steady (", ".intercalate ss).toList := by
  induction ss with
  | nil => exact .nil
  | cons s ss ih =>
      obtain ⟨first, rest⟩ := List.forall_mem_cons.mp each
      cases ss with
      | nil => simpa using first
      | cons t ts =>
          have separator : Braceless ", " := by decide
          rw [String.intercalate_cons_cons, String.toList_append, String.toList_append]
          exact (first.append separator.steady).append (ih rest)

/-- A line of its own. -/
theorem steady_line {depth : Nat} {text : String} (steady : Steady text.toList) :
    Steady (linesText [⟨depth, text⟩]) := fun n => by
  rw [nesting_linesText_cons, steady n]
  rfl

/-- A line that opens a brace behind a text without any. -/
theorem nesting_opening {front back : String} (braceless : Braceless front) {n : Nat}
    (opens : nesting n back.toList = some (n + 1)) :
    nesting n (front ++ back).toList = some (n + 1) := by
  rw [String.toList_append, nesting_append, braceless.steady n, Option.bind_some, opens]

/-- Lines between a line that opens a brace and a line that closes it. -/
theorem nesting_between {n depth : Nat} {front back : String} {ls : List Line}
    (opens : nesting n front.toList = some (n + 1)) (inner : Steady (linesText ls))
    (closes : nesting (n + 1) back.toList = some n) :
    nesting n (linesText (⟨depth, front⟩ :: ls ++ [⟨depth, back⟩])) = some n := by
  rw [List.cons_append, nesting_linesText_cons, opens, Option.bind_some, linesText_append,
    nesting_append, inner (n + 1), Option.bind_some, nesting_linesText_cons, closes]
  rfl

mutual

/-- The lines of a statement leave as many braces open as there were. -/
theorem Stmt.steady_lines (depth : Nat) (s : Stmt) (tidy : ∀ t ∈ s.within, t.Tidy) :
    Steady (linesText (s.lines depth)) := by
  have self : s.Tidy := tidy s (by cases s <;> simp [Stmt.within])
  cases s with
  | blank => exact steady_line .nil
  | comment text =>
      have plain : Braceless text := self
      exact steady_line (Braceless.steady (by simp +decide [plain]))
  | declare type items =>
      obtain ⟨typed, declared⟩ := self
      have listed : Steady (", ".intercalate (items.map Declarator.text)).toList := by
        refine steady_intercalate (List.forall_mem_map.mpr fun d mem => ?_)
        exact steady_declarator (declared d mem).1 (declared d mem).2
      have front : Braceless (type ++ " ") := by simp +decide [typed]
      refine steady_line ?_
      rw [String.toList_append, String.toList_append]
      exact (front.steady.append listed).append (by decide : Braceless ";").steady
  | declareList type var size content =>
      obtain ⟨typed, named, filled⟩ := self
      have front : Braceless (type ++ " " ++ var.text ++ sizeText size) := by
        simp +decide [typed, named, braceless_sizeText]
      exact fun n => nesting_between (nesting_opening front rfl) (steady_line filled.steady) rfl
  | assign target value =>
      exact steady_line (Braceless.steady (by simp +decide [self.1, self.2]))
  | increase target value =>
      exact steady_line (Braceless.steady (by simp +decide [self.1, self.2]))
  | increment var =>
      have named : Braceless var.text := self
      exact steady_line (Braceless.steady (by simp +decide [named]))
  | store target call =>
      exact steady_line (Braceless.steady (by simp +decide [self.1, self.2]))
  | perform call =>
      have called : Braceless call.text := self
      exact steady_line (Braceless.steady (by simp +decide [called]))
  | ensure condition failure =>
      exact steady_line (Braceless.steady (by simp +decide [self.1, self.2, Callee.text]))
  | guarded condition call =>
      have tested : Braceless ("if(" ++ condition.text ++ ")") := by simp +decide [self.1]
      have called : Braceless (call.text ++ ";") := by simp +decide [self.2]
      intro n
      rw [Stmt.lines, nesting_linesText_cons, tested.steady n, Option.bind_some]
      exact steady_line called.steady n
  | when condition body =>
      have tested : Braceless condition.text := self
      have front : Braceless ("if(" ++ condition.text) := by simp +decide [tested]
      have inner := Stmt.steady_block (depth + 1) body fun t mem =>
        tidy t (by simp [Stmt.within, mem])
      exact fun n => nesting_between (nesting_opening front rfl) inner rfl
  | choose condition body otherwise =>
      have tested : Braceless condition.text := self
      have front : Braceless ("if(" ++ condition.text) := by simp +decide [tested]
      have inner := Stmt.steady_block (depth + 1) body fun t mem =>
        tidy t (by simp [Stmt.within, mem])
      have inner' := Stmt.steady_block (depth + 1) otherwise fun t mem =>
        tidy t (by simp [Stmt.within, mem])
      intro n
      have opens : nesting n ("if(" ++ condition.text ++ ") \x7b").toList = some (n + 1) :=
        nesting_opening front rfl
      have middle : nesting (n + 1) "\x7d else \x7b".toList = some (n + 1) := rfl
      have back : nesting (n + 1) "\x7d".toList = some n := rfl
      simp only [Stmt.lines, List.cons_append, List.append_assoc, nesting_linesText_cons,
        linesText_append, nesting_append, opens, inner (n + 1), middle, inner' (n + 1), back,
        Option.bind_some]
      rfl
  | count index bound body =>
      have named : Braceless index.text := self
      have front : Braceless ("for(" ++ index.text ++ " = 0; " ++ index.text ++ " < " ++
          toString bound ++ "; " ++ index.text) := by
        simp +decide [named]
      have inner := Stmt.steady_block (depth + 1) body fun t mem =>
        tidy t (by simp [Stmt.within, mem])
      exact fun n => nesting_between (nesting_opening front rfl) inner rfl
  | repeatWhile condition body =>
      have tested : Braceless condition.text := self
      have inner := Stmt.steady_block (depth + 1) body fun t mem =>
        tidy t (by simp [Stmt.within, mem])
      refine fun n => nesting_between rfl inner ?_
      have back : Braceless (condition.text ++ ");") := by simp +decide [tested]
      rw [String.append_assoc, String.toList_append, nesting_append]
      exact back.steady n
  | cleanupLabel => exact steady_line (by decide : Braceless "_err:").steady
  | leave value =>
      have given : Braceless value.text := self
      exact steady_line (Braceless.steady (by simp +decide [given]))

/-- So do the lines of a block. -/
theorem Stmt.steady_block (depth : Nat) (ss : List Stmt) (tidy : Each Stmt.Tidy ss) :
    Steady (linesText (Stmt.block depth ss)) := by
  cases ss with
  | nil => exact .nil
  | cons s ss =>
      obtain ⟨first, rest⟩ := Each.cons_iff.mp tidy
      rw [Stmt.block, linesText_append]
      exact (Stmt.steady_lines depth s first).append (Stmt.steady_block depth ss rest)

end

end Code
end KernelHost
