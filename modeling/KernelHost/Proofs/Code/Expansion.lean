import KernelHost.Host.Program
import Mathlib.Tactic.Common

/-!
# The macro for tolerances

The header defines a macro that tests whether two values are too far apart.  Where it is invoked,
its body stands with the operands in the place of its parameters, and this is the condition on the
operands.  Over any numbers it gives what the comparison itself gives.
-/

namespace KernelHost

open Code (Expr)

namespace Code

/-! ## Expansion -/

/-- A character of a word. -/
def isWordChar (c : Char) : Bool :=
  c.isAlphanum || c == '_'

/-- What stands for a word: an argument, if it is a parameter. -/
def expandWord (arguments : List (String × List Char)) (word : List Char) : List Char :=
  (arguments.lookup (.ofList word)).getD word

/-- The body of a macro with arguments in the place of its parameters, behind the part of a word
that has been read. -/
def expand (arguments : List (String × List Char)) : List Char → List Char → List Char
  | word, [] => expandWord arguments word
  | word, c :: cs =>
    if isWordChar c then expand arguments (word ++ [c]) cs
    else expandWord arguments word ++ c :: expand arguments [] cs

/-! ## Evaluation -/

section Evaluation

variable {α : Type} [Measurable α] (given : Expr → Option α)

/-- The number that an expression gives, by those of its operands. -/
def Expr.number? : Expr → Option α
  | .paren e => e.number?
  | .binary .sub left right => do
    let x ← left.number?
    let y ← right.number?
    return Measurable.sub x y
  | e => given e

/-- Whether a condition holds, by the numbers of its operands; the second part of a condition is
evaluated only if the first does not decide. -/
def Expr.holds? : Expr → Option Bool
  | .paren e => e.holds?
  | .binary .both left right => do
    if ← left.holds? then right.holds? else return false
  | .binary .either left right => do
    if ← left.holds? then return true else right.holds?
  | .binary .greater left right => do
    let x ← left.number? given
    let y ← right.number? given
    return Measurable.below y x
  | .binary .atLeast left right => do
    let x ← left.number? given
    let y ← right.number? given
    return Measurable.below y x || Measurable.same y x
  | _ => none

attribute [local simp] Expr.number? Expr.holds?

variable {given} {left right : Expr} {x y : α} {p q : Bool}

theorem Expr.number?_sub (first : left.number? given = some x)
    (second : right.number? given = some y) :
    (Expr.binary .sub left right).number? given = some (Measurable.sub x y) := by
  simp [first, second]

theorem Expr.holds?_greater (first : left.number? given = some x)
    (second : right.number? given = some y) :
    (Expr.binary .greater left right).holds? given = some (Measurable.below y x) := by
  simp [first, second]

theorem Expr.holds?_atLeast (first : left.number? given = some x)
    (second : right.number? given = some y) :
    (Expr.binary .atLeast left right).holds? given =
      some (Measurable.below y x || Measurable.same y x) := by
  simp [first, second]

theorem Expr.holds?_both (first : left.holds? given = some p)
    (second : right.holds? given = some q) :
    (Expr.binary .both left right).holds? given = some (p && q) := by
  cases p <;> simp [first, second]

theorem Expr.holds?_either (first : left.holds? given = some p)
    (second : right.holds? given = some q) :
    (Expr.binary .either left right).holds? given = some (p || q) := by
  cases p <;> simp [first, second]

end Evaluation

end Code

namespace Host

/-- The body of the macro. -/
def toleranceBody : String :=
  (tooFar (.constant "a") (.constant "b") (.constant "e")).text

theorem toleranceBody_eq :
    toleranceBody = "(((a > b) && (a - b > e)) || ((b >= a) && (b - a > e)))" := by
  decide

theorem define_mem_header (p : Plan) :
    "#define TEST_EPSILON(a, b, e) " ++ toleranceBody ∈ header p := by
  have defined : "#define TEST_EPSILON(a, b, e) " ++ toleranceBody ∈ toleranceMacro := by
    decide
  simp [header, macros, defined]

variable (expected actual tolerance : Expr)

/-- The body of the macro with the operands of an invocation is the condition on them. -/
theorem expand_toleranceBody :
    Code.expand
        [("a", expected.text.toList), ("b", actual.text.toList), ("e", tolerance.text.toList)] []
        toleranceBody.toList =
      (tooFar expected actual tolerance).text.toList := by
  have words :
      let arguments := [("a", expected.text.toList), ("b", actual.text.toList),
        ("e", tolerance.text.toList)]
      Code.expandWord arguments [] = [] ∧ Code.expandWord arguments ['a'] = expected.text.toList ∧
        Code.expandWord arguments ['b'] = actual.text.toList ∧
        Code.expandWord arguments ['e'] = tolerance.text.toList :=
    ⟨rfl, rfl, rfl, rfl⟩
  rw [toleranceBody_eq]
  simp [Code.expand, Code.isWordChar, words, tooFar, Expr.text, Code.Operator.sign]

section Verdict

variable {α : Type} [Measurable α] {given : Expr → Option α} {expected actual tolerance : Expr}
  {x y t : α}

/-- The condition on operands gives what their comparison gives. -/
theorem holds?_tooFar (hx : expected.number? given = some x) (hy : actual.number? given = some y)
    (ht : tolerance.number? given = some t) (name : Expr) (text : String) :
    (tooFar expected actual tolerance).holds? given =
      some ((Comparison.within name text t).mismatches x y) := by
  have above := Expr.holds?_both (Expr.holds?_greater hx hy)
    (Expr.holds?_greater (Expr.number?_sub hx hy) ht)
  have notBelow := Expr.holds?_both (Expr.holds?_atLeast hy hx)
    (Expr.holds?_greater (Expr.number?_sub hy hx) ht)
  exact Expr.holds?_either above notBelow

end Verdict

end Host
end KernelHost
