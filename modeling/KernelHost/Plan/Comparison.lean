import KernelHost.Code.Expr
import KernelHost.Double.Rounding
import KernelHost.Plan.Storage

/-!
# Comparisons

Each validated output is compared with its reference copy, element by element and lane by lane.  The
index of elements is `i`; that of lanes is `j` inside elements and `i` by itself.
-/

namespace KernelHost

open Code (Expr Piece Var)

/-- Numbers that can be compared and subtracted. -/
class Measurable (α : Type) where
  /-- Whether the first number is below the second. -/
  below : α → α → Bool
  /-- Whether two numbers are equal. -/
  same : α → α → Bool
  /-- The difference. -/
  sub : α → α → α

instance : Measurable Double where
  below := Double.below
  same := Double.same
  sub := Double.sub

/-- How two values are compared. -/
inductive Comparison (α : Type)
  | exact
  /-- They may differ by a tolerance: its name in the program, its text and its value. -/
  | within (name : Expr) (text : String) (value : α)
  deriving DecidableEq, Repr

namespace Comparison

variable {α : Type}

/-- The condition, in C, that two values differ too much. -/
def condition (expected actual : Expr) : Comparison α → Expr
  | .exact => .binary .unequal expected actual
  | .within name _ _ => .outside expected actual name

/-- Whether two values differ too much. -/
def mismatches [Measurable α] (expected actual : α) : Comparison α → Bool
  | .exact => !Measurable.same expected actual
  | .within _ _ value =>
    let notBelow := Measurable.below expected actual || Measurable.same expected actual
    (Measurable.below actual expected &&
        Measurable.below value (Measurable.sub expected actual)) ||
      (notBelow && Measurable.below value (Measurable.sub actual expected))

/-- What the message about a mismatch ends in. -/
def note : Comparison α → String
  | .exact => ""
  | .within _ _ _ => " (with epsilon)"

end Comparison

/-- The comparison of an output with its reference copy. -/
structure Check where
  /-- The name of the output. -/
  output : String
  /-- How values are compared. -/
  comparison : Comparison Double
  /-- The conversion of `printf` for a value. -/
  format : String
  /-- The number of elements, for an array. -/
  elements : Option Nat
  /-- The number of lanes, for vectors. -/
  lanes : Option Nat
  deriving DecidableEq, Repr

namespace Check

/-- The index of elements. -/
def elementIndex? (c : Check) : Option Var :=
  c.elements.map fun _ => .i

/-- The index of lanes. -/
def laneIndex? (c : Check) : Option Var :=
  c.lanes.map fun _ => if c.elements.isSome then .j else .i

/-- The loops around a comparison with their bounds, the outermost first. -/
def loops (c : Check) : List (Var × Nat) :=
  c.elements.toList.map ((.i, ·)) ++
    c.lanes.toList.map ((if c.elements.isSome then .j else .i, ·))

/-- The value that is compared, in the given variable. -/
def access (c : Check) (base : Var) : Expr :=
  let element := c.elementIndex?.elim (.var base) fun index => .index (.var base) (.var index)
  c.laneIndex?.elim element fun index => .lane element (.var index)

/-- The expected value. -/
def expected (c : Check) : Expr :=
  c.access (.reference c.output)

/-- The actual value. -/
def actual (c : Check) : Expr :=
  c.access (.host c.output)

/-- The condition of a mismatch. -/
def test (c : Check) : Expr :=
  c.comparison.condition c.expected c.actual

/-- The place of a comparison in a message, with a conversion for each index. -/
def location (c : Check) : List Piece :=
  .text c.output ::
    (c.elementIndex?.elim [] fun _ => [.text "[", .conversion "d", .text "]"]) ++
    c.laneIndex?.elim [] fun _ => [.text ".s[", .conversion "d", .text "]"]

/-- The indices that fill the conversions of the place. -/
def locationArgs (c : Check) : List Var :=
  c.loops.map (·.1)

/-- The number of comparisons, if it fits 64 bits. -/
def comparisons? (c : Check) : Option Nat :=
  let n := c.elements.getD 1 * c.lanes.getD 1
  if n < twoTo 64 then some n else none

end Check

/-- The check of a variable, if it has a reference copy. -/
def Placed.check? (p : Placed) : Option Check :=
  let v := p.decl
  if v.role == .output && p.layout.reference.isSome then
    some {
      output := v.name
      comparison :=
        match v.tolerance with
        | some t => .within (.var (.tolerance v.name)) t.text t.value
        | none => .exact
      format := p.layout.format
      elements := if p.layout.storage.isArray then some p.layout.storage.count else none
      lanes := p.layout.vector.map (·.lanes) }
  else none

end KernelHost
