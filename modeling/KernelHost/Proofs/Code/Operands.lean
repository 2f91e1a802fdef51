import KernelHost.Proofs.Code.Views

/-!
# Operands

The expressions that a statement evaluates by itself, and the variables and constants in them.  An
expression is read once, into its leaves; each leaf comes with how it stands in the expression, so
that variables, constants and the ways in which variables are handed over are all read off the same
list.
-/

namespace KernelHost.Code

/-- How a leaf stands in an expression. -/
inductive Stand
  | itself
  /-- Its address is taken. -/
  | address
  /-- It is subscripted. -/
  | element
  deriving DecidableEq

namespace Expr

/-- The leaves of an expression that stands in a given way. -/
def leavesAs (stand : Stand) : Expr → List (Expr × Stand)
  | .cast _ e | .not e | .paren e | .field e _ => e.leavesAs .itself
  | .address e => e.leavesAs .address
  | .index array place => array.leavesAs .element ++ place.leavesAs .itself
  | .lane vector place => vector.leavesAs .itself ++ place.leavesAs .itself
  | .binary _ left right => left.leavesAs .itself ++ right.leavesAs .itself
  | .outside expected actual tolerance =>
    expected.leavesAs .itself ++ actual.leavesAs .itself ++ tolerance.leavesAs .itself
  | e => [(e, stand)]

/-- The leaves of an expression. -/
def leaves (e : Expr) : List (Expr × Stand) :=
  e.leavesAs .itself

/-- The variable that a leaf is. -/
def var? : Expr → Option Var
  | .var v => some v
  | _ => none

/-- The named constant that a leaf is. -/
def constant? : Expr → Option String
  | .constant name => some name
  | _ => none

/-- The variables of an expression with how they stand in it. -/
def stands (e : Expr) : List (Var × Stand) :=
  e.leaves.filterMap fun (leaf, stand) => leaf.var?.map (·, stand)

/-- The named constants of an expression. -/
def constants (e : Expr) : List String :=
  e.leaves.filterMap (·.1.constant?)

end Expr

attribute [local simp] Expr.leavesAs Expr.leaves Expr.var? Expr.constant?

@[simp]
theorem Expr.stands_leaf :
    (∀ v, (Expr.var v).stands = [(v, .itself)]) ∧
      (∀ name, (Expr.constant name).stands = []) ∧
      (∀ n, (Expr.number n).stands = []) ∧
      (∀ n, (Expr.unsigned n).stands = []) ∧
      (∀ pieces, (Expr.literal pieces).stands = []) ∧
      (∀ text, (Expr.quoted text).stands = []) ∧
      (∀ text, (Expr.verbatim text).stands = []) ∧
      (∀ type, (Expr.sizeOf type).stands = []) ∧
      Expr.null.stands = [] ∧
      (∀ body, (Expr.plain body).stands = []) ∧
      ∀ count type, (Expr.bytesOf count type).stands = [] := by
  simp [Expr.stands, Expr.null, Expr.plain, Expr.bytesOf]

@[simp]
theorem Expr.stands_node :
    (∀ type e, (Expr.cast type e).stands = e.stands) ∧
      (∀ e, (Expr.not e).stands = e.stands) ∧
      (∀ e, (Expr.paren e).stands = e.stands) ∧
      (∀ e name, (Expr.field e name).stands = e.stands) ∧
      (∀ v, (Expr.address (.var v)).stands = [(v, .address)]) ∧
      (∀ array place, (Expr.address (.index array place)).stands =
        (Expr.index array place).stands) ∧
      (∀ v place, (Expr.index (.var v) place).stands = (v, .element) :: place.stands) ∧
      (∀ vector place, (Expr.lane vector place).stands = vector.stands ++ place.stands) ∧
      (∀ op left right, (Expr.binary op left right).stands = left.stands ++ right.stands) ∧
      ∀ expected actual tolerance, (Expr.outside expected actual tolerance).stands =
        expected.stands ++ actual.stands ++ tolerance.stands := by
  simp [Expr.stands]

@[simp]
theorem Expr.constants_leaf :
    (∀ v, (Expr.var v).constants = []) ∧
      (∀ name, (Expr.constant name).constants = [name]) ∧
      (∀ n, (Expr.number n).constants = []) ∧
      (∀ n, (Expr.unsigned n).constants = []) ∧
      (∀ pieces, (Expr.literal pieces).constants = []) ∧
      (∀ text, (Expr.quoted text).constants = []) ∧
      (∀ text, (Expr.verbatim text).constants = []) ∧
      (∀ type, (Expr.sizeOf type).constants = []) ∧
      Expr.null.constants = ["NULL"] ∧
      (∀ body, (Expr.plain body).constants = []) ∧
      ∀ count type, (Expr.bytesOf count type).constants = [] := by
  simp [Expr.constants, Expr.null, Expr.plain, Expr.bytesOf]

@[simp]
theorem Expr.constants_node :
    (∀ type e, (Expr.cast type e).constants = e.constants) ∧
      (∀ e, (Expr.not e).constants = e.constants) ∧
      (∀ e, (Expr.paren e).constants = e.constants) ∧
      (∀ e name, (Expr.field e name).constants = e.constants) ∧
      (∀ v, (Expr.address (.var v)).constants = []) ∧
      (∀ array place, (Expr.address (.index array place)).constants =
        (Expr.index array place).constants) ∧
      (∀ v place, (Expr.index (.var v) place).constants = place.constants) ∧
      (∀ vector place, (Expr.lane vector place).constants =
        vector.constants ++ place.constants) ∧
      (∀ op left right, (Expr.binary op left right).constants =
        left.constants ++ right.constants) ∧
      ∀ expected actual tolerance, (Expr.outside expected actual tolerance).constants =
        expected.constants ++ actual.constants ++ tolerance.constants := by
  simp [Expr.constants]

/-- The expressions that an initialization evaluates. -/
def Initial.operands : Initial → List Expr
  | .none => []
  | .value e => [e]
  | .result call => call.args
  | .nulls count => List.replicate count .null

/-- The expressions that a condition evaluates. -/
def Condition.operands : Condition → List Expr
  | .holds e => [e]
  | .givesOne call => call.args

/-- The expressions that a statement evaluates by itself, the targets of assignments included. -/
def Stmt.operands : Stmt → List Expr
  | .declare _ items => items.flatMap (·.initial.operands)
  | .assign target value | .increase target value => [target, value]
  | .increment v | .count v _ _ => [.var v]
  | .store target call => target :: call.args
  | .perform call => call.args
  | .ensure condition failure => condition.operands ++ failure.call.args
  | .guarded condition call => condition :: call.args
  | .when condition _ | .choose condition _ _ | .repeatWhile condition _ => [condition]
  | .leave value => [value]
  | _ => []

/-- The variables that the macros for failures use on their own. -/
def Failure.reads : Failure → List Var
  | .function _ _ => [.exitCode, .callStatus]
  | .posix _ | .lookup _ _ _ => [.exitCode]

/-- The variables that a statement uses where its macros are expanded. -/
def Stmt.reads : Stmt → List Var
  | .ensure _ failure => failure.reads
  | _ => []

/-- The calls that an initialization makes. -/
def Initial.made : Initial → List Call
  | .result call => [call]
  | _ => []

/-- The calls that a condition makes. -/
def Condition.made : Condition → List Call
  | .holds _ => []
  | .givesOne call => [call]

/-- The calls that a statement makes by itself. -/
def Stmt.made : Stmt → List Call
  | .declare _ items => items.flatMap (·.initial.made)
  | .store _ call | .perform call | .guarded _ call => [call]
  | .ensure condition failure => condition.made ++ [failure.call]
  | _ => []

/-- The variables that a statement uses by itself. -/
def Stmt.uses (s : Stmt) : List Var :=
  (s.operands.flatMap Expr.stands).map (·.1) ++ s.reads

/-- The named constants in a statement. -/
def Stmt.constants (s : Stmt) : List String :=
  s.operands.flatMap Expr.constants

end KernelHost.Code
