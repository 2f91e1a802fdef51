import KernelHost.Proofs.Execution.Runs

/-!
# Compared storage

The machine that the comparison of outputs runs on.  Storage is a grid of cells for each variable,
with any contents and any way of comparing them.  The variables that the program steers itself by
have values apart from it, and indices are numbers without bound.  What the program compares and
what it lets the user see is recorded.  Only a whole cell can be read: in front of an array without
a subscript, or with one that is out of bounds, the program is stuck.
-/

namespace KernelHost.Validation

open Code (Callee Condition Expr Machine Stmt Var formatText)

/-- An element of a variable, or one lane of it; a single value is the element 0. -/
structure Cell where
  var : Var
  element : Nat
  /-- The lane, if elements are vectors. -/
  lane : Option Nat
  deriving DecidableEq, Repr

/-- How the storage of a variable is divided into cells. -/
structure Grid where
  /-- The number of elements, for an array. -/
  elements : Option Nat
  /-- The number of lanes, for vectors. -/
  lanes : Option Nat
  deriving DecidableEq, Repr

/-- What cells hold, and how that is compared. -/
structure Memory (α : Type) where
  contents : Cell → α
  /-- Whether two values differ. -/
  unequal : α → α → Bool
  /-- Whether two values are farther apart than the third. -/
  outside : α → α → α → Bool

/-- The value of a variable that the program steers itself by. -/
inductive Value
  | number (n : Nat)
  | constant (name : String)
  deriving DecidableEq, Repr

/-- What is printed by a conversion: an index, or the contents of a cell. -/
inductive Argument
  | index (n : Nat)
  | cell (c : Cell)
  deriving DecidableEq, Repr

/-- Something that the program does; a comparison of two cells may be with that of a tolerance. -/
inductive Event
  | compared (expected actual : Cell) (tolerance : Option Cell)
  | printed (format : String) (args : List Argument)
  | called (callee : Callee)
  deriving DecidableEq, Repr

structure State where
  values : Var → Option Value
  trace : List Event

namespace State

def set (a : State) (v : Var) (x : Value) : State :=
  { a with values := Function.update a.values v (some x) }

def record (a : State) (e : Event) : State :=
  { a with trace := a.trace ++ [e] }

@[simp]
theorem trace_set (a : State) (v : Var) (x : Value) : (a.set v x).trace = a.trace := rfl

@[simp]
theorem values_record (a : State) (e : Event) : (a.record e).values = a.values := rfl

@[simp]
theorem trace_record (a : State) (e : Event) : (a.record e).trace = a.trace ++ [e] := rfl

@[simp]
theorem values_set_self (a : State) (v : Var) (x : Value) : (a.set v x).values v = some x := by
  simp [set]

theorem values_set_of_ne (a : State) {v w : Var} (ne : w ≠ v) (x : Value) :
    (a.set v x).values w = a.values w := by
  simp [set, ne]

variable (grid : Var → Option Grid) (a : State)

/-- The number that a variable has. -/
def number? : Expr → Option Nat
  | .var v =>
    match a.values v with
    | some (.number n) => some n
    | _ => none
  | _ => none

/-- The element of a variable that an expression denotes. -/
def element? : Expr → Option (Var × Nat)
  | .var v => if (grid v).any (·.elements.isNone) then some (v, 0) else none
  | .index (.var v) place => do
    let bound ← (← grid v).elements
    let k ← a.number? place
    if k < bound then some (v, k) else none
  | _ => none

/-- The cell that an expression denotes. -/
def cell? : Expr → Option Cell
  | .lane vector place => do
    let (v, k) ← a.element? grid vector
    let bound ← (← grid v).lanes
    let l ← a.number? place
    if l < bound then some ⟨v, k, some l⟩ else none
  | e => do
    let (v, k) ← a.element? grid e
    if (← grid v).lanes.isNone then some ⟨v, k, none⟩ else none

section Cells

variable {grid a} {v : Var} {g : Grid} {k : Nat}

theorem cell?_of_element? {e : Expr} (element : a.element? grid e = some (v, k))
    (laid : grid v = some g) (whole : g.lanes = none) :
    a.cell? grid e = some ⟨v, k, none⟩ := by
  cases e with
  | lane => simp [element?] at element
  | _ => simp [cell?, element, laid, whole]

theorem cell?_lane {vector place : Expr} {n l : Nat}
    (element : a.element? grid vector = some (v, k)) (laid : grid v = some g)
    (lanes : g.lanes = some n) (index : a.number? place = some l) (below : l < n) :
    a.cell? grid (.lane vector place) = some ⟨v, k, some l⟩ := by
  simp [cell?, element, laid, lanes, index, below]

end Cells

/-- What an expression gives to print. -/
def argument? (e : Expr) : Option Argument :=
  match a.cell? grid e with
  | some c => some (.cell c)
  | none => (a.number? e).map .index

/-- The state behind a statement without control, if it can be made. -/
def effect? : Stmt → Option State
  | .assign (.var v) (.number n) => some (a.set v (.number n))
  | .assign (.var v) (.constant name) => some (a.set v (.constant name))
  | .perform ⟨.printf, .literal format :: args⟩ =>
    (args.mapM (a.argument? grid)).map fun args => a.record (.printed (formatText format) args)
  | .perform ⟨.printStep, [_]⟩ => some (a.record (.called .printStep))
  | .perform ⟨.printFail, []⟩ => some (a.record (.called .printFail))
  | .perform ⟨.printSuccess, []⟩ => some (a.record (.called .printSuccess))
  | _ => none

def flag? (v : Var) : Option Bool :=
  match a.values v with
  | some (.constant "true") => some true
  | some (.constant "false") => some false
  | _ => none

variable {α : Type} (M : Memory α)

/-- What a condition gives, if it can be evaluated, and the state behind. -/
def test? : Condition → Option (Bool × State)
  | .holds (.not (.var v)) => (a.flag? v).map fun given => (!given, a)
  | .holds (.binary .unequal expected actual) => do
    let x ← a.cell? grid expected
    let y ← a.cell? grid actual
    some (M.unequal (M.contents x) (M.contents y), a.record (.compared x y none))
  | .holds (.outside expected actual tolerance) => do
    let x ← a.cell? grid expected
    let y ← a.cell? grid actual
    let t ← a.cell? grid tolerance
    some (M.outside (M.contents x) (M.contents y) (M.contents t), a.record (.compared x y (some t)))
  | _ => none

end State

def machine {α : Type} (grid : Var → Option Grid) (M : Memory α) : Machine State where
  effect s a b := a.effect? grid s = some b
  test c a given b := a.test? grid M c = some (given, b)

theorem determined_machine {α : Type} (grid : Var → Option Grid) (M : Memory α) :
    (machine grid M).Determined where
  effect done done' := Option.some.inj (done.symm.trans done')
  test given given' := Prod.mk.inj (Option.some.inj (given.symm.trans given'))

end KernelHost.Validation
