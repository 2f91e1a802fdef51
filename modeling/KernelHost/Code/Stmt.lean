import KernelHost.Code.Expr

/-!
# Statements of the host program

The statements of C that the host program consists of, and the lines that they are written on.  A
statement with a body nests; `Stmt.lines` writes its lines at a depth of tabulators.
-/

namespace KernelHost.Code

/-- A line of the program. -/
structure Line where
  /-- The tabulators in front. -/
  depth : Nat
  /-- What stands behind them. -/
  text : String
  deriving DecidableEq, Repr

/-- A line as it is written; an empty one has no tabulators. -/
def Line.render (line : Line) : String :=
  if line.text == "" then "" else .ofList (List.replicate line.depth '\t') ++ line.text

/-- What a variable is initialized with where it is declared. -/
inductive Initial
  /-- Nothing. -/
  | none
  /-- An expression. -/
  | value (e : Expr)
  | result (call : Call)
  /-- As many null pointers. -/
  | nulls (count : Nat)
  deriving DecidableEq, Repr

/-- A variable in a declaration. -/
structure Declarator where
  /-- The variable. -/
  var : Var
  /-- Whether it is a pointer to the type. -/
  pointer : Bool := false
  /-- Its length, if it is an array. -/
  size : Option Nat := Option.none
  /-- What it is initialized with. -/
  initial : Initial := .none
  deriving DecidableEq, Repr

/-- The length of an array in C. -/
def sizeText : Option Nat → String
  | some n => "[" ++ toString n ++ "]"
  | none => ""

/-- An initialization in C. -/
def Initial.text : Initial → String
  | .none => ""
  | .value e => " = " ++ e.text
  | .result call => " = " ++ call.text
  | .nulls count =>
    " = \x7b" ++ ", ".intercalate (List.replicate count Expr.null.text) ++ "\x7d"

/-- A variable of a declaration in C. -/
def Declarator.text (d : Declarator) : String :=
  (if d.pointer then "*" else "") ++ d.var.text ++ sizeText d.size ++ d.initial.text

/-- What is reported when a call fails. -/
inductive Failure
  /-- A call of the runtime, and the object that it was about. -/
  | function (callee : Callee) (object : Option String)
  /-- A call of the C library about the named object. -/
  | posix (object : Expr)
  /-- An index out of range of the kind of object, and how many there are. -/
  | lookup (kind : String) (index : Nat) (count : Var)
  deriving DecidableEq, Repr

/-- The call of the macro that reports a failure. -/
def Failure.call : Failure → Call
  | .function callee none => ⟨.functionError, [.plain callee.text]⟩
  | .function callee (some object) =>
    ⟨.functionError, [.plain (callee.text ++ " (" ++ object ++ ")")]⟩
  | .posix object => ⟨.posixError, [object]⟩
  | .lookup kind index count => ⟨.lookupError, [.plain kind, .unsigned index, .var count]⟩

/-- What has to hold for the program to go on. -/
inductive Condition
  /-- An expression is not zero. -/
  | holds (e : Expr)
  | givesOne (call : Call)
  deriving DecidableEq, Repr

/-- A condition in C. -/
def Condition.text : Condition → String
  | .holds e => e.text
  | .givesOne call => "1 == " ++ call.text

/-- A statement. -/
inductive Stmt
  | blank
  | comment (text : String)
  /-- A declaration of variables of one type. -/
  | declare (type : String) (items : List Declarator)
  /-- A declaration with text from outside between braces. -/
  | declareList (type : String) (var : Var) (size : Option Nat) (content : String)
  | assign (target value : Expr)
  /-- An addition to a variable. -/
  | increase (target value : Expr)
  | increment (var : Var)
  /-- An assignment of the result of a call. -/
  | store (target : Expr) (call : Call)
  | perform (call : Call)
  /-- A jump to the clean-up with a report, unless a condition holds. -/
  | ensure (condition : Condition) (failure : Failure)
  /-- A call on condition. -/
  | guarded (condition : Expr) (call : Call)
  /-- Statements on condition. -/
  | when (condition : Expr) (body : List Stmt)
  /-- Statements on condition, and others otherwise. -/
  | choose (condition : Expr) (body otherwise : List Stmt)
  /-- Statements for each value of an index below a bound. -/
  | count (index : Var) (bound : Nat) (body : List Stmt)
  /-- Statements once and again while a condition holds. -/
  | repeatWhile (condition : Expr) (body : List Stmt)
  | cleanupLabel
  /-- The end of the program. -/
  | leave (value : Expr)

mutual

/-- The lines of a statement at a depth. -/
def Stmt.lines (depth : Nat) : Stmt → List Line
  | .blank => [⟨depth, ""⟩]
  | .comment text => [⟨depth, "/* " ++ text ++ " */"⟩]
  | .declare type items =>
    [⟨depth, type ++ " " ++ ", ".intercalate (items.map Declarator.text) ++ ";"⟩]
  | .declareList type var size content =>
    [⟨depth, type ++ " " ++ var.text ++ sizeText size ++ " = \x7b"⟩, ⟨depth + 1, content⟩,
      ⟨depth, "\x7d;"⟩]
  | .assign target value => [⟨depth, target.text ++ " = " ++ value.text ++ ";"⟩]
  | .increase target value => [⟨depth, target.text ++ " += " ++ value.text ++ ";"⟩]
  | .increment var => [⟨depth, var.text ++ "++;"⟩]
  | .store target call => [⟨depth, target.text ++ " = " ++ call.text ++ ";"⟩]
  | .perform call => [⟨depth, call.text ++ ";"⟩]
  | .ensure condition failure =>
    [⟨depth, Callee.assertCall.text ++ "(" ++ condition.text ++ ", " ++ failure.call.text ++
      ");"⟩]
  | .guarded condition call =>
    [⟨depth, "if(" ++ condition.text ++ ")"⟩, ⟨depth + 1, call.text ++ ";"⟩]
  | .when condition body =>
    ⟨depth, "if(" ++ condition.text ++ ") \x7b"⟩ :: Stmt.block (depth + 1) body ++
      [⟨depth, "\x7d"⟩]
  | .choose condition body otherwise =>
    ⟨depth, "if(" ++ condition.text ++ ") \x7b"⟩ :: Stmt.block (depth + 1) body ++
      ⟨depth, "\x7d else \x7b"⟩ :: Stmt.block (depth + 1) otherwise ++ [⟨depth, "\x7d"⟩]
  | .count index bound body =>
    ⟨depth, "for(" ++ index.text ++ " = 0; " ++ index.text ++ " < " ++ toString bound ++ "; " ++
      index.text ++ "++) \x7b"⟩ :: Stmt.block (depth + 1) body ++ [⟨depth, "\x7d"⟩]
  | .repeatWhile condition body =>
    ⟨depth, "do \x7b"⟩ :: Stmt.block (depth + 1) body ++
      [⟨depth, "\x7d while(" ++ condition.text ++ ");"⟩]
  | .cleanupLabel => [⟨0, "_err:"⟩]
  | .leave value => [⟨depth, "return " ++ value.text ++ ";"⟩]

/-- The lines of statements in a row at a depth. -/
def Stmt.block (depth : Nat) : List Stmt → List Line
  | [] => []
  | s :: ss => s.lines depth ++ Stmt.block depth ss

end

@[simp]
theorem Stmt.block_append (depth : Nat) (ss ts : List Stmt) :
    Stmt.block depth (ss ++ ts) = Stmt.block depth ss ++ Stmt.block depth ts := by
  induction ss with
  | nil => rfl
  | cons s ss ih => simp [Stmt.block, ih]

end KernelHost.Code
