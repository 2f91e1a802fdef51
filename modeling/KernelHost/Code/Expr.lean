import KernelHost.Code.Callee
import KernelHost.Code.Quoted
import KernelHost.Code.Var

/-!
# Expressions of the host program

The part of C's expressions that the host program uses.  What the manifest gives as text, such as
initializers and types, is carried along as it stands.
-/

namespace KernelHost.Code

/-- A part of the format of a message. -/
inductive Piece
  /-- Text as it stands in the literal. -/
  | text (body : String)
  /-- A conversion, without its percent sign. -/
  | conversion (name : String)
  deriving DecidableEq, Repr

/-- A part of a format in C. -/
def Piece.render : Piece → String
  | .text body => body
  | .conversion name => "%" ++ name

/-- The body of a literal made of parts. -/
def formatText (pieces : List Piece) : String :=
  String.join (pieces.map Piece.render)

/-- An operator between two operands. -/
inductive Operator
  | add
  | sub
  | mul
  | div
  | less
  | greater
  | atLeast
  | equal
  | unequal
  | both
  | either
  /-- Union of flags. -/
  | flags
  deriving DecidableEq, Repr

/-- The sign of an operator in C. -/
def Operator.sign : Operator → String
  | .add => "+"
  | .sub => "-"
  | .mul => "*"
  | .div => "/"
  | .less => "<"
  | .greater => ">"
  | .atLeast => ">="
  | .equal => "=="
  | .unequal => "!="
  | .both => "&&"
  | .either => "||"
  | .flags => "|"

/-- An expression without calls. -/
inductive Expr
  | var (v : Var)
  | constant (name : String)
  | number (n : Nat)
  /-- An unsigned number. -/
  | unsigned (n : Nat)
  /-- A literal whose body is written as it stands. -/
  | literal (pieces : List Piece)
  /-- A literal that denotes the given text. -/
  | quoted (text : String)
  /-- Text from outside, as it stands. -/
  | verbatim (text : String)
  | sizeOf (type : String)
  /-- A conversion to a type. -/
  | cast (type : String) (e : Expr)
  | address (e : Expr)
  | not (e : Expr)
  | paren (e : Expr)
  /-- An element of an array. -/
  | index (array place : Expr)
  | lane (vector place : Expr)
  /-- A field of a structure. -/
  | field (whole : Expr) (name : String)
  /-- Two operands under an operator. -/
  | binary (op : Operator) (left right : Expr)
  /-- Whether two values are farther apart than the third. -/
  | outside (expected actual tolerance : Expr)
  deriving DecidableEq, Repr

namespace Expr

/-- An expression in C. -/
def text : Expr → String
  | .var v => v.text
  | .constant name => name
  | .number n => toString n
  | .unsigned n => toString n ++ "u"
  | .literal pieces => "\"" ++ formatText pieces ++ "\""
  | .quoted body => Code.quoted body
  | .verbatim body => body
  | .sizeOf type => "sizeof(" ++ type ++ ")"
  | .cast type e => "(" ++ type ++ ") " ++ e.text
  | .address e => "&" ++ e.text
  | .not e => "!" ++ e.text
  | .paren e => "(" ++ e.text ++ ")"
  | .index array place => array.text ++ "[" ++ place.text ++ "]"
  | .lane vector place => vector.text ++ ".s[" ++ place.text ++ "]"
  | .field whole name => whole.text ++ "." ++ name
  | .binary op left right => left.text ++ " " ++ op.sign ++ " " ++ right.text
  | .outside expected actual tolerance =>
    Callee.testEpsilon.text ++ "(" ++ expected.text ++ ", " ++ actual.text ++ ", " ++
      tolerance.text ++ ")"

/-- A literal with a plain body. -/
def plain (body : String) : Expr :=
  .literal [.text body]

/-- The null pointer. -/
def null : Expr := .constant "NULL"

/-- The product of a count and the size of a type. -/
def bytesOf (count : Nat) (type : String) : Expr :=
  .binary .mul (.number count) (.sizeOf type)

end Expr

/-- A call. -/
structure Call where
  /-- What is called. -/
  callee : Callee
  /-- What it is called on. -/
  args : List Expr := []
  deriving DecidableEq, Repr

/-- A call in C. -/
def Call.text (call : Call) : String :=
  call.callee.text ++ "(" ++ ", ".intercalate (call.args.map Expr.text) ++ ")"

end KernelHost.Code
