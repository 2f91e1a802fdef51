import KernelHost.Plan.Buffer

/-!
# Arguments

What each kernel is called on, in the order of the argument indices.
-/

namespace KernelHost

open Code (Expr Var)

/-- What is passed as an argument. -/
inductive Binding
  | value (host type : String)
  /-- A buffer of the device, by the name of its variable. -/
  | handle (host : String)
  /-- Memory of a work group. -/
  | scratch (count : Nat) (type : String)
  deriving DecidableEq, Repr

namespace Binding

/-- The size of the argument in C. -/
def size : Binding → Expr
  | .value _ type => .sizeOf type
  | .handle _ => .sizeOf "cl_mem"
  | .scratch count type => .bytesOf count type

/-- The address of the argument in C. -/
def address : Binding → Expr
  | .value host _ => .address (.var (.host host))
  | .handle host => .address (.var (.buffer host))
  | .scratch _ _ => .null

/-- Whether the argument is a value of the host. -/
def isValue : Binding → Bool
  | .value _ _ => true
  | _ => false

end Binding

/-- An argument of a kernel. -/
structure Argument where
  /-- The place of its variable. -/
  slot : Slot
  index : Nat
  /-- Its name in messages. -/
  label : String
  /-- What is passed. -/
  binding : Binding
  /-- Whether it is bound anew in each pass of the loop. -/
  everyPass : Bool
  deriving DecidableEq, Repr

/-- What is passed for a variable, and its name in messages. -/
def Placed.binding (template : Template) (p : Placed) : Binding × String :=
  let v := p.decl
  match v.role, p.buffer? template with
  | .scratch, _ => (.scratch p.layout.storage.count v.type, s!"__local {v.argument}")
  | _, some buffer => (.handle buffer.host, buffer.handle.text)
  | _, none => (.value v.name v.type, v.name)

/-- The argument of a variable. -/
def Placed.toArgument (template : Template) (p : Placed) : Argument :=
  let (binding, label) := p.binding template
  { slot := p.slot
    index := p.decl.argument
    label, binding
    everyPass := template == .loop && binding.isValue }

/-- The arguments for the variables of a kernel, by ascending index. -/
def argumentsOf (template : Template) (ps : List Placed) : List Argument :=
  (ps.map (·.toArgument template)).mergeSort (·.index ≤ ·.index)

end KernelHost
