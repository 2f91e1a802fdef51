import KernelHost.Host.Program
import KernelHost.Proofs.Execution.Steps
import Mathlib.Logic.Function.Basic

/-!
# Stores of the host and the device

The host program as a machine that moves data: what the variables of the manifest hold on the host,
which buffers there are and what they hold, and what each kernel is to be called on.  Contents are
opaque and are moved as a whole; a transfer that is not one between a whole variable and a whole
buffer leaves something unknown behind.  Every call may fail, and a failed one moves nothing.
-/

namespace KernelHost.Host

open Code (Call Callee Condition Declarator Expr Initial Machine Stmt Var reportsStatus)

variable {α : Type}

/-! ## States -/

/-- How a variable is kept: the type of its elements, and their number if it is an array. -/
structure Extent where
  /-- The type of its elements. -/
  type : String
  /-- Their number, if it is an array. -/
  count : Option Nat
  deriving DecidableEq

namespace Extent

/-- The size of a whole variable. -/
def size (e : Extent) : Expr :=
  .bytesOf (e.count.getD 1) e.type

/-- The address of a variable with a name. -/
def address (e : Extent) (name : String) : Expr :=
  if e.count.isSome then .var (.host name) else .address (.var (.host name))

end Extent

/-- A buffer on the device. -/
structure Region (α : Type) where
  /-- The size that it was created with. -/
  size : Expr
  /-- What it holds. -/
  contents : α

/-- What a kernel is to be called on. -/
inductive Passed (α : Type)
  /-- A value of the host, as it was when it was passed. -/
  | value (x : α)
  | buffer (n : Nat)
  | scratch

/-- What lies between the variables of the host and the kernels. -/
structure Wiring (α : Type) where
  /-- How the variables are kept, as far as they are declared. -/
  extent : String → Option Extent
  /-- The buffers that handles stand for, by the names of the variables they are for. -/
  handle : String → Option Nat
  /-- The buffers. -/
  region : Nat → Option (Region α)
  /-- What kernels are to be called on, by their identifiers and the indices of arguments. -/
  passed : String → Nat → Option (Passed α)

/-- The data on the host and on the device. -/
structure Data (α : Type) where
  /-- What the variables hold. -/
  host : String → α
  /-- The rest. -/
  wiring : Wiring α

/-- A state of the program, as far as data depend on it. -/
structure Stores (α : Type) where
  data : Data α
  /-- Whether the last call of the runtime was successful. -/
  succeeded : Bool

namespace Wiring

variable (w : Wiring α)

/-- A variable is kept in another way. -/
def extend (name : String) (e : Option Extent) : Wiring α :=
  { w with extent := Function.update w.extent name e }

/-- A handle stands for another buffer. -/
def hold (name : String) (n : Option Nat) : Wiring α :=
  { w with handle := Function.update w.handle name n }

/-- A buffer is another one. -/
def put (n : Nat) (r : Option (Region α)) : Wiring α :=
  { w with region := Function.update w.region n r }

/-- All buffers are other ones. -/
def restock (region : Nat → Option (Region α)) : Wiring α :=
  { w with region }

/-- Something else is passed to a kernel. -/
def pass (ident : String) (index : Nat) (x : Option (Passed α)) : Wiring α :=
  { w with passed := Function.update w.passed ident (Function.update (w.passed ident) index x) }

/-- Nothing is passed to a kernel. -/
def unpass (ident : String) : Wiring α :=
  { w with passed := Function.update w.passed ident fun _ => none }

/-- What the buffer for a variable holds. -/
def held (name : String) : Option α :=
  ((w.handle name).bind w.region).map (·.contents)

/-- What a kernel finds at an argument. -/
def delivered (ident : String) (index : Nat) : Option α :=
  match w.passed ident index with
  | some (.value x) => some x
  | some (.buffer n) => (w.region n).map (·.contents)
  | _ => none

end Wiring

/-! ## Effects -/

/-- Whether flags contain a flag. -/
def hasFlag (flag : String) : Expr → Bool
  | .constant name => name = flag
  | .binary .flags left right => hasFlag flag left || hasFlag flag right
  | _ => false

/-- Whether a call is handed a variable of the manifest or its address. -/
def hands (call : Call) (name : String) : Prop :=
  .var (.host name) ∈ call.args ∨ .address (.var (.host name)) ∈ call.args

/-- The variable that an assignment changes, or changes a part of. -/
def base? : Expr → Option Var
  | .var v => some v
  | .index whole _ | .lane whole _ | .field whole _ => base? whole
  | _ => none

/-- How a declaration keeps its variable. -/
def extent? (type : String) (d : Declarator) : Option Extent :=
  match d.pointer, d.size, d.initial with
  | false, size, _ => some ⟨type, size⟩
  | true, none, .result ⟨.malloc, [.binary .mul (.number count) (.sizeOf element)]⟩ =>
    if element = type then some ⟨type, some count⟩ else none
  | _, _, _ => none

namespace Data

/-- The variable that a size and an address denote as a whole. -/
def whole? (a : Data α) (size address : Expr) : Option String :=
  match address with
  | .var (.host name) | .address (.var (.host name)) =>
    if (a.wiring.extent name).any fun e => e.size = size ∧ e.address name = address then some name
    else none
  | _ => none

/-- What is passed to a kernel by a size and an address, if that is known. -/
def captured (a : Data α) (size address : Expr) : Option (Passed α) :=
  match address with
  | .address (.var (.buffer name)) =>
    if size = .sizeOf "cl_mem" then (a.wiring.handle name).map .buffer else none
  | .address (.var (.host name)) =>
    if (a.wiring.extent name).any fun e => e.count = none ∧ size = .sizeOf e.type then
      some (.value (a.host name))
    else none
  | .constant "NULL" => some .scratch
  | _ => none

/-- The buffer and the variable that a transfer is between, if it is one of the whole of both that
is over when the call returns. -/
def moved? (a : Data α) (args : List Expr) : Option (Nat × Region α × String) :=
  match args with
  | [_, .var (.buffer target), blocking, offset, size, address, waits, list, event] =>
    if [blocking, offset, waits, list, event] =
        [.constant "CL_TRUE", .number 0, .number 0, .null, .null] then do
      let n ← a.wiring.handle target
      let r ← a.wiring.region n
      let name ← a.whole? size address
      if r.size = size then some (n, r, name) else none
    else none
  | _ => none

/-- Only the wiring changes, in an unknown way. -/
def Rewires (a b : Data α) : Prop :=
  ∃ w, b = { a with wiring := w }

/-- A variable gets a value that is not known. -/
def Redefines (v : Var) (a b : Data α) : Prop :=
  match v with
  | .host name => ∃ x, b = { a with host := Function.update a.host name x }
  | .buffer name => b = { a with wiring := a.wiring.hold name none }
  | .kernel ident => b = { a with wiring := a.wiring.unpass ident }
  | _ => b = a

/-- A call may change the variables that it is handed. -/
def Hands (call : Call) (a b : Data α) : Prop :=
  ∃ host, b = { a with host } ∧ ∀ name, ¬ hands call name → host name = a.host name

/-- An argument is passed to a kernel. -/
def Binds (args : List Expr) (a b : Data α) : Prop :=
  match args with
  | [.var (.kernel ident), .number index, size, address] =>
    b = { a with wiring := a.wiring.pass ident index (a.captured size address) }
  | _ => a.Rewires b

/-- A buffer gets the contents of a variable. -/
def Uploads (args : List Expr) (a b : Data α) : Prop :=
  match a.moved? args with
  | some (n, r, name) =>
    b = { a with wiring := a.wiring.put n (some { r with contents := a.host name }) }
  | none => a.Rewires b

/-- A variable gets the contents of a buffer. -/
def Downloads (args : List Expr) (a b : Data α) : Prop :=
  match a.moved? args with
  | some (_, r, name) => b = { a with host := Function.update a.host name r.contents }
  | none => ∃ host, b = { a with host }

/-- A kernel may change what is in the buffers that are passed to it. -/
def Launches (args : List Expr) (a b : Data α) : Prop :=
  match args with
  | _ :: .var (.kernel ident) :: _ =>
    ∃ region, b = { a with wiring := a.wiring.restock region } ∧
      ∀ n, region n = a.wiring.region n ∨
        (∃ index, a.wiring.passed ident index = some (.buffer n)) ∧
          ∃ r x, a.wiring.region n = some r ∧ region n = some { r with contents := x }
  | _ => a.Rewires b

/-- A buffer is gone. -/
def Frees (args : List Expr) (a b : Data α) : Prop :=
  match args with
  | [.var (.buffer name)] =>
    b = { a with wiring := (a.wiring.handle name).elim a.wiring (a.wiring.put · none) }
  | _ => a.Rewires b

/-- A buffer comes up, with contents of a variable if its flags say so. -/
def Creates (name : String) (args : List Expr) (a b : Data α) : Prop :=
  match args with
  | [_, flags, size, address, _] =>
    ∃ n x, a.wiring.region n = none ∧
      (hasFlag "CL_MEM_COPY_HOST_PTR" flags →
        ∀ source ∈ a.whole? size address, x = a.host source) ∧
      b = { a with wiring := (a.wiring.put n (some ⟨size, x⟩)).hold name (some n) }
  | _ => a.Rewires b

/-- A call is made, and it is successful. -/
def Makes (call : Call) (a b : Data α) : Prop :=
  match call.callee with
  | .clSetKernelArg => a.Binds call.args b
  | .clEnqueueWriteBuffer => a.Uploads call.args b
  | .clEnqueueReadBuffer => a.Downloads call.args b
  | .clEnqueueNDRangeKernel => a.Launches call.args b
  | .clReleaseMemObject => a.Frees call.args b
  | _ => a.Hands call b

/-- A successful call is made, and its result is stored in a variable. -/
def Yields (target : Var) (call : Call) (a b : Data α) : Prop :=
  match call.callee, target with
  | .clCreateBuffer, .buffer name => a.Creates name call.args b
  | _, _ => ∃ c, a.Makes call c ∧ c.Redefines target b

/-- The first value of a variable is made. -/
def Initializes (d : Declarator) (a b : Data α) : Prop :=
  match d.initial with
  | .result call => a.Makes call b
  | _ => b = a

/-- A variable gets its place. -/
def Introduces (type : String) (d : Declarator) (a b : Data α) : Prop :=
  match d.var with
  | .host name => ∃ x, b =
    { host := Function.update a.host name x, wiring := a.wiring.extend name (extent? type d) }
  | v => a.Redefines v b

/-- A variable is declared. -/
def Declares (type : String) (d : Declarator) (a b : Data α) : Prop :=
  ∃ c, a.Initializes d c ∧ c.Introduces type d b

/-- Variables are declared one after the other. -/
def DeclaresAll (type : String) : List Declarator → Data α → Data α → Prop
  | [], a, b => b = a
  | d :: ds, a, b => ∃ c, a.Declares type d c ∧ DeclaresAll type ds c b

/-- An expression is assigned something. -/
def Assigns (target : Expr) (a b : Data α) : Prop :=
  match base? target with
  | some v => a.Redefines v b
  | none => True

/-- The effect on data of a statement without control that stores no result. -/
def Effect : Stmt → Data α → Data α → Prop
  | .declare type items, a, b => a.DeclaresAll type items b
  | .declareList type var size _, a, b => a.Declares type { var, size } b
  | .assign target _, a, b | .increase target _, a, b => a.Assigns target b
  | .increment v, a, b => a.Redefines v b
  | .perform call, a, b => a.Makes call b
  | _, _, _ => True

end Data

/-- The effect of a statement without control. -/
def Stores.Effect : Stmt → Stores α → Stores α → Prop
  | .store (.var target) call, a, b =>
    ∃ done : Bool,
      (if done then a.data.Yields target call b.data else a.data.Redefines target b.data) ∧
      (reportsStatus target call → b.succeeded = done)
  | s, a, b => a.data.Effect s b.data

/-- The program as a machine that moves data. -/
def storeMachine (α : Type) : Machine (Stores α) where
  effect := Stores.Effect
  test c a given b :=
    match c with
    | .holds e => b = a ∧ (e = Code.succeeded → given = a.succeeded)
    | .givesOne call => a.data.Makes call b.data

/-! ## The goal -/

/-- What a kernel finds at its arguments is what the variables for them hold on the host. -/
def Data.Fresh (a : Data α) (k : PlannedKernel) : Prop :=
  ∀ v ∈ k.placed, v.decl.onHost →
    a.wiring.delivered k.kernel.ident v.decl.argument = some (a.host v.decl.name)

/-- What the outputs hold on the host is what their buffers hold. -/
def Data.Fetched (a : Data α) (p : Plan) : Prop :=
  ∀ v ∈ p.hostPlaced, v.decl.role = .output →
    a.wiring.held v.decl.name = some (a.host v.decl.name)

/-- The kernel that a statement launches, by its identifier. -/
def launched? : Stmt → Option String
  | .store _ ⟨.clEnqueueNDRangeKernel, _ :: .var (.kernel ident) :: _⟩ => some ident
  | _ => none

end KernelHost.Host
