import KernelHost.Code.Expr
import KernelHost.Plan.Storage

/-!
# Device buffers

Arrays that kernels read, and everything that they write, are kept in buffers of the device.  A
single value that kernels read is passed by itself.
-/

namespace KernelHost

open Code (Expr Var)

/-- How a buffer is created. -/
inductive BufferAccess
  | read
  | readWrite
  /-- Kernels read and write it, and it begins as a copy of the host's value. -/
  | readWriteCopy
  deriving DecidableEq, Repr

namespace BufferAccess

/-- The flags of the runtime. -/
def flags : BufferAccess → Expr
  | .read => .constant "CL_MEM_READ_ONLY"
  | .readWrite => .constant "CL_MEM_READ_WRITE"
  | .readWriteCopy =>
    .binary .flags (.constant "CL_MEM_READ_WRITE") (.constant "CL_MEM_COPY_HOST_PTR")

/-- Whether the buffer begins as a copy of the host's value. -/
def copiesHost : BufferAccess → Bool
  | .readWriteCopy => true
  | _ => false

end BufferAccess

/-- How often a transfer takes place. -/
inductive Transfer
  | never
  | once
  | everyPass
  deriving DecidableEq, Repr

/-- A buffer of the device. -/
structure Buffer where
  /-- The place of its variable. -/
  slot : Slot
  /-- The name of its variable. -/
  host : String
  /-- The type of its elements. -/
  type : String
  /-- Its shape. -/
  storage : Storage
  /-- How it is created. -/
  access : BufferAccess
  /-- How often the host's value is sent to the device. -/
  upload : Transfer
  /-- How often the device's value is fetched. -/
  download : Transfer
  /-- The identifier of the kernel whose queue carries the transfers. -/
  queue : String
  deriving DecidableEq, Repr

namespace Buffer

/-- The variable that holds the buffer. -/
def handle (b : Buffer) : Var :=
  .buffer b.host

/-- The size of the buffer in C. -/
def size (b : Buffer) : Expr :=
  .bytesOf b.storage.count b.type

/-- The bytes of the buffer, if its type is known and they fit 64 bits. -/
def bytes? (b : Buffer) : Option Nat :=
  ((CType.bytes? b.type).map (· * b.storage.count)).filter (· < twoTo 64)

/-- The address of the host's value. -/
def hostAddress (b : Buffer) : Expr :=
  if b.storage.isArray then .var (.host b.host) else .address (.var (.host b.host))

/-- How a buffer of a role is created and when it is transferred; scratch memory has none. -/
def traffic? : Role → Template → Option (BufferAccess × Transfer × Transfer)
  | .scratch, _ => none
  | .input, .single => some (.read, .once, .never)
  | .input, .loop => some (.read, .everyPass, .never)
  | .output, .single => some (.readWriteCopy, .never, .once)
  | .output, .loop => some (.readWrite, .everyPass, .everyPass)

end Buffer

/-- The buffer of a variable, if it needs one. -/
def Placed.buffer? (template : Template) (p : Placed) : Option Buffer := do
  let (access, upload, download) ← Buffer.traffic? p.decl.role template
  if p.decl.role = .input ∧ ¬ p.layout.storage.isArray then none
  return {
    slot := p.slot
    host := p.decl.name
    type := p.decl.type
    storage := p.layout.storage
    access, upload, download
    queue := p.kernel.ident }

end KernelHost
