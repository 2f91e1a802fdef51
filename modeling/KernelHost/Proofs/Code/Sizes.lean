import KernelHost.Proofs.Code.Called
import KernelHost.Proofs.Code.Operands
import KernelHost.Proofs.Plan.Acceptance

/-!
# Sizes in bytes

The program multiplies numbers of elements with sizes of types, in the 64 bits of `size_t`.  The
number of elements is checked when the program is planned, but the number of bytes is not, so the
product wraps for arrays that are long enough, and the plan then has no number of bytes for them.
-/

namespace KernelHost

open Code (Callee Expr Stmt Var gather gather_append gather_cons)

/-! ## Values of sizes -/

namespace Code

/-- The value of a size in 64 bits, if it is a product of numbers and types of known sizes. -/
def Expr.size? : Expr → Option UInt64
  | .number n => some (.ofNat n)
  | .sizeOf type => (CType.bytes? type).map .ofNat
  | .binary .mul left right => do
    let l ← left.size?
    let r ← right.size?
    return l * r
  | _ => none

/-- A product is known as far as it fits. -/
theorem Expr.size?_bytesOf {type : String} {bytes : Nat} (known : CType.bytes? type = some bytes)
    (count : Nat) : (Expr.bytesOf count type).size? = some (.ofNat (count * bytes)) := by
  simp [Expr.bytesOf, Expr.size?, known]

/-- Which argument of a call tells how much is allocated or transferred. -/
def Callee.amountAt? : Callee → Option Nat
  | .malloc => some 0
  | .clCreateBuffer => some 2
  | .clEnqueueWriteBuffer | .clEnqueueReadBuffer => some 4
  | _ => none

/-- How much a call allocates or transfers, with what is called. -/
def Call.amounts (call : Call) : List (Callee × Expr) :=
  ((call.callee.amountAt?.bind fun place => call.args[place]?).map (call.callee, ·)).toList

@[simp]
theorem Callee.amountAt?_eq_none {c : Callee} (malloc : c ≠ .malloc) (create : c ≠ .clCreateBuffer)
    (write : c ≠ .clEnqueueWriteBuffer) (read : c ≠ .clEnqueueReadBuffer) :
    c.amountAt? = none := by
  cases c <;> simp_all [amountAt?]

@[simp]
theorem Call.amounts_eq_nil {call : Call} (silent : call.callee.amountAt? = none) :
    call.amounts = [] := by
  simp [amounts, silent]

@[simp]
theorem Call.amounts_malloc (amount : Expr) :
    (Call.mk .malloc [amount]).amounts = [(.malloc, amount)] := rfl

@[simp]
theorem Call.amounts_clCreateBuffer (e₁ e₂ amount : Expr) (es : List Expr) :
    (Call.mk .clCreateBuffer (e₁ :: e₂ :: amount :: es)).amounts = [(.clCreateBuffer, amount)] :=
  rfl

/-- How much the calls of a statement allocate or transfer. -/
def Stmt.amounts (s : Stmt) : List (Callee × Expr) :=
  s.made.flatMap Call.amounts

end Code

namespace Buffer

variable {b : Buffer} {bytes : Nat}

theorem size?_of_known (known : CType.bytes? b.type = some bytes) :
    b.size.size? = some (.ofNat (b.storage.count * bytes)) :=
  Expr.size?_bytesOf known _

end Buffer

/-! ## Amounts in the program -/

namespace Host

variable {p : Plan}

@[simp]
theorem amountAt?_failure (failure : Code.Failure) : failure.call.callee.amountAt? = none := by
  cases failure with
  | function callee object => cases object <;> rfl
  | posix object => rfl
  | lookup kind index count => rfl

attribute [local simp] Stmt.amounts Stmt.made Code.Initial.made Code.Condition.made

@[simp]
theorem amounts_phase (title message : String) (perPass : Bool) (ss : List Stmt) :
    gather Stmt.amounts (phase title perPass message ss) = gather Stmt.amounts ss := by
  cases perPass <;>
    simp [phase, announce, succeed, gather_cons]

@[simp]
theorem amounts_callForStatus (call : Code.Call) (object : Option String) :
    gather Stmt.amounts (callForStatus call object) =
      call.amounts := by
  simp [callForStatus, checkStatus, gather_cons]

@[simp]
theorem amounts_callForResult (target : Var) (call : Code.Call) (object : Option String) :
    gather Stmt.amounts (callForResult target call object) =
      call.amounts := by
  simp [callForResult, checkStatus, gather_cons]

@[simp]
theorem amounts_hookCall (p : Plan) (hook : Hook) : gather Stmt.amounts (hookCall p hook) = [] := by
  rw [hookCall]
  split <;> simp [gather_cons]

end Host

/-! ## Sizes of variables -/

/-- The bytes of all elements of a variable, if its type is known. -/
def Variable.bytes? (v : Variable) (copies : Nat) : Option Nat :=
  (CType.bytes? v.type).map (v.members * copies * ·)

namespace Plan

variable {m : Manifest} {p : Plan} (planned : ofManifest m = .ok p)

include planned

/-- A variable of the host stands in the manifest, and its elements can be counted. -/
theorem exists_of_mem_hostPlaced {w : Placed} (mem : w ∈ p.hostPlaced) :
    ∃ x ∈ m.hostVariables, x.2 = w.decl ∧ w.layout.Fits w.decl m.settings.copies ∧
      w.decl.members * m.settings.copies < twoTo 64 := by
  have arranged := arranges_of_ofManifest planned
  obtain ⟨k, k_mem, w_mem, onHost⟩ := mem_hostPlaced.mp mem
  have fits := arranged.settings ▸ (arranged.stands k k_mem w w_mem).layout
  have declared : w.decl ∈ m.hostVariables.map (·.2) := by
    rw [← arranged.hostPlaced_decls]
    exact List.mem_map_of_mem mem
  obtain ⟨x, x_mem, same⟩ := List.mem_map.mp declared
  have keepable : w.decl.Keepable m.settings.copies := by
    refine (plannable_of_ofManifest planned).keepable k.kernel ?_ w.decl ?_
    · rw [← arranged.kernels]
      exact List.mem_map_of_mem k_mem
    · rw [← arranged.decls k k_mem]
      exact List.mem_map_of_mem w_mem
  refine ⟨x, x_mem, same, fits, keepable.count ?_⟩
  cases role : w.decl.role <;> simp_all [Variable.onHost]

theorem exists_of_mem_buffers (wellFormed : p.WellFormed) {b : Buffer} (mem : b ∈ p.buffers) :
    ∃ x ∈ m.hostVariables, b.host = x.2.name ∧ b.type = x.2.type ∧
      b.storage.count = x.2.members * m.settings.copies ∧
      x.2.members * m.settings.copies < twoTo 64 := by
  rw [wellFormed.buffers_eq] at mem
  obtain ⟨w, w_mem, made⟩ := List.mem_filterMap.mp mem
  obtain ⟨x, x_mem, same, fits, countable⟩ := exists_of_mem_hostPlaced planned w_mem
  have buffered := Placed.bufferedBy_of_buffer? fits made
  rw [same.symm] at buffered countable
  exact ⟨x, x_mem, buffered.host, buffered.type, buffered.count, countable⟩

end Plan

/-- A manifest with an output of so many elements of a type. -/
def arrayManifest (type members : String) : String :=
  "<k program='p'><kernel name='f'>" ++
    "<output name='b' type='" ++ type ++ "' nmemb='" ++ members ++ "' arg='0'/>" ++
    "<ndrange><global>1</global></ndrange></kernel></k>"

end KernelHost
