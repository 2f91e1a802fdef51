import KernelHost.Proofs.Scope.Known

/-!
# Sites

Where `main` hands over what the manifest declares, and how a variable has to stand there.  A
variable suits a site if it is declared and stands there as its shape asks for; a statement is sound
if all that it uses suits its site, and hooks and launches are called on what the plan prescribes.
-/

namespace KernelHost

open Code (Call Callee Each Expr Stand Stmt Var)

/-- A kind of place at which variables of the manifest are handed over. -/
inductive Site
  /-- A generator, or a call of the runtime that creates or fills a buffer or reads it. -/
  | transfer
  /-- The call of the runtime that binds an argument. -/
  | binding
  | hook
  /-- The comparison of an output, or the report of a mismatch. -/
  | comparison
  /-- The check of an allocation, or its release. -/
  | allocation
  deriving DecidableEq

/-- How a variable has to stand at a site, by whether it is an array. -/
def Site.stand? : Site → Bool → Option Stand
  | .transfer, true => some .itself
  | .transfer, false => some .address
  | .binding, true => none
  | .binding, false => some .address
  | .hook, _ => some .itself
  | .comparison, true => some .element
  | .comparison, false => some .itself
  | .allocation, true => some .itself
  | .allocation, false => none

/-- The kind of place that the arguments of a call are. -/
def Code.Callee.site? : Callee → Option Site
  | .generator _ | .clCreateBuffer | .clEnqueueWriteBuffer | .clEnqueueReadBuffer =>
    some .transfer
  | .clSetKernelArg => some .binding
  | .hook _ => some .hook
  | .printf => some .comparison
  | .free => some .allocation
  | _ => none

/-- The kind of place that the operands of a statement are. -/
def Code.Stmt.site? : Stmt → Option Site
  | .store _ call | .perform call | .guarded _ call => call.callee.site?
  | .when _ _ => some .comparison
  | .ensure _ _ => some .allocation
  | _ => none

namespace Host

/-- A variable is declared, and one of the manifest stands at a site as its shape asks for. -/
def Suits (p : Plan) (site? : Option Site) : Var → Stand → Prop
  | .host name, stand => ∃ w ∈ p.hostPlaced, w.decl.name = name ∧
    site?.bind (·.stand? w.layout.storage.isArray) = some stand
  | .reference name, stand => ∃ w ∈ p.hostPlaced, w.layout.reference.isSome ∧ w.decl.name = name ∧
    site?.bind (·.stand? w.layout.storage.isArray) = some stand
  | v, _ => Known p v

/-- The constants that `main` names; the last one is a character. -/
def constantNames : List String :=
  ["true", "false", "NULL", "EXIT_SUCCESS", "EXIT_FAILURE", "SEEK_END", "SEEK_SET", "CL_SUCCESS",
    "CL_TRUE", "CL_DEVICE_TYPE_ALL", "CL_MEM_READ_ONLY", "CL_MEM_READ_WRITE",
    "CL_MEM_COPY_HOST_PTR", "'\\0'"]

@[simp]
theorem mem_constantNames :
    "true" ∈ constantNames ∧ "false" ∈ constantNames ∧ "NULL" ∈ constantNames ∧
      "EXIT_SUCCESS" ∈ constantNames ∧ "EXIT_FAILURE" ∈ constantNames ∧
      "SEEK_END" ∈ constantNames ∧ "SEEK_SET" ∈ constantNames ∧
      "CL_SUCCESS" ∈ constantNames ∧ "CL_TRUE" ∈ constantNames ∧
      "CL_DEVICE_TYPE_ALL" ∈ constantNames ∧ "CL_MEM_READ_ONLY" ∈ constantNames ∧
      "CL_MEM_READ_WRITE" ∈ constantNames ∧ "CL_MEM_COPY_HOST_PTR" ∈ constantNames ∧
      "'\\0'" ∈ constantNames := by
  simp [constantNames]

/-- The variables of an expression suit a site, and its constants are among the known ones. -/
def Handed (p : Plan) (site? : Option Site) (e : Expr) : Prop :=
  (∀ x ∈ e.stands, Suits p site? x.1 x.2) ∧ ∀ name ∈ e.constants, name ∈ constantNames

/-! ## What a launch is called on -/

/-- The sizes of a work group, if the manifest gives them. -/
def sizesOf (k : Kernel) : Expr :=
  if k.range.localSizes.isSome then .var (.localSize k.ident) else .null

/-- The list of events that a launch waits for, with its length in front. -/
def waitOf (p : Plan) (l : Launch) : List Expr :=
  l.wait.elim [.number 0, .null] fun tier =>
    [.number (p.schedule.listLength tier), .var (.tierDone tier)]

/-- The slot of the event that a launch signals. -/
def signalOf (l : Launch) : Expr :=
  l.signal.elim .null fun place => .address (.index (.var (.tierDone place.1)) (.number place.2))

theorem launch_eq (p : Plan) (k : Kernel) (l : Launch) :
    launch p k l = callForStatus
      ⟨.clEnqueueNDRangeKernel,
        [.var (.queue k.ident), .var (.kernel k.ident), .var (.workDim k.ident), .null,
          .var (.globalSize k.ident), sizesOf k] ++ waitOf p l ++ [signalOf l]⟩
      (some k.name) :=
  rfl

/-! ## Sound statements -/

/-- Hooks are handed the whole signature, and a launch is that of a kernel at its turn. -/
def Prescribed (p : Plan) (call : Call) : Prop :=
  match call.callee with
  | .hook h => call.args = p.signature.arguments h.perPass
  | .clEnqueueNDRangeKernel => ∃ k ∈ p.kernels, ∃ l ∈ p.schedule.launches,
    ∃ object, launch p k.kernel l = callForStatus call object
  | _ => True

/-- What a statement uses suits its place, and what it calls is called on what is prescribed. -/
structure Sound (p : Plan) (s : Stmt) : Prop where
  /-- The operands suit the place. -/
  handed : ∀ e ∈ s.operands, Handed p s.site? e
  /-- What macros use is declared. -/
  reads : ∀ v ∈ s.reads, Known p v
  /-- Hooks and launches are called on what is prescribed. -/
  prescribed : ∀ call ∈ s.made, Prescribed p call

attribute [local simp] Stmt.operands Stmt.reads Stmt.made Stmt.site? Code.Failure.call

theorem sound_iff {p : Plan} {s : Stmt} :
    Sound p s ↔ (∀ e ∈ s.operands, Handed p s.site? e) ∧ (∀ v ∈ s.reads, Known p v) ∧
      ∀ call ∈ s.made, Prescribed p call :=
  ⟨fun ⟨handed, reads, prescribed⟩ => ⟨handed, reads, prescribed⟩,
    fun ⟨handed, reads, prescribed⟩ => ⟨handed, reads, prescribed⟩⟩

section Forms

variable {p : Plan} {site? : Option Site} {stand : Stand}

/-! ## Single variables -/

/-- Variables that are not of the manifest only have to be declared. -/
@[simp]
theorem suits_own :
    (∀ tier, Suits p site? (.tierDone tier) stand ↔ tier < p.schedule.boundaries) ∧
      (Suits p site? .loopFlag stand ↔ p.template = .loop) ∧
      (Suits p site? .timeBefore stand ↔ p.settings.profiling) ∧
      (Suits p site? .timeAfter stand ↔ p.settings.profiling) ∧
      (Suits p site? .execTime stand ↔ p.settings.profiling) ∧
      (∀ ident, Suits p site? (.queue ident) stand ↔ Known p (.queue ident)) ∧
      (∀ ident, Suits p site? (.kernel ident) stand ↔ Known p (.kernel ident)) ∧
      (∀ ident, Suits p site? (.workDim ident) stand ↔ Known p (.workDim ident)) ∧
      (∀ ident, Suits p site? (.globalSize ident) stand ↔ Known p (.globalSize ident)) ∧
      (∀ ident, Suits p site? (.localSize ident) stand ↔ Known p (.localSize ident)) ∧
      (∀ name, Suits p site? (.tolerance name) stand ↔ Known p (.tolerance name)) ∧
      ∀ name, Suits p site? (.buffer name) stand ↔ Known p (.buffer name) := by
  simp [Suits]

@[simp]
theorem suits_fixed :
    Suits p site? .exitCode stand ∧ Suits p site? .i stand ∧ Suits p site? .j stand ∧
      Suits p site? .callStatus stand ∧ Suits p site? .platformsLen stand ∧
      Suits p site? .devicesLen stand ∧ Suits p site? .platforms stand ∧
      Suits p site? .devices stand ∧ Suits p site? .context stand ∧
      Suits p site? .programFile stand ∧ Suits p site? .programSize stand ∧
      Suits p site? .programContent stand ∧ Suits p site? .programStatus stand ∧
      Suits p site? .program stand ∧ Suits p site? .invalidDataFound stand ∧
      Suits p site? .iterations stand := by
  simp [Suits]

theorem suits_host {w : Placed} (mem : w ∈ p.hostPlaced) {site : Site}
    (stands : site.stand? w.layout.storage.isArray = some stand) :
    Suits p (some site) (.host w.decl.name) stand :=
  ⟨w, mem, rfl, stands⟩

theorem suits_reference {w : Placed} (mem : w ∈ p.hostPlaced)
    (copied : w.layout.reference.isSome) {site : Site}
    (stands : site.stand? w.layout.storage.isArray = some stand) :
    Suits p (some site) (.reference w.decl.name) stand :=
  ⟨w, mem, copied, rfl, stands⟩

/-! ## Expressions -/

@[simp]
theorem handed_leaf :
    (∀ v, Handed p site? (.var v) ↔ Suits p site? v .itself) ∧
      (∀ name, Handed p site? (.constant name) ↔ name ∈ constantNames) ∧
      (∀ n, Handed p site? (.number n)) ∧
      (∀ n, Handed p site? (.unsigned n)) ∧
      (∀ pieces, Handed p site? (.literal pieces)) ∧
      (∀ text, Handed p site? (.quoted text)) ∧
      (∀ text, Handed p site? (.verbatim text)) ∧
      (∀ type, Handed p site? (.sizeOf type)) ∧
      Handed p site? .null ∧
      (∀ body, Handed p site? (.plain body)) ∧
      ∀ count type, Handed p site? (.bytesOf count type) := by
  simp [Handed]

@[simp]
theorem handed_node :
    (∀ type e, Handed p site? (.cast type e) ↔ Handed p site? e) ∧
      (∀ e, Handed p site? (.not e) ↔ Handed p site? e) ∧
      (∀ e, Handed p site? (.paren e) ↔ Handed p site? e) ∧
      (∀ e name, Handed p site? (.field e name) ↔ Handed p site? e) ∧
      (∀ v, Handed p site? (.address (.var v)) ↔ Suits p site? v .address) ∧
      (∀ array place, Handed p site? (.address (.index array place)) ↔
        Handed p site? (.index array place)) ∧
      (∀ v place, Handed p site? (.index (.var v) place) ↔
        Suits p site? v .element ∧ Handed p site? place) ∧
      (∀ vector place, Handed p site? (.lane vector place) ↔
        Handed p site? vector ∧ Handed p site? place) ∧
      (∀ op left right, Handed p site? (.binary op left right) ↔
        Handed p site? left ∧ Handed p site? right) ∧
      ∀ expected actual tolerance, Handed p site? (.outside expected actual tolerance) ↔
        Handed p site? expected ∧ Handed p site? actual ∧ Handed p site? tolerance := by
  simp only [Handed, Expr.stands_node, Expr.constants_node, List.forall_mem_append,
    List.forall_mem_cons, List.not_mem_nil, false_implies, implies_true, and_true]
  tauto

/-! ## Statements -/

@[simp]
theorem sound_idle :
    Sound p .blank ∧ (∀ text, Sound p (.comment text)) ∧ Sound p .cleanupLabel := by
  simp [sound_iff]

@[simp]
theorem sound_perform {call : Call} :
    Sound p (.perform call) ↔
      (∀ e ∈ call.args, Handed p call.callee.site? e) ∧ Prescribed p call := by
  simp [sound_iff]

@[simp]
theorem sound_store {target : Expr} {call : Call} :
    Sound p (.store target call) ↔
      Handed p call.callee.site? target ∧
        (∀ e ∈ call.args, Handed p call.callee.site? e) ∧ Prescribed p call := by
  simp [sound_iff, and_assoc]

@[simp]
theorem sound_guarded {condition : Expr} {call : Call} :
    Sound p (.guarded condition call) ↔
      Handed p call.callee.site? condition ∧
        (∀ e ∈ call.args, Handed p call.callee.site? e) ∧ Prescribed p call := by
  simp [sound_iff, and_assoc]

/-- The failures of the program are reported by macros that nothing is prescribed for. -/
theorem prescribed_failure (failure : Code.Failure) : Prescribed p failure.call := by
  cases failure with
  | function callee object => cases object <;> simp [Prescribed]
  | posix object => simp [Prescribed]
  | lookup kind index count => simp [Prescribed]

@[simp]
theorem sound_ensure {condition : Code.Condition} {failure : Code.Failure} :
    Sound p (.ensure condition failure) ↔
      (∀ e ∈ condition.operands, Handed p (some .allocation) e) ∧
        (∀ e ∈ failure.call.args, Handed p (some .allocation) e) ∧
          ∀ call ∈ condition.made, Prescribed p call := by
  have reads : ∀ v ∈ failure.reads, Known p v := by
    cases failure <;> simp [Code.Failure.reads]
  simp only [sound_iff, Stmt.operands, Stmt.reads, Stmt.site?, Stmt.made, List.mem_append,
    List.mem_singleton, or_imp, forall_and, forall_eq, prescribed_failure, and_true, and_assoc]
  exact and_congr_right fun _ => and_congr_right fun _ => and_iff_right reads

@[simp]
theorem handed_failure :
    (∀ object, (∀ e ∈ (Code.Failure.posix object).call.args, Handed p site? e) ↔
        Handed p site? object) ∧
      ∀ kind index count, (∀ e ∈ (Code.Failure.lookup kind index count).call.args,
        Handed p site? e) ↔ Suits p site? count .itself := by
  simp

@[simp]
theorem operands_condition :
    (∀ e, (Code.Condition.holds e).operands = [e] ∧ (Code.Condition.holds e).made = []) ∧
      ∀ call, (Code.Condition.givesOne call).operands = call.args ∧
        (Code.Condition.givesOne call).made = [call] :=
  ⟨fun _ => ⟨rfl, rfl⟩, fun _ => ⟨rfl, rfl⟩⟩

@[simp]
theorem sound_phase {title message : String} {perPass : Bool} {ss : List Stmt} :
    Each (Sound p) (phase title perPass message ss) ↔ Each (Sound p) ss := by
  cases perPass <;> simp [phase, announce, succeed, Prescribed]

@[simp]
theorem sound_assign {target value : Expr} :
    Sound p (.assign target value) ↔ Handed p none target ∧ Handed p none value := by
  simp [sound_iff]

@[simp]
theorem sound_control :
    (∀ target value, Sound p (.increase target value) ↔
        Handed p none target ∧ Handed p none value) ∧
      (∀ index, Sound p (.increment index) ↔ Suits p none index .itself) ∧
      (∀ condition body, Sound p (.when condition body) ↔
        Handed p (some .comparison) condition) ∧
      (∀ condition body otherwise, Sound p (.choose condition body otherwise) ↔
        Handed p none condition) ∧
      (∀ index bound body, Sound p (.count index bound body) ↔ Suits p none index .itself) ∧
      (∀ condition body, Sound p (.repeatWhile condition body) ↔ Handed p none condition) ∧
      ∀ value, Sound p (.leave value) ↔ Handed p none value := by
  simp [sound_iff]

theorem sound_checkStatus (callee : Callee) (object : Option String) :
    Sound p (checkStatus callee object) := by
  cases object <;> simp [checkStatus]

@[simp]
theorem sound_callForStatus {call : Call} {object : Option String} :
    Each (Sound p) (callForStatus call object) ↔
      (∀ e ∈ call.args, Handed p call.callee.site? e) ∧ Prescribed p call := by
  have checked := sound_checkStatus (p := p) call.callee object
  rw [checkStatus] at checked
  simp [callForStatus, checkStatus, checked, -sound_ensure]

@[simp]
theorem sound_callForResult {target : Var} {call : Call} {object : Option String} :
    Each (Sound p) (callForResult target call object) ↔
      Suits p call.callee.site? target .itself ∧
        (∀ e ∈ call.args, Handed p call.callee.site? e) ∧ Prescribed p call := by
  have checked := sound_checkStatus (p := p) call.callee object
  rw [checkStatus] at checked
  simp [callForResult, checkStatus, checked, -sound_ensure]

end Forms

end Host
end KernelHost
