import KernelHost.Host.Phase

/-!
# Declarations

Everything that `main` declares: what the set-up and the run need, what each kernel needs, and the
variables of the manifest with their reference copies, tolerances and buffers.
-/

namespace KernelHost.Host

open Code (Call Declarator Expr Stmt Var)

/-- A declaration of one variable that is not initialized. -/
def declareBare (type : String) (var : Var) : Stmt :=
  .declare type [{ var }]

/-- A declaration of one variable with a value. -/
def declareValue (type : String) (var : Var) (value : Expr) : Stmt :=
  .declare type [{ var, initial := .value value }]

/-- A declaration of a handle that is null. -/
def declareHandle (type : String) (var : Var) : Stmt :=
  declareValue type var .null

/-- A declaration of a pointer that is null. -/
def declarePointer (type : String) (var : Var) : Stmt :=
  .declare type [{ var, pointer := true, initial := .value .null }]

/-- What the set-up needs. -/
def setupDeclarations (p : Plan) : List Stmt :=
  [.declare "int" [{ var := .i, initial := .value (.number 0) },
      { var := .j, initial := .value (.number 0) }],
    declareBare "cl_int" .callStatus,
    .declare "cl_uint" [{ var := .platformsLen }, { var := .devicesLen }],
    declarePointer "cl_platform_id" .platforms,
    declarePointer "cl_device_id" .devices,
    declareHandle "cl_context" .context] ++
    p.kernels.map (fun k => declareHandle "cl_command_queue" (.queue k.kernel.ident)) ++
    [declarePointer "FILE" .programFile,
      declareBare "size_t" .programSize,
      declarePointer "char" .programContent,
      declareBare "cl_int" .programStatus,
      declareHandle "cl_program" .program] ++
    p.kernels.map fun k => declareHandle "cl_kernel" (.kernel k.kernel.ident)

/-- What the run needs. -/
def runDeclarations (p : Plan) : List Stmt :=
  (if p.template == .loop then [declareValue "bool" .loopFlag (.constant "false")] else []) ++
    [declareValue "bool" .invalidDataFound (.constant "false"),
      declareValue "unsigned int" .iterations (.number 0)] ++
    (if p.settings.profiling then
      [.declare "struct timeval" [{ var := .timeBefore }, { var := .timeAfter }],
        declareValue "long" .execTime (.number 0)]
    else []) ++
    (List.range p.schedule.boundaries).map fun tier =>
      let length := p.schedule.listLength tier
      .declare "cl_event"
        [{ var := .tierDone tier, size := some length, initial := .nulls length }]

/-- The range of a kernel. -/
def rangeDeclarations (k : Kernel) : List Stmt :=
  let list (var : Var) (sizes : String) : Stmt :=
    .declareList "size_t" var (some k.range.dimensions) sizes
  [declareValue "cl_uint" (.workDim k.ident) (.number k.range.dimensions),
    list (.globalSize k.ident) k.range.globalSizes] ++
    k.range.localSizes.toList.map (list (.localSize k.ident))

/-- The declarations whose names do not depend on variables. -/
def declarations (p : Plan) : List Stmt :=
  [.comment "Return variable", declareValue "int" .exitCode (.constant "EXIT_SUCCESS"), .blank,
    .comment "OpenCL and aux variables"] ++
    setupDeclarations p ++ runDeclarations p ++
    p.kernels.flatMap fun k => rangeDeclarations k.kernel

/-! ## Variables of the manifest -/

/-- Declares storage for a variable or its reference copy. -/
def declareStorage (p : Placed) (var : Var) (contents : Contents) : Stmt :=
  let type := p.decl.type
  let count := p.layout.storage.count
  match contents with
  | .literal text =>
    if p.layout.storage.isArray then .declareList type var (some count) text
    else if p.layout.vector.isSome then .declareList type var none text
    else declareValue type var (.verbatim text)
  | _ =>
    if p.layout.storage.isArray then
      .declare type
        [{ var, pointer := true, initial := .result ⟨.malloc, [.bytesOf count type]⟩ }]
    else declareBare type var

/-- Declares a variable with all that belongs to it. -/
def declareVariable (template : Template) (p : Placed) : List Stmt :=
  let name := p.decl.name
  let copy : List Stmt :=
    p.layout.reference.elim [] fun contents =>
      declareStorage p (.reference name) contents ::
        p.decl.tolerance.toList.map fun t =>
          declareValue "double" (.tolerance name) (.verbatim t.text)
  declareStorage p (.host name) p.layout.initial :: copy ++
    (p.buffer? template).toList.map fun b => declareHandle "cl_mem" b.handle

/-- The storage of a variable that is allocated, the reference copy last. -/
def heapOf (p : Placed) : List Var :=
  (if p.layout.onHeap then [.host p.decl.name] else []) ++
    if p.layout.referenceOnHeap then [.reference p.decl.name] else []

/-- All storage that is allocated, in the order of the declarations. -/
def heap (p : Plan) : List Var :=
  p.hostPlaced.flatMap heapOf

/-- The call that fills storage, if its contents come from a function. -/
def fill (p : Placed) (var : Var) : Contents → List Stmt
  | .generator name =>
    let count := p.layout.storage.count
    [.perform ⟨.generator name,
      if 1 < count then [.var var, .number count] else [.address (.var var), .number 1]⟩]
  | _ => []

/-- The calls that fill a variable and its reference copy. -/
def fills (p : Placed) : List Stmt :=
  fill p (.host p.decl.name) p.layout.initial ++
    p.layout.reference.elim [] (fill p (.reference p.decl.name))

/-- The phase that looks at allocations, if there are any. -/
def allocationPhase (p : Plan) : List Stmt :=
  if (heap p).isEmpty then []
  else
    phase "Check host allocations" false "Allocating host variables..."
      ((heap p).map fun var => demand var (.plain var.text))

/-- The phase that fills variables, if there are any to fill. -/
def fillPhase (p : Plan) : List Stmt :=
  let calls := p.hostPlaced.flatMap fills
  if calls.isEmpty then []
  else phase "Generate variable contents" false "Generating variable contents..." calls

/-- The variables of the manifest. -/
def hostVariables (p : Plan) : List Stmt :=
  [.blank, .comment "Input/output variables"] ++
    p.hostPlaced.flatMap (declareVariable p.template) ++ allocationPhase p ++ fillPhase p

end KernelHost.Host
