import KernelHost.Host.Phase

/-!
# Set-up

How the host program finds its device and gets hold of everything that the run needs: the context,
the queues, the program, the kernels, the buffers, and the arguments of the kernels.
-/

namespace KernelHost.Host

open Code (Call Expr Stmt Var)

/-- The device that is used. -/
def chosenDevice (p : Plan) : Expr :=
  .index (.var .devices) (.number p.settings.device.device)

/-- The platform that is used. -/
def chosenPlatform (p : Plan) : Expr :=
  .index (.var .platforms) (.number p.settings.device.platform)

/-- Allocates a list of the runtime's objects. -/
def allocateList (list : Var) (count : Var) (type : String) : List Stmt :=
  [.store (.var list) ⟨.malloc, [.binary .mul (.var count) (.sizeOf type)]⟩,
    demand list (.plain list.text)]

/-- Demands that an index is below a count. -/
def demandIndex (kind : String) (index : Nat) (count : Var) : Stmt :=
  .ensure (.holds (.binary .less (.number index) (.var count))) (.lookup kind index count)

/-- Finds the platforms. -/
def platformPhase (p : Plan) : List Stmt :=
  phase "Get platforms IDs" false "Getting platforms IDs..." <|
    callForStatus
      ⟨.clGetPlatformIDs, [.number 0, .null, .address (.var .platformsLen)]⟩ none ++
    allocateList .platforms .platformsLen "cl_platform_id" ++
    callForStatus
      ⟨.clGetPlatformIDs, [.var .platformsLen, .var .platforms, .null]⟩ none ++
    [demandIndex "platform" p.settings.device.platform .platformsLen]

/-- Finds the devices of the platform. -/
def devicePhase (p : Plan) : List Stmt :=
  let platform := p.settings.device.platform
  let ids (args : List Expr) : Call :=
    ⟨.clGetDeviceIDs, [chosenPlatform p, .constant "CL_DEVICE_TYPE_ALL"] ++ args⟩
  phase s!"Get devices IDs for platform {platform}" false
      s!"Getting devices IDs for platform {platform}..." <|
    callForStatus (ids [.number 0, .null, .address (.var .devicesLen)]) none ++
    allocateList .devices .devicesLen "cl_device_id" ++
    callForStatus (ids [.var .devicesLen, .var .devices, .null]) none ++
    [demandIndex "device" p.settings.device.device .devicesLen]

/-- Creates the context. -/
def contextPhase (p : Plan) : List Stmt :=
  phase "Create context" false "Creating context..." <|
    callForResult .context
      ⟨.clCreateContext,
        [.null, .number 1, .address (chosenDevice p), .null, .null, statusAddress]⟩ none

/-- The call that creates a queue for a device. -/
def createQueue (api : Api) (device : Expr) : Call :=
  match api with
  | .v12 => ⟨.clCreateCommandQueue, [.var .context, device, .number 0, statusAddress]⟩
  | .v20 =>
    ⟨.clCreateCommandQueueWithProperties, [.var .context, device, .null, statusAddress]⟩

/-- Creates the queue of a kernel. -/
def queuePhase (p : Plan) (k : Kernel) : List Stmt :=
  phase s!"Create command queue for {k.name} kernel" false
      s!"Creating command queue for \\\"{k.name}\\\"..." <|
    callForResult (.queue k.ident) (createQueue p.settings.api (chosenDevice p)) none

/-- The kind of the program in messages. -/
def programKind : ProgramSource → String
  | .binary _ => "binary"
  | .text _ => "source"

/-- How the file of the program is opened. -/
def openMode : ProgramSource → String
  | .binary _ => "rb"
  | .text _ => "r"

/-- Opens the file of the program. -/
def openPhase (p : Plan) : List Stmt :=
  let program := p.settings.program
  let path : Expr := .quoted program.path
  phase "Open program file" false s!"Opening program {programKind program}..."
    [.store (.var .programFile) ⟨.fopen, [path, .plain (openMode program)]⟩,
      demand .programFile path]

/-- Reads the file of the program. -/
def readPhase (p : Plan) : List Stmt :=
  let program := p.settings.program
  let path : Expr := .quoted program.path
  let seek (origin : String) : Stmt :=
    .perform ⟨.fseek, [.var .programFile, .number 0, .constant origin]⟩
  phase "Get size and read file" false s!"Reading program {programKind program}..."
    [seek "SEEK_END",
      .store (.var .programSize) ⟨.ftell, [.var .programFile]⟩,
      seek "SEEK_SET",
      .store (.var .programContent)
        ⟨.malloc, [.binary .add (.var .programSize) (.number 1)]⟩,
      demand .programContent path,
      .ensure
        (.givesOne
          ⟨.fread, [.var .programContent, .var .programSize, .number 1, .var .programFile]⟩)
        (.posix path),
      .assign (.index (.var .programContent) (.var .programSize)) (.constant "'\\0'"),
      .perform ⟨.fclose, [.var .programFile]⟩,
      .assign (.var .programFile) .null]

/-- The call that creates the program. -/
def createProgram (p : Plan) : Call :=
  let content (type : String) : Expr := .cast type (.address (.var .programContent))
  match p.settings.program with
  | .binary _ =>
    ⟨.clCreateProgramWithBinary,
      [.var .context, .number 1, .address (chosenDevice p), .address (.var .programSize),
        content "const unsigned char **", .address (.var .programStatus), statusAddress]⟩
  | .text _ =>
    ⟨.clCreateProgramWithSource,
      [.var .context, .number 1, content "const char **", .address (.var .programSize),
        statusAddress]⟩

/-- Creates the program. -/
def programPhase (p : Plan) : List Stmt :=
  phase "Create program" false s!"Creating program from {programKind p.settings.program}..." <|
    callForResult .program (createProgram p) none

/-- Builds the program. -/
def buildPhase (p : Plan) : List Stmt :=
  phase "Build program" false "Building program..." <|
    callForStatus
      ⟨.clBuildProgram,
        [.var .program, .number 1, .address (chosenDevice p), .null, .null, .null]⟩ none

/-- Creates the object of a kernel. -/
def kernelPhase (k : Kernel) : List Stmt :=
  phase s!"Create {k.name} kernel" false s!"Creating kernel \\\"{k.name}\\\" from program..." <|
    callForResult (.kernel k.ident)
      ⟨.clCreateKernel, [.var .program, .plain k.name, statusAddress]⟩ none

/-- Creates a buffer. -/
def createBuffer (b : Buffer) : List Stmt :=
  callForResult b.handle
    ⟨.clCreateBuffer,
      [.var .context, b.access.flags, b.size,
        if b.access.copiesHost then b.hostAddress else .null, statusAddress]⟩
    (some b.handle.text)

/-- Creates all buffers, if there are any. -/
def bufferPhase (p : Plan) : List Stmt :=
  if p.buffers.isEmpty then []
  else
    phase "Create input and output buffers" false "Creating buffers..."
      (p.buffers.flatMap createBuffer)

/-- Binds an argument of the kernel with an identifier. -/
def bindArgument (ident : String) (a : Argument) : List Stmt :=
  callForStatus
    ⟨.clSetKernelArg,
      [.var (.kernel ident), .number a.index, a.binding.size, a.binding.address]⟩
    (some a.label)

/-- Binds the arguments of a kernel, if it has any. -/
def argumentPhase (k : PlannedKernel) : List Stmt :=
  if k.arguments.isEmpty then []
  else
    phase s!"Set kernel arguments for {k.kernel.name}" false
      s!"Setting kernel arguments for \\\"{k.kernel.name}\\\"..."
      (k.arguments.flatMap (bindArgument k.kernel.ident))

/-- The whole set-up. -/
def setup (p : Plan) : List Stmt :=
  platformPhase p ++ devicePhase p ++ contextPhase p ++
    p.kernels.flatMap (fun k => queuePhase p k.kernel) ++
    openPhase p ++ readPhase p ++ programPhase p ++ buildPhase p ++
    p.kernels.flatMap (fun k => kernelPhase k.kernel) ++
    bufferPhase p ++ p.kernels.flatMap argumentPhase

end KernelHost.Host
