import KernelHost.Host.Setup

/-!
# Run

A pass sends data to the device, launches the kernels in their order, waits for them, and fetches
what they computed.  The single template makes one pass; the loop template makes passes until the
hooks clear the condition.
-/

namespace KernelHost.Host

open Code (Callee Expr Stmt Var)

/-- A transfer between the host and a buffer. -/
def transfer (callee : Callee) (b : Buffer) : List Stmt :=
  callForStatus
    ⟨callee,
      [.var (.queue b.queue), .var b.handle, .constant "CL_TRUE", .number 0, b.size,
        b.hostAddress, .number 0, .null, .null]⟩
    (some b.handle.text)

/-- The arguments that are bound anew in each pass, for all kernels. -/
def rebinds (p : Plan) : List Stmt :=
  p.kernels.flatMap fun k =>
    (k.arguments.filter (·.everyPass)).flatMap (bindArgument k.kernel.ident)

/-- The transfers to the device. -/
def uploads (p : Plan) : List Stmt :=
  (p.buffers.filter (·.upload != .never)).flatMap (transfer .clEnqueueWriteBuffer)

/-- The transfers from the device. -/
def downloads (p : Plan) : List Stmt :=
  (p.buffers.filter (·.download != .never)).flatMap (transfer .clEnqueueReadBuffer)

/-- Sends data to the device, if there is any to send. -/
def uploadPhase (p : Plan) (perPass : Bool) : List Stmt :=
  if (uploads p ++ rebinds p).isEmpty then []
  else phase "Set buffers and arguments" perPass "Setting buffers..." (uploads p ++ rebinds p)

/-- The launch of a kernel. -/
def launch (p : Plan) (k : Kernel) (l : Launch) : List Stmt :=
  let localSizes : Expr := if k.range.localSizes.isSome then .var (.localSize k.ident) else .null
  let wait : List Expr :=
    l.wait.elim [.number 0, .null] fun tier =>
      [.number (p.schedule.listLength tier), .var (.tierDone tier)]
  let signal : Expr :=
    l.signal.elim .null fun (tier, slot) =>
      .address (.index (.var (.tierDone tier)) (.number slot))
  callForStatus
    ⟨.clEnqueueNDRangeKernel,
      [.var (.queue k.ident), .var (.kernel k.ident), .var (.workDim k.ident), .null,
        .var (.globalSize k.ident), localSizes] ++ wait ++ [signal]⟩
    (some k.name)

/-- The launches of all kernels in their order. -/
def launches (p : Plan) : List Stmt :=
  p.schedule.launches.flatMap fun l =>
    (p.kernels[l.kernel]?).elim [] fun k => launch p k.kernel l

/-- The time that passed while the kernels ran, in microseconds. -/
def elapsed : Expr :=
  let difference (name : String) : Expr :=
    .paren (.binary .sub (.field (.var .timeAfter) name) (.field (.var .timeBefore) name))
  .binary .add (.binary .mul (difference "tv_sec") (.number 1000000)) (difference "tv_usec")

/-- Reads the clock. -/
def readClock (var : Var) : Stmt :=
  .perform ⟨.gettimeofday, [.address (.var var), .null]⟩

/-- Launches the kernels and waits for all queues. -/
def launchPhase (p : Plan) (perPass : Bool) : List Stmt :=
  phase "Run kernels" perPass "Running kernels..." <|
    (if p.settings.profiling then [readClock .timeBefore] else []) ++
    launches p ++
    p.kernels.flatMap (fun k =>
      callForStatus ⟨.clFinish, [.var (.queue k.kernel.ident)]⟩ none) ++
    if p.settings.profiling then
      [readClock .timeAfter, .increase (.var .execTime) elapsed]
    else []

/-- Fetches what the kernels computed, if there is anything to fetch. -/
def downloadPhase (p : Plan) (perPass : Bool) : List Stmt :=
  if (downloads p).isEmpty then []
  else phase "Get output buffers" perPass "Getting output buffers..." (downloads p)

/-- Releases the events of the pass, if there are any. -/
def eventPhase (p : Plan) : List Stmt :=
  if p.schedule.boundaries = 0 then []
  else
    [.blank, .comment "Release synchronization events"] ++
      (List.range p.schedule.boundaries).map (releaseList p)

/-- One pass. -/
def pass (p : Plan) (perPass : Bool) : List Stmt :=
  uploadPhase p perPass ++ launchPhase p perPass ++ downloadPhase p perPass ++ eventPhase p ++
    [.blank, .increment .iterations]

/-- The whole run. -/
def run (p : Plan) : List Stmt :=
  match p.template with
  | .single => pass p false
  | .loop =>
    [.blank, .comment "Kernel loop",
      .repeatWhile (.var .loopFlag)
        (hookCall p .loopPreamble ++ pass p true ++ hookCall p .loopPostamble)]

end KernelHost.Host
