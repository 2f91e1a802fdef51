/-!
# Variables of the host program

Everything that `main` declares, by what it holds.  The names of kernels and variables of the
manifest are parameters of the derived ones; `Var.text` gives the C identifier.
-/

namespace KernelHost.Code

/-- A variable that `main` declares. -/
inductive Var
  | exitCode
  /-- The index of a list or of elements. -/
  | i
  /-- The index of lanes inside elements. -/
  | j
  /-- The status of the last call of the runtime. -/
  | callStatus
  | platformsLen
  | devicesLen
  | platforms
  | devices
  | context
  | programFile
  | programSize
  | programContent
  | programStatus
  | program
  /-- The condition of the loop. -/
  | loopFlag
  /-- Whether some output is not as expected. -/
  | invalidDataFound
  | iterations
  | timeBefore
  | timeAfter
  | execTime
  | tierDone (tier : Nat)
  | queue (ident : String)
  | kernel (ident : String)
  | workDim (ident : String)
  | globalSize (ident : String)
  | localSize (ident : String)
  /-- A variable of the manifest. -/
  | host (name : String)
  | reference (name : String)
  | tolerance (name : String)
  | buffer (name : String)
  deriving DecidableEq, Repr

/-- The C identifier of a variable. -/
def Var.text : Var → String
  | .exitCode => "rv"
  | .i => "i"
  | .j => "j"
  | .callStatus => "fRet"
  | .platformsLen => "platformsLen"
  | .devicesLen => "devicesLen"
  | .platforms => "platforms"
  | .devices => "devices"
  | .context => "context"
  | .programFile => "programFile"
  | .programSize => "programSz"
  | .programContent => "programContent"
  | .programStatus => "programRet"
  | .program => "program"
  | .loopFlag => "loopFlag"
  | .invalidDataFound => "invalidDataFound"
  | .iterations => "iterations"
  | .timeBefore => "then"
  | .timeAfter => "now"
  | .execTime => "execTime"
  | .tierDone tier => s!"tier{tier}Done"
  | .queue ident => "queue" ++ ident
  | .kernel ident => "kernel" ++ ident
  | .workDim ident => "workDim" ++ ident
  | .globalSize ident => "globalSize" ++ ident
  | .localSize ident => "localSize" ++ ident
  | .host name => name
  | .reference name => name ++ "C"
  | .tolerance name => name ++ "Epsilon"
  | .buffer name => name ++ "K"

end KernelHost.Code
