import KernelHost.Code.Stmt
import KernelHost.Plan.Basic

/-!
# Phases

The host program is a row of phases.  Most of them announce a step, do something, and report
success; every call of the runtime is checked right behind it.
-/

namespace KernelHost.Host

open Code (Call Callee Expr Stmt Var)

/-- Announces a step; in the loop, with the number of the pass in front. -/
def announce (perPass : Bool) (message : String) : Stmt :=
  .perform <|
    if perPass then
      ⟨.printStep, [.literal [.text "[", .conversion "u", .text ("] " ++ message)],
        .var .iterations]⟩
    else ⟨.printStep, [.plain message]⟩

/-- Reports success. -/
def succeed : Stmt :=
  .perform ⟨.printSuccess, []⟩

/-- A phase with a title for the reader and a message for the user. -/
def phase (title : String) (perPass : Bool) (message : String) (body : List Stmt) : List Stmt :=
  [.blank, .comment title, announce perPass message] ++ body ++ [succeed]

/-- Checks the status of the last call of the runtime. -/
def checkStatus (callee : Callee) (object : Option String) : Stmt :=
  .ensure (.holds (.binary .equal (.constant "CL_SUCCESS") (.var .callStatus)))
    (.function callee object)

/-- The address that a call of the runtime leaves its status at. -/
def statusAddress : Expr :=
  .address (.var .callStatus)

/-- Calls the runtime for its status. -/
def callForStatus (call : Call) (object : Option String) : List Stmt :=
  [.store (.var .callStatus) call, checkStatus call.callee object]

/-- Calls the runtime for a result that is stored in a variable. -/
def callForResult (target : Var) (call : Call) (object : Option String) : List Stmt :=
  [.store (.var target) call, checkStatus call.callee object]

/-- Demands that a pointer is not null, and reports the named object otherwise. -/
def demand (pointer : Var) (object : Expr) : Stmt :=
  .ensure (.holds (.var pointer)) (.posix object)

/-- The call of a hook, if it is switched on. -/
def hookCall (p : Plan) (hook : Hook) : List Stmt :=
  if p.settings.hooks.enabled hook then
    phase s!"Calling {hook.title} function" hook.perPass s!"Calling {hook.title} function..."
      [.perform ⟨.hook hook, p.signature.arguments hook.perPass⟩]
  else []

/-- Releases the events of a tier and marks its slots as empty. -/
def releaseList (p : Plan) (tier : Nat) : Stmt :=
  let slot : Expr := .index (.var (.tierDone tier)) (.var .i)
  .count .i (p.schedule.listLength tier)
    [.when slot [.perform ⟨.clReleaseEvent, [slot]⟩, .assign slot .null]]

end KernelHost.Host
