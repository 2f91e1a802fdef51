import KernelHost.Code.Stmt
import KernelHost.Plan.Basic

/-!
# The header of the host program

What stands in front of `main`: a remark for the reader, includes, the documentation of the hooks,
and the program's own macros.
-/

namespace KernelHost.Host

open Code (Expr)

/-- The opening remark. -/
def banner : List String :=
  ["/*", " * OpenCL host program generated by hostgen.",
    " * Regenerate it from the kernel manifest instead of editing it.", " */"]

/-- The headers of the runtime and the C library. -/
def includes : List String :=
  ["CL/opencl.h", "errno.h", "stdbool.h", "stdio.h", "stdlib.h", "string.h", "sys/time.h"]

/-- The prototype of a hook. -/
structure Prototype where
  hook : Hook
  /-- The names of its parameters. -/
  names : List String
  deriving DecidableEq, Repr

/-- The prototypes of the hooks that are switched on. -/
def prototypes (p : Plan) : List Prototype :=
  p.settings.hooks.active.map fun hook => ⟨hook, p.signature.formalNames hook.perPass⟩

/-- The line of a prototype. -/
def Prototype.line (prototype : Prototype) : String :=
  s!" *            {prototype.hook.macroName}(" ++ ", ".intercalate prototype.names ++ ");"

/-- The documentation of the parameters of the prototypes. -/
def parameterDocs (p : Plan) : List String :=
  (p.signature.formalDocs.map fun (name, description) =>
    s!" *            {name}: {description};") ++
    if p.settings.hooks.active.any (·.perPass) then
      [" *            loopFlag: loop condition variable (bool)."]
    else []

/-- The documentation of the hooks. -/
def hookDocs (p : Plan) : List String :=
  let docs := parameterDocs p
  ["/**", " * @brief Header where the hook macro functions are located.",
    " *        Function headers:"] ++
    (prototypes p).map Prototype.line ++
    (if docs.isEmpty then [] else " *        where:" :: docs) ++
    [" */"]

/-- The condition that two values differ by more than a tolerance. -/
def tooFar (expected actual tolerance : Expr) : Expr :=
  let apart (high low : Expr) (order : Code.Operator) : Expr :=
    .paren (.binary .both (.paren (.binary order high low))
      (.paren (.binary .greater (.binary .sub high low) tolerance)))
  .paren (.binary .either (apart expected actual .greater) (apart actual expected .atLeast))

/-- The macro that tests whether two values differ by more than a tolerance. -/
def toleranceMacro : List String :=
  ["/**", " * @brief Test if two operands are outside an epsilon range.", " *",
    " * @param a First operand.", " * @param b Second operand.", " * @param e Epsilon value.",
    " */",
    s!"#define {Code.Callee.testEpsilon.text}(a, b, e) " ++
      (tooFar (.constant "a") (.constant "b") (.constant "e")).text]

/-- A macro that leaves a failure behind and prints a message. -/
def failureMacro (docs : List String) (head message : String) : List String :=
  ["/**"] ++ docs ++
    [" */", "#define " ++ head ++ " \x7b\\", "\trv = EXIT_FAILURE;\\", "\tPRINT_FAIL();\\",
      "\tfprintf(stderr, " ++ message ++ ");\\", "\x7d"]

/-- The macros of the host program. -/
def macros : List String :=
  toleranceMacro ++ [""] ++
    failureMacro
      [" * @brief Statements executed when an OpenCL call fails.", " *",
        " * @param funcName Name of the failed call."]
      "FUNCTION_ERROR_STATEMENTS(funcName)"
      "\"Error: %s failed with return code %d.\\n\", funcName, fRet" ++
    [""] ++
    failureMacro
      [" * @brief Statements executed when a libc call fails.", " *",
        " * @param arg Name of the failed object."]
      "POSIX_ERROR_STATEMENTS(arg)"
      "\"Error: %s: %s.\\n\", arg, strerror(errno)" ++
    [""] ++
    failureMacro
      [" * @brief Statements executed when a platform or device index is out of range.", " *",
        " * @param what Kind of the missing object.", " * @param index Requested index.",
        " * @param count Number of objects available."]
      "LOOKUP_ERROR_STATEMENTS(what, index, count)"
      "\"Error: %s %u not found (%u available).\\n\", what, index, count"

/-- The lines in front of `main`. -/
def header (p : Plan) : List String :=
  banner ++ ["", s!"#define CL_TARGET_OPENCL_VERSION {p.settings.api.target}", ""] ++
    includes.map (fun file => s!"#include <{file}>") ++ ["", "#include \"common.h\""] ++
    (if p.settings.hooks.any then
      "" :: hookDocs p ++ ["#include " ++ Code.quoted p.settings.hookHeader]
    else []) ++
    [""] ++ macros

end KernelHost.Host
