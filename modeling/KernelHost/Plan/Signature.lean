import KernelHost.Code.Expr
import KernelHost.Plan.Storage

/-!
# What hooks are handed

Every hook is handed the same list: each variable of the host and each reference copy, arrays
followed by their element counts.  The hooks of each pass are handed the condition of the loop, too.
-/

namespace KernelHost

open Code (Expr Var)

/-- A variable that hooks are handed. -/
structure HookParam where
  /-- The variable. -/
  var : Var
  /-- Its type in words of C. -/
  type : String
  /-- Its number of elements. -/
  count : Nat
  deriving DecidableEq, Repr

namespace HookParam

/-- Whether the element count is handed over, too. -/
def counted (p : HookParam) : Bool :=
  1 < p.count

/-- The name that stands for the element count in a prototype. -/
def countName (p : HookParam) : String :=
  p.var.text ++ "Sz"

end HookParam

/-- The list of variables that hooks are handed. -/
structure Signature where
  /-- The variables in order. -/
  params : List HookParam := []
  deriving DecidableEq, Repr

namespace Signature

/-- The parameters of a variable: itself if the host knows it, and its reference copy. -/
def paramsOf (p : Placed) : List HookParam :=
  let count := p.layout.storage.count
  let type := if p.layout.storage.isArray then p.decl.type ++ " *" else p.decl.type
  if p.layout.role == .scratch then []
  else
    ⟨.host p.decl.name, type, count⟩ ::
      if p.layout.reference.isSome then [⟨.reference p.decl.name, type, count⟩] else []

/-- The signature for the variables of all kernels. -/
def ofPlaced (ps : List Placed) : Signature :=
  ⟨ps.flatMap paramsOf⟩

/-- What a hook is called on. -/
def arguments (s : Signature) (perPass : Bool) : List Expr :=
  (s.params.flatMap fun p =>
    .var p.var :: if p.counted then [.number p.count] else []) ++
    if perPass then [.var .loopFlag] else []

/-- The names in the prototype of a hook. -/
def formalNames (s : Signature) (perPass : Bool) : List String :=
  (s.params.flatMap fun p => p.var.text :: if p.counted then [p.countName] else []) ++
    if perPass then [Var.loopFlag.text] else []

/-- The names in a prototype with what they stand for; the condition of the loop is left out. -/
def formalDocs (s : Signature) : List (String × String) :=
  s.params.flatMap fun p =>
    (p.var.text, s!"variable ({p.type})") ::
      if p.counted then [(p.countName, "number of members in variable (unsigned int)")] else []

end Signature
end KernelHost
