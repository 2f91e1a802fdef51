/-!
# Hooks

Functions from outside that the host program calls at fixed points, if they are switched on.
-/

namespace KernelHost

/-- A point at which the host program calls a function from outside. -/
inductive Hook
  /-- Before the set-up. -/
  | preamble
  /-- After the run. -/
  | postamble
  /-- At the beginning of each pass of the loop. -/
  | loopPreamble
  /-- At the end of each pass of the loop. -/
  | loopPostamble
  /-- Before the variables are released. -/
  | cleanup
  deriving DecidableEq, Repr

namespace Hook

/-- All hooks, in the order in which they are declared. -/
def all : List Hook :=
  [.preamble, .postamble, .loopPreamble, .loopPostamble, .cleanup]

theorem mem_all (hook : Hook) : hook ∈ all := by
  cases hook <;> decide

/-- The attribute that switches the hook on. -/
def attributeName : Hook → String
  | .preamble => "preamble"
  | .postamble => "postamble"
  | .loopPreamble => "looppreamble"
  | .loopPostamble => "looppostamble"
  | .cleanup => "cleanup"

/-- The macro that the hook header defines. -/
def macroName : Hook → String
  | .preamble => "PREAMBLE"
  | .postamble => "POSTAMBLE"
  | .loopPreamble => "LOOPPREAMBLE"
  | .loopPostamble => "LOOPPOSTAMBLE"
  | .cleanup => "CLEANUP"

/-- The name of the hook in comments and messages. -/
def title : Hook → String
  | .preamble => "preamble"
  | .postamble => "postamble"
  | .loopPreamble => "loop preamble"
  | .loopPostamble => "loop postamble"
  | .cleanup => "cleanup"

/-- Whether the hook runs in each pass and is handed the loop condition. -/
def perPass : Hook → Bool
  | .loopPreamble | .loopPostamble => true
  | _ => false

end Hook

/-- Which hooks are switched on. -/
structure Hooks where
  /-- Whether the preamble is. -/
  preamble : Bool := false
  /-- Whether the postamble is. -/
  postamble : Bool := false
  /-- Whether the loop preamble is. -/
  loopPreamble : Bool := false
  /-- Whether the loop postamble is. -/
  loopPostamble : Bool := false
  /-- Whether the clean-up is. -/
  cleanup : Bool := false
  deriving DecidableEq, Repr

namespace Hooks

/-- Whether a hook is switched on. -/
def enabled (hooks : Hooks) : Hook → Bool
  | .preamble => hooks.preamble
  | .postamble => hooks.postamble
  | .loopPreamble => hooks.loopPreamble
  | .loopPostamble => hooks.loopPostamble
  | .cleanup => hooks.cleanup

/-- The hooks that are switched on, in the order of `Hook.all`. -/
def active (hooks : Hooks) : List Hook :=
  Hook.all.filter hooks.enabled

/-- Whether some hook is switched on. -/
def any (hooks : Hooks) : Bool :=
  Hook.all.any hooks.enabled

theorem mem_active (hooks : Hooks) (hook : Hook) :
    hook ∈ hooks.active ↔ hooks.enabled hook = true := by
  simp [active, Hook.mem_all]

end Hooks
end KernelHost
