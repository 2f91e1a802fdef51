import KernelHost.Span

/-!
# Diagnostics

What the program tells its user about a manifest: a message with a severity, the place it is about,
notes and at most one piece of advice.
-/

namespace KernelHost

/-- How grave a diagnostic is. -/
inductive Severity
  /-- Nothing is generated. -/
  | error
  /-- Something was passed over. -/
  | warning
  deriving DecidableEq, Repr

/-- A message about a place in the manifest. -/
structure Diagnostic where
  /-- How grave it is. -/
  severity : Severity
  /-- What is the matter. -/
  message : String
  /-- The place it is about, `Span.nowhere` if there is none. -/
  span : Span
  /-- Further facts, in the order in which they are shown. -/
  notes : List String := []
  /-- What to do about it. -/
  help : Option String := none
  deriving DecidableEq, Repr

namespace Diagnostic

/-- Adds a note behind the others. -/
def withNote (d : Diagnostic) (note : String) : Diagnostic :=
  { d with notes := d.notes ++ [note] }

/-- Sets the advice in place of an earlier one. -/
def withHelp (d : Diagnostic) (help : String) : Diagnostic :=
  { d with help := some help }

/-- Whether the diagnostic stops the generation. -/
def isError (d : Diagnostic) : Bool :=
  d.severity == .error

end Diagnostic
end KernelHost
