import KernelHost.Manifest.Basic
import KernelHost.Plan.Basic
import KernelHost.Text.Terminal

/-!
# Log lines

What the program tells about its own progress.
-/

namespace KernelHost

/-- How important a log line is. -/
inductive LogLevel
  /-- A failure. -/
  | error
  /-- Something doubtful. -/
  | warn
  /-- A result. -/
  | info
  /-- A step. -/
  | debug
  /-- A detail. -/
  | trace
  deriving DecidableEq, Repr

namespace LogLevel

/-- The number of the level; more important levels come first. -/
def rank : LogLevel → Nat
  | .error => 1
  | .warn => 2
  | .info => 3
  | .debug => 4
  | .trace => 5

/-- The level in a log line, in five columns. -/
def column : LogLevel → String
  | .error => "ERROR"
  | .warn => "WARN "
  | .info => "INFO "
  | .debug => "DEBUG"
  | .trace => "TRACE"

end LogLevel

/-- A log line. -/
structure LogLine where
  /-- How important it is. -/
  level : LogLevel
  /-- The part of the program that it comes from. -/
  target : String
  /-- What it says. -/
  text : String
  deriving DecidableEq, Repr

/-- A log line as it is shown: one line of plain text. -/
def LogLine.render (line : LogLine) : String :=
  Text.firstLine (Text.uncontrolled s!"[{line.level.column} {line.target}] {line.text}")

/-- What is logged about a manifest once it is read. -/
def Manifest.log (m : Manifest) : LogLine where
  level := .debug
  target := "hostgen"
  text := s!"manifest: {m.kernels.length} kernel(s), {m.allVariables.length} variable(s)"

namespace Plan

/-- The template in a log line. -/
def templateWord : Template → String
  | .single => "Single"
  | .loop => "Loop"

/-- What is logged about a plan and about writing its program. -/
def log (p : Plan) : List LogLine :=
  let emitting (section_ : String) : LogLine := ⟨.debug, "hostgen::emit", s!"emitting {section_}"⟩
  [⟨.debug, "hostgen::plan",
      s!"classified {p.placed.length} variable(s) across {p.schedule.tiers.length} tier(s)"⟩,
    ⟨.info, "hostgen::plan",
      s!"planned {p.buffers.length} buffer(s), {p.signature.params.length} hook parameter(s), " ++
        s!"{p.checks.length} validation(s)"⟩,
    emitting "prelude", emitting "setup", emitting s!"run ({templateWord p.template} template)",
    emitting "checks", emitting "cleanup"]

end Plan
end KernelHost
