import KernelHost.CommandLine.Request
import KernelHost.Log.Filter
import KernelHost.Session

/-!
# Command line

The run of a command: what it leaves on the two streams, and its exit code.
-/

namespace KernelHost.CommandLine

/-- The help text. -/
def helpText : List String :=
  ["Generate an OpenCL host program from a kernel manifest", "", generalUsage, "", "Arguments:",
    "  <MANIFEST>  XML kernel manifest", "  <OUTPUT>    C file to write", "", "Options:",
    "  -v, --verbose  Log each generation stage (overridden by RUST_LOG)",
    "  -h, --help     Print help", "  -V, --version  Print version"]

/-- The version text. -/
def versionText : List String := ["hostgen 0.1.0"]

/-- What a command leaves behind. -/
structure Exit where
  /-- The exit code. -/
  code : UInt32
  /-- The lines on the standard output. -/
  output : List String := []
  /-- The lines on the error stream. -/
  errors : List String := []
  deriving DecidableEq, Repr

/--
The filter for a log, with what is wrong with its text: what the environment says, or a level that
depends on the option.
-/
def logFilter (environment : Option String) (verbose : Bool) : List LogFilterFault × LogFilter :=
  LogFilter.ofText (environment.getD (if verbose then "debug" else "warn"))

/-- The lines of an event that pass a filter. -/
def eventLines (filter : LogFilter) : Event → List String
  | .log line => if filter.shows line then [line.render] else []
  | .report lines => lines

/-- The exit code for the ending of a session. -/
def exitCode : Ending → UInt32
  | .written => 0
  | .refused _ => 1
  | .aborted => 101

/-- Runs a command; the environment may set the filter of the log. -/
def execute {m : Type → Type} [Monad m] [Disk m] (arguments : List String)
    (environment : Option String) : m Exit := do
  match Request.ofArguments arguments with
  | .help => return { code := 0, output := helpText }
  | .version => return { code := 0, output := versionText }
  | .misuse misuse => return { code := 2, errors := misuse.lines }
  | .generate manifest output verbose =>
    let outcome ← Session.generateFile manifest output
    let (faults, filter) := logFilter environment verbose
    return {
      code := exitCode outcome.ending
      errors := faults.flatMap (·.lines) ++ outcome.events.flatMap (eventLines filter) }

end KernelHost.CommandLine
