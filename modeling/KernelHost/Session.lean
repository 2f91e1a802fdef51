import KernelHost.Diagnostic.Report
import KernelHost.Disk.Basic
import KernelHost.Generation
import KernelHost.Log.Basic

/-!
# Sessions

Reading a manifest from a disk, generating its host program, and writing it.  Nothing is written
unless the generation succeeds; what is shown on the way is part of the outcome.
-/

namespace KernelHost

/-- Something that is shown. -/
inductive Event
  /-- A log line, if the filter lets it pass. -/
  | log (line : LogLine)
  | report (lines : List String)
  deriving DecidableEq, Repr

/-- How a session ends. -/
inductive Ending
  /-- The host program is written. -/
  | written
  /-- There is no host program. -/
  | refused (problems : Problems)
  /-- A report could not be drawn. -/
  | aborted
  deriving DecidableEq, Repr

/-- A session that is over. -/
structure Outcome where
  /-- What was shown, in order. -/
  events : List Event
  /-- How it ended. -/
  ending : Ending
  deriving DecidableEq, Repr

namespace Session

/-- How far the text of a manifest gets. -/
structure Stages where
  manifest : Checked Manifest
  plan : Checked Plan

namespace Stages

/-- The stages of a text. -/
def ofText (source : String) : Stages :=
  let manifest := Manifest.read source
  { manifest, plan := manifest >>= Plan.ofManifest }

/-- The host program, if both stages succeed. -/
def generated (s : Stages) : Checked Generated := do
  return (← s.manifest).generated (← s.plan)

/-- What is logged on the way. -/
def log (s : Stages) : List LogLine :=
  (s.manifest.toOption.map Manifest.log).toList ++
    (s.plan.toOption.map Plan.log).toList.flatten

/-- The stages lead to what `generate` gives. -/
theorem generated_ofText (source : String) : (ofText source).generated = generate source := by
  unfold generated ofText generate
  cases Manifest.read source with
  | error ps => rfl
  | ok m =>
    change (do let p ← Plan.ofManifest m; return m.generated p) = _
    rfl

end Stages

/-- The report of diagnostics, and whether all of them could be drawn. -/
def report (filename source : String) (ds : List Diagnostic) : Event × Bool :=
  match Diagnostic.reportAll ds filename source with
  | .ok lines => (.report lines, true)
  | .error inverted => (.report inverted.shown, false)

/-- Ends with one problem that has no place in the manifest. -/
def refuse (events : List Event) (filename : String) (problem : Problem) : Outcome :=
  let placed : At Problem := ⟨problem, .nowhere⟩
  { events := events ++ [(report filename "" [placed.error]).1]
    ending := .refused ⟨placed, []⟩ }

/-- What is shown of a generation: the log, then the remarks or the problems. -/
def generationEvents (filename source : String) (s : Stages) : List Event × Bool :=
  let diagnostics :=
    match s.generated with
    | .ok generated => generated.remarks.map At.warning
    | .error problems => problems.toList.map At.error
  let (shown, drawn) := report filename source diagnostics
  (s.log.map .log ++ [shown], drawn)

/-- The number of lines of a text whose last line is ended. -/
def lineCount (text : String) : Nat :=
  text.toList.count '\n'

variable {m : Type → Type} [Monad m] [Disk m]

/-- Reads a manifest, generates its host program and writes it. -/
def generateFile (manifest output : String) : m Outcome := do
  match ← Disk.read manifest with
  | .error fault => return refuse [] manifest (.unreadable manifest fault.text)
  | .ok source =>
    let stages := Stages.ofText source
    let (events, drawn) := generationEvents manifest source stages
    if !drawn then return { events, ending := .aborted }
    match stages.generated with
    | .error problems => return { events, ending := .refused problems }
    | .ok generated =>
      match ← Disk.write output generated.program with
      | .error fault => return refuse events manifest (.unwritable output fault.text)
      | .ok () =>
        let wrote : LogLine :=
          ⟨.info, "hostgen", s!"wrote {output} ({lineCount generated.program} lines)"⟩
        return { events := events ++ [.log wrote], ending := .written }

end Session
end KernelHost
