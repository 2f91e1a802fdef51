import KernelHost.Log.Basic
import KernelHost.Pattern
import KernelHost.Text.Blank

/-!
# Log filters

Which log lines are shown.  A filter is written as directives with commas between them, and possibly
a pattern behind a slash, which has to occur in what a line says.  What cannot be read is passed
over with a warning.
-/

namespace KernelHost

/-- Reads the greatest rank that is shown; `off` shows nothing. -/
def LogLevel.rank? (word : String) : Option Nat :=
  match word.map Char.toLower with
  | "off" => some 0
  | "error" => some LogLevel.error.rank
  | "warn" => some LogLevel.warn.rank
  | "info" => some LogLevel.info.rank
  | "debug" => some LogLevel.debug.rank
  | "trace" => some LogLevel.trace.rank
  | _ => none

/-- The ranks that are shown, for targets that begin with a text. -/
structure LogDirective where
  /-- The beginning of the target; nothing for every target. -/
  target : Option String
  /-- The greatest rank that is shown. -/
  rank : Nat
  deriving DecidableEq, Repr

/-- Which log lines are shown. -/
structure LogFilter where
  /-- The ranks that are shown. -/
  directives : List LogDirective := []
  /-- What has to occur in the text of a line. -/
  pattern : Option Pattern := none
  deriving DecidableEq, Repr

/-- What is wrong with the text of a filter. -/
inductive LogFilterFault
  /-- More than one slash. -/
  | slashes (text : String)
  /-- A directive, or the level in it, that means nothing. -/
  | directive (text : String)
  /-- A pattern that cannot be read. -/
  | pattern (fault : PatternFault)
  deriving DecidableEq, Repr

/-- The lines of the warning about a fault. -/
def LogFilterFault.lines : LogFilterFault → List String
  | .slashes text =>
    [Text.firstLine s!"warning: invalid logging spec '{text}' (too many '/'s), ignoring it"]
  | .directive text => [Text.firstLine s!"warning: invalid logging spec '{text}', ignoring it"]
  | .pattern fault =>
    let text := "\n".intercalate fault.lines
    s!"warning: invalid regex filter - {text}, ignoring it".splitOn "\n"

namespace LogDirective

/-- The directive for every target. -/
def everywhere (rank : Nat) : LogDirective :=
  ⟨none, rank⟩

/-- The directive for targets that begin with a text. -/
def about (target : List Char) (rank : Nat) : LogDirective :=
  ⟨some (.ofList target), rank⟩

/-- Reads a directive: a level, a target, or a target with its level. -/
def ofText (text : String) : Except LogFilterFault LogDirective :=
  match text.toList.splitOn '=' with
  | [word] =>
    match LogLevel.rank? (.ofList word) with
    | some rank => .ok (everywhere rank)
    | none => .ok (about word LogLevel.trace.rank)
  | [target, level] =>
    match Text.trim (.ofList level) with
    | "" => .ok (about target LogLevel.trace.rank)
    | word =>
      match LogLevel.rank? word with
      | some rank => .ok (about target rank)
      | none => .error (.directive word)
  | _ => .error (.directive text)

/-- Whether a directive is about a line. -/
def concerns (d : LogDirective) (line : LogLine) : Bool :=
  d.target.all fun target => target.toList.isPrefixOf line.target.toList

/-- How closely a directive describes its targets. -/
def closeness (d : LogDirective) : Nat :=
  d.target.elim 0 String.utf8ByteSize

end LogDirective

namespace LogFilter

/-- Enters a directive, in the place of an earlier one for the same targets. -/
def enter (directives : List LogDirective) (d : LogDirective) : List LogDirective :=
  if directives.any (·.target = d.target) then
    directives.map fun earlier => if earlier.target = d.target then d else earlier
  else directives ++ [d]

/-- Only errors are shown if no directive says otherwise. -/
def withDefault (directives : List LogDirective) : List LogDirective :=
  if directives.isEmpty then [.everywhere LogLevel.error.rank] else directives

/-- Reads directives with commas between them. -/
def readDirectives (text : String) : List LogFilterFault × List LogDirective :=
  let words := (text.toList.splitOn ',').map fun cs => Text.trim (.ofList cs)
  (words.filter (· ≠ "")).foldl
    (fun (faults, directives) word =>
      match LogDirective.ofText word with
      | .ok d => (faults, enter directives d)
      | .error fault => (faults ++ [fault], directives))
    ([], [])

/-- Reads the pattern behind a slash, if there is one. -/
def readPattern : Option String → List LogFilterFault × Option Pattern
  | none => ([], none)
  | some text =>
    match Pattern.ofText text with
    | .ok pattern => ([], some pattern)
    | .error fault => ([.pattern fault], none)

/-- Reads a filter, and tells what is wrong with its text. -/
def ofText (text : String) : List LogFilterFault × LogFilter :=
  match (text.toList.splitOn '/').map String.ofList with
  | directives :: parts =>
    if 1 < parts.length then ([.slashes text], { directives := withDefault [] })
    else
      let (faults, directives) := readDirectives directives
      let (more, pattern) := readPattern parts.head?
      (faults ++ more, { directives := withDefault directives, pattern })
  | [] => ([], { directives := withDefault [] })

/--
Whether the directives show a line: of those about it the closest decides, the last of several.
-/
def admits (filter : LogFilter) (line : LogLine) : Bool :=
  let fitting := filter.directives.filter (·.concerns line)
  let closest := (fitting.map (·.closeness)).max?
  match fitting.reverse.find? fun d => some d.closeness == closest with
  | some d => line.level.rank ≤ d.rank
  | none => false

/-- Whether a line is shown. -/
def shows (filter : LogFilter) (line : LogLine) : Bool :=
  filter.admits line && filter.pattern.all (·.occursIn line.text)

/-- A filter without directives shows nothing. -/
theorem not_shows_of_directives_eq_nil {filter : LogFilter} (h : filter.directives = [])
    (line : LogLine) : filter.shows line = false := by
  simp [shows, admits, h]

end LogFilter
end KernelHost
