import KernelHost.Diagnostic.Basic
import KernelHost.Text.Terminal

/-!
# Reports

The lines that a diagnostic leaves on the error stream.  A diagnostic without a place is written
plainly with all its notes.  Any other has a header with file, line and column, then the advice and
the last note; its span counts characters there, and lines end at any line terminator of Unicode.
-/

namespace KernelHost

namespace Text

/-- Whether a character alone ends a line of a report's source. -/
def isTerminator (c : Char) : Bool :=
  let n := c.toNat
  (0x0A ≤ n && n ≤ 0x0D) || n == 0x85 || n == 0x2028 || n == 0x2029

/--
The position of the character with the given index, where a line feed behind a carriage return
belongs to the same terminator and a last terminator opens no further line.
-/
def terminatedPosition (index : Nat) (cs : List Char) : Position :=
  walk index ⟨1, 1⟩ cs
where
  /-- Passes over so many characters from the given position. -/
  walk : Nat → Position → List Char → Position
    | 0, p, _ | _, p, [] => p
    | _ + 1, p, [_] => { p with column := p.column + 1 }
    | n + 1, p, c :: d :: cs =>
      if isTerminator c && !(c == '\r' && d == '\n') then walk n ⟨p.row + 1, 1⟩ (d :: cs)
      else walk n { p with column := p.column + 1 } (d :: cs)

end Text

namespace Diagnostic

/-- The report of a span whose start lies behind its end cannot be drawn. -/
structure Inverted where
  /-- The lines of the diagnostics in front. -/
  shown : List String

/-- The word that opens a line without a place. -/
def plainWord : Severity → String
  | .error => "error"
  | .warning => "warning"

/-- The word that opens a report. -/
def titleWord : Severity → String
  | .error => "Error"
  | .warning => "Warning"

/-- The lines of a diagnostic without a place. -/
def plainLines (d : Diagnostic) : List String :=
  s!"{plainWord d.severity}: {Text.firstLine d.message}" ::
    d.notes.map (fun note => s!"  note: {Text.firstLine note}") ++
    d.help.toList.map fun help => s!"  help: {Text.firstLine help}"

/-- Whether the places of a span lie inside a source of the given number of characters. -/
def fits (span : Span) (size : Nat) : Bool :=
  let start := span.start.toNat
  let stop := span.stop.toNat
  0 < size && start ≤ size && (stop ≤ start || stop - 1 ≤ size)

/-- The lines of a diagnostic that has a place. -/
def locatedLines (d : Diagnostic) (filename source : String) : List String :=
  let cs := source.toList
  s!"{titleWord d.severity}: {Text.firstLine d.message}" ::
    if fits d.span cs.length then
      let position := Text.terminatedPosition d.span.start.toNat cs
      s!"╭─[{filename}:{position.text}]" ::
        d.help.toList.map (fun help => s!"Help: {Text.firstLine help}") ++
        d.notes.getLast?.toList.map fun note => s!"Note: {Text.firstLine note}"
    else []

/-- The lines of a diagnostic, or nothing if its span is inverted. -/
def reportLines? (d : Diagnostic) (filename source : String) : Option (List String) :=
  if d.span.isNowhere then some d.plainLines
  else if d.span.stop < d.span.start then none
  else some (d.locatedLines filename source)

/-- The lines of several diagnostics, up to the first whose span is inverted. -/
def reportAll (ds : List Diagnostic) (filename source : String) :
    Except Inverted (List String) :=
  go [] ds
where
  /-- Continues behind the lines already written. -/
  go (shown : List String) : List Diagnostic → Except Inverted (List String)
    | [] => .ok shown
    | d :: ds =>
      match d.reportLines? filename source with
      | none => .error ⟨shown⟩
      | some more => go (shown ++ more) ds

end Diagnostic
end KernelHost
