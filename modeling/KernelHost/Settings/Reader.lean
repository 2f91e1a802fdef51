import KernelHost.Checked
import KernelHost.Settings.Basic
import KernelHost.Settings.Toggle
import KernelHost.Text.Numeral

/-!
# Reading the settings

The settings are attributes of one element.  Every attribute is looked at, so all that is wrong with
them is found at once; an attribute that is absent leaves the default.
-/

namespace KernelHost.Settings

variable (attribute? : String → Option String) (span : Span)

/-- Reads where the kernels come from; a binary goes before a text. -/
def readProgram : Checked ProgramSource :=
  match attribute? "program", attribute? "source" with
  | some path, _ => .ok (.binary path)
  | none, some path => .ok (.text path)
  | none, none => .fail .noProgram span

/-- Reads a toggle, which is off if it is absent. -/
def readToggle (name : String) : Checked Bool :=
  match attribute? name with
  | none => .ok false
  | some value => .ofOption (.notToggle value name) span (toggle? value)

/-- Reads all hooks in the order of `Hook.all`. -/
def readHooks : Checked Hooks :=
  let read (hook : Hook) := readToggle attribute? span hook.attributeName
  (Checked.both (read .preamble) <| Checked.both (read .postamble) <|
    Checked.both (read .loopPreamble) <| Checked.both (read .loopPostamble) <|
      read .cleanup).map
    fun (preamble, postamble, loopPreamble, loopPostamble, cleanup) =>
      { preamble, postamble, loopPreamble, loopPostamble, cleanup }

/-- Reads the factor on element counts, which is at least one. -/
def readCopies : Checked Nat :=
  match attribute? "repeat" with
  | none => .ok 1
  | some value =>
    .ofOption (.invalidCopies value) span
      ((Text.natural? 64 (Text.trim value)).filter (1 ≤ ·))

/-- Reads the version of the runtime interface. -/
def readApi : Checked Api :=
  match attribute? "api" with
  | none => .ok .v12
  | some value => .ofOption (.unknownApi value) span (Api.ofText? value)

/-- Reads the settings from the attributes of the element at the given place. -/
def ofAttributes : Checked Settings := do
  let (program, profiling, hooks, copies, api) ←
    Checked.both (readProgram attribute? span) <|
      Checked.both (readToggle attribute? span "profile") <|
        Checked.both (readHooks attribute? span) <|
          Checked.both (readCopies attribute? span) (readApi attribute? span)
  let defaults : Settings := { program }
  return { defaults with
    profiling, hooks, copies, api
    hookHeader := (attribute? "hookheader").getD defaults.hookHeader }

end KernelHost.Settings
