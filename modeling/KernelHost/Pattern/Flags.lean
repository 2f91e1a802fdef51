import KernelHost.Pattern.Fault
import KernelHost.Pattern.Form

/-!
# Flags of patterns

The letters that say how a part of a pattern is to be understood, and what they say all together.
Letters behind a dash switch off.
-/

namespace KernelHost.Pattern

/-- The flags and their letters. -/
def Flag.letters : List (Char × Flag) :=
  [('i', .caseless), ('m', .multiLine), ('s', .dotAll), ('U', .swapped), ('u', .allScripts),
    ('R', .withReturns), ('x', .spaced)]

/-- Reads the flags behind a first one, with those read so far, the last first. -/
def readSwitches (switches : List (Flag × Bool)) (off : Bool) :
    List Char → Except PatternFault (List (Flag × Bool) × List Char)
  | [] => .error .flagsUnended
  | c :: cs =>
    if c == ':' || c == ')' then .ok (switches.reverse, c :: cs)
    else if c == '-' then
      if off then .error .flagNegationRepeated
      else
        match cs with
        | ':' :: _ | ')' :: _ => .error .flagNegationDangling
        | _ => readSwitches switches true cs
    else
      match Flag.letters.lookup c with
      | none => .error .flagUnknown
      | some flag =>
        if switches.any (·.1 == flag) then .error .flagDuplicate
        else readSwitches ((flag, !off) :: switches) off cs

/-- Whether a flag is on behind switches, given whether it is in front of them. -/
def Flag.isOn (flag : Flag) (switches : List (Flag × Bool)) (before : Bool) : Bool :=
  (switches.lookup flag).getD before

/-- How a part of a pattern is understood, apart from blanks between its parts. -/
structure Flags where
  /-- Letters stand for both of their cases. -/
  caseless : Bool := false
  /-- Lines begin and end inside of a text. -/
  multiLine : Bool := false
  /-- The dot stands for the ends of lines too. -/
  dotAll : Bool := false
  /-- Repetitions are short, and those with a mark behind them are long. -/
  swapped : Bool := false
  /-- Characters of all scripts are meant. -/
  allScripts : Bool := true
  /-- Carriage returns belong to the ends of lines. -/
  withReturns : Bool := false
  deriving DecidableEq, Repr

/-- The flags behind switches. -/
def Flags.switch (flags : Flags) (switches : List (Flag × Bool)) : Flags where
  caseless := Flag.isOn .caseless switches flags.caseless
  multiLine := Flag.isOn .multiLine switches flags.multiLine
  dotAll := Flag.isOn .dotAll switches flags.dotAll
  swapped := Flag.isOn .swapped switches flags.swapped
  allScripts := Flag.isOn .allScripts switches flags.allScripts
  withReturns := Flag.isOn .withReturns switches flags.withReturns

/-- Without switches nothing changes. -/
@[simp]
theorem Flags.switch_nil (flags : Flags) : flags.switch [] = flags := rfl

end KernelHost.Pattern
