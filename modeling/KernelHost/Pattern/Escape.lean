import KernelHost.Pattern.Blank
import KernelHost.Pattern.Fault
import KernelHost.Pattern.Form
import KernelHost.Text.Numeral

/-!
# Escape sequences of patterns

What a backslash and the characters behind it stand for: a character, a kind of characters, a
property, or a condition on a place.
-/

namespace KernelHost.Pattern

/-- What an escape sequence stands for. -/
inductive Escape
  /-- A character. -/
  | literal (c : Written)
  /-- A kind of characters, or what is not of it. -/
  | kind (kind : Kind) (negated : Bool)
  /-- The characters with a property. -/
  | property (name : List Char)
  /-- A condition on a place. -/
  | boundary (form : Form)
  deriving DecidableEq, Repr

namespace Escape

/-- The control characters that letters stand for. -/
def controls : List (Char × Char) :=
  [('a', '\x07'), ('f', '\x0c'), ('t', '\t'), ('n', '\n'), ('r', '\r'), ('v', '\x0b')]

/-- The kinds of characters that letters stand for, and whether the letters negate them. -/
def kinds : List (Char × Kind × Bool) :=
  [('d', .digit, false), ('s', .blank, false), ('w', .word, false), ('D', .digit, true),
    ('S', .blank, true), ('W', .word, true)]

/-- The conditions that characters stand for. -/
def boundaries : List (Char × Form) :=
  [('A', .textStart), ('z', .textEnd), ('B', .word .noEdge), ('<', .word .start),
    ('>', .word .stop)]

/-- The number of digits that a code point has behind a letter. -/
def hexWidths : List (Char × Nat) :=
  [('x', 2), ('u', 4), ('U', 8)]

/-- The conditions on words that have a name. -/
def namedEdges : List (String × WordEdge) :=
  [("start", .start), ("end", .stop), ("start-half", .noneBefore), ("end-half", .noneAfter)]

/-- Whether a character other than a letter or a digit stands for itself. -/
def standsForItself (c : Char) : Bool :=
  c.toNat < 0x80 && !c.isAlphanum

/-- Reads so many hexadecimal digits. -/
def readDigits (spaced : Bool) : Nat → List Char → Except PatternFault (List Char × List Char)
  | 0, cs => .ok ([], cs)
  | _ + 1, [] => .error .escapeUnended
  | n + 1, c :: cs =>
    if Text.isHexDigit c then do
      let (digits, rest) ← readDigits spaced n (skip spaced cs)
      return (c :: digits, rest)
    else .error .hexDigitInvalid

/-- Reads hexadecimal digits up to a closing brace. -/
def readBraced (spaced : Bool) (cs : List Char) : Except PatternFault (List Char × List Char) :=
  match gather spaced false Text.isHexDigit cs with
  | (_, []) => .error .escapeUnended
  | ([], '\x7d' :: _) => .error .hexEmpty
  | (digits, '\x7d' :: rest) => .ok (digits, skip spaced rest)
  | _ => .error .hexDigitInvalid

/-- Reads a code point with so many digits, from behind its letter. -/
def readCodePoint (spaced : Bool) (width : Nat) (cs : List Char) :
    Except PatternFault (Escape × List Char) := do
  let cs := skip spaced cs
  let isBraced := cs.head? == some '\x7b'
  let (digits, rest) ←
    if isBraced then readBraced spaced cs.tail else readDigits spaced width cs
  let n := Text.ofBase 16 digits
  if h : n.isValidChar then
    return (.literal ⟨.ofNatAux n h, width == 2 && !isBraced⟩, rest)
  else .error .hexInvalid

/-- Reads the name of a property, from behind its letter. -/
def readProperty (spaced : Bool) (cs : List Char) : Except PatternFault (Escape × List Char) :=
  match skip spaced cs with
  | [] => .error .escapeUnended
  | '\\' :: _ => .error .propertyInvalid
  | '\x7b' :: cs =>
    match gather spaced false (· != '\x7d') cs with
    | (_, []) => .error .escapeUnended
    | (name, _ :: rest) => .ok (.property name, rest)
  | c :: cs => .ok (.property [c], skip spaced cs)

/-- Whether the name of a word edge may hold a character. -/
def isEdgeChar (c : Char) : Bool :=
  c.isAlpha || c == '-'

/--
Reads what may follow the mark of a word edge: a name in braces tells which one; other braces hold
the limits of a repetition.
-/
def readEdge (spaced : Bool) : List Char → Except PatternFault (Escape × List Char)
  | '\x7b' :: cs =>
    match gather spaced false isEdgeChar cs with
    | ([], []) => .error .edgeUnended
    | ([], _ :: _) => .ok (.boundary (.word .edge), '\x7b' :: cs)
    | (name, '\x7d' :: rest) =>
      match namedEdges.lookup (.ofList name) with
      | some condition => .ok (.boundary (.word condition), rest)
      | none => .error .edgeUnknown
    | _ => .error .edgeUnclosed
  | cs => .ok (.boundary (.word .edge), cs)

/-- Reads an escape sequence from behind its backslash. -/
def read (spaced : Bool) : List Char → Except PatternFault (Escape × List Char)
  | [] => .error .escapeUnended
  | 'b' :: cs => readEdge spaced cs
  | 'p' :: cs | 'P' :: cs => readProperty spaced cs
  | c :: cs =>
    match controls.lookup c, kinds.lookup c, boundaries.lookup c, hexWidths.lookup c with
    | some control, _, _, _ => .ok (.literal ⟨control, false⟩, cs)
    | _, some (which, negated), _, _ => .ok (.kind which negated, cs)
    | _, _, some form, _ => .ok (.boundary form, cs)
    | _, _, _, some width => readCodePoint spaced width cs
    | none, none, none, none =>
      if c.isDigit then .error .backreference
      else if standsForItself c then .ok (.literal ⟨c, false⟩, cs)
      else .error .escapeUnknown

end Escape
end KernelHost.Pattern
