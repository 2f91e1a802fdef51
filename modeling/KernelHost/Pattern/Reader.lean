import KernelHost.Pattern.Bracket
import KernelHost.Pattern.Flags
import KernelHost.Text.Letter

/-!
# Reading patterns

The text of a pattern is read from the left, with the groups that are open kept as a stack.  The
first thing that is wrong is the fault of the text; a group that is not closed is found at its end.
-/

namespace KernelHost.Pattern

/-- How a group is understood. -/
inductive GroupMark
  /-- Its place in the text is remembered. -/
  | remembered
  | switched (switches : List (Flag × Bool))
  deriving DecidableEq, Repr

/-- The part of a pattern inside of one group. -/
structure Level where
  /-- How the group is understood. -/
  mark : GroupMark := .remembered
  /-- Whether blanks and comments are passed over. -/
  spaced : Bool := false
  /-- The alternatives in front of the last bar, the last first. -/
  branches : List Form := []
  /-- What stands behind it, the last first. -/
  parts : List Form := []
  deriving DecidableEq, Repr

namespace Level

/-- What the level holds. -/
def form (l : Level) : Form :=
  .ofBranches ((Form.ofParts l.parts.reverse :: l.branches).reverse)

/-- The group with what it holds. -/
def group (l : Level) : Form :=
  match l.mark with
  | .remembered => .remembered l.form
  | .switched switches => .switched switches l.form

/-- Puts a part behind what is there. -/
def add (l : Level) (part : Form) : Level :=
  { l with parts := part :: l.parts }

/-- Puts a bar behind what is there. -/
def bar (l : Level) : Level :=
  { l with branches := Form.ofParts l.parts.reverse :: l.branches, parts := [] }

/-- What stands last, if it may be repeated, and the level without it. -/
def takeLast (l : Level) : Except PatternFault (Form × Level) :=
  match l.parts with
  | [] | .flags _ :: _ => .error .repetitionMissing
  | part :: parts => .ok (part, { l with parts })

end Level

/-- What is read of a pattern. -/
structure Progress where
  /-- The innermost group that is open. -/
  level : Level := {}
  /-- The groups around it, from the inside. -/
  outer : List Level := []
  /-- The names of the groups. -/
  names : List String := []
  deriving DecidableEq, Repr

namespace Progress

/-- Puts a part behind what is there. -/
def add (s : Progress) (part : Form) : Progress :=
  { s with level := s.level.add part }

/-- Opens a group. -/
def enter (s : Progress) (mark : GroupMark) (spaced : Bool) : Progress :=
  { s with level := { mark, spaced }, outer := s.level :: s.outer }

/-- Closes a group. -/
def leave (s : Progress) : Except PatternFault Progress :=
  match s.outer with
  | [] => .error .groupUnopened
  | level :: outer => .ok { s with level := level.add s.level.group, outer }

/-- What a pattern says, once its text is read. -/
def finish (s : Progress) : Except PatternFault Form :=
  if s.outer.isEmpty then .ok s.level.form else .error .groupUnclosed

/-- Whether the name of a group may begin with a character. -/
def isNameStart (c : Char) : Bool :=
  c == '_' || Text.isLetter c

/-- Whether the name of a group may go on with a character. -/
def isNameChar (c : Char) : Bool :=
  c == '_' || c == '.' || c == '[' || c == ']' || Text.isLetterOrNumber c

/-- Reads the name of a group and opens it. -/
def readName (s : Progress) (cs : List Char) : Except PatternFault (Progress × List Char) :=
  let name := cs.takeWhile (· ≠ '>')
  let fits :=
    match name with
    | [] => true
    | c :: more => isNameStart c && more.all isNameChar
  if !fits then .error .groupNameInvalid
  else
    match cs.drop name.length with
    | [] => .error .groupNameUnended
    | _ :: rest =>
      let word := String.ofList name
      if name.isEmpty then .error .groupNameEmpty
      else if s.names.contains word then .error .groupNameDuplicate
      else .ok ({ s.enter .remembered s.level.spaced with names := word :: s.names }, rest)

/-- Reads flags: for a group, or for the rest of the group they stand in. -/
def readFlags (s : Progress) (cs : List Char) : Except PatternFault (Progress × List Char) := do
  let (switches, rest) ← readSwitches [] false cs
  let spaced := Flag.isOn .spaced switches s.level.spaced
  if rest.head? = some ':' then return (s.enter (.switched switches) spaced, rest.tail)
  else if switches.isEmpty then .error .repetitionMissing
  else
    let level := { s.level.add (.flags switches) with spaced }
    return ({ s with level }, rest.tail)

/-- Reads the beginning of a group, from behind its opening parenthesis. -/
def readGroup (s : Progress) (cs : List Char) : Except PatternFault (Progress × List Char) :=
  match skip s.level.spaced cs with
  | '?' :: '=' :: _ | '?' :: '!' :: _ | '?' :: '<' :: '=' :: _ | '?' :: '<' :: '!' :: _ =>
    .error .lookAround
  | '?' :: 'P' :: '<' :: cs | '?' :: '<' :: cs => s.readName cs
  | ['?'] => .error .groupUnclosed
  | '?' :: cs => s.readFlags cs
  | cs => .ok (s.enter .remembered s.level.spaced, cs)

/-- Reads a number with blanks around it, if there is one, and tells the rest. -/
def readCount (spaced : Bool) (cs : List Char) : Except PatternFault Nat × List Char :=
  let (digits, rest) := gather spaced false Char.isDigit (cs.dropWhile Text.isBlank)
  let count := Text.ofDigits digits
  let answer :=
    if digits.isEmpty then .error .countEmpty
    else if count < twoTo 32 then .ok count
    else .error .decimalInvalid
  (answer, rest.dropWhile Text.isBlank)

/-- Reads the limits of a repetition, from behind their opening brace. -/
def readCounts (spaced : Bool) (cs : List Char) :
    Except PatternFault ((Nat × Option Nat) × List Char) := do
  let (least, rest) := readCount spaced (skip spaced cs)
  match rest with
  | [] => .error .countUnclosed
  | ',' :: rest =>
    match skip spaced rest with
    | [] => .error .countUnclosed
    | '\x7d' :: rest => return ((← least, none), rest)
    | rest =>
      let least ← least
      let (most, rest) := readCount spaced rest
      let most ← most
      match rest with
      | '\x7d' :: rest =>
        if most < least then .error .countInverted else return ((least, some most), rest)
      | _ => .error .countUnclosed
  | c :: rest =>
    let count ← least
    if c = '\x7d' then return ((count, some count), rest) else .error .countUnclosed

/-- Repeats what stands last; a question mark may stand behind the repetition. -/
def repeatLast (s : Progress) (least : Nat) (most : Option Nat) (cs : List Char) :
    Except PatternFault (Progress × List Char) := do
  let (body, level) ← s.level.takeLast
  let isMarked := cs.head? == some '?'
  let level := level.add (.times body least most isMarked)
  return ({ s with level }, if isMarked then cs.tail else cs)

/-- The form of an escape sequence. -/
def ofEscape : Escape → Form
  | .literal c => .literal c
  | .kind which negated => .kind which negated
  | .property name => .property name
  | .boundary form => form

/-- Reads a part of a pattern that begins with a character. -/
def step (s : Progress) (c : Char) (cs : List Char) : Except PatternFault (Progress × List Char) :=
  let spaced := s.level.spaced
  match c with
  | '(' => s.readGroup cs
  | ')' => do return (← s.leave, cs)
  | '|' => .ok ({ s with level := s.level.bar }, cs)
  | '[' => do
    let (form, rest) ← Bracket.read spaced cs
    return (s.add form, rest)
  | '?' => s.repeatLast 0 (some 1) cs
  | '*' => s.repeatLast 0 none cs
  | '+' => s.repeatLast 1 none cs
  | '\x7b' => do
    discard s.level.takeLast
    let ((least, most), rest) ← readCounts spaced cs
    s.repeatLast least most (skip spaced rest)
  | '\\' => do
    let (escape, rest) ← Escape.read spaced cs
    return (s.add (ofEscape escape), rest)
  | '.' => .ok (s.add .dot, cs)
  | '^' => .ok (s.add .start, cs)
  | '$' => .ok (s.add .stop, cs)
  | _ => .ok (s.add (.literal ⟨c, false⟩), cs)

/-- Reads the rest of a pattern in at most so many steps, of which each takes a character. -/
def readRest : Nat → Progress → List Char → Except PatternFault Form
  | 0, s, _ => s.finish
  | n + 1, s, cs =>
    match skip s.level.spaced cs with
    | [] => s.finish
    | c :: cs => do
      let (s, rest) ← s.step c cs
      readRest n s rest

end Progress

/-- Reads what the text of a pattern says. -/
def Form.ofText (text : String) : Except PatternFault Form :=
  Progress.readRest text.toList.length {} text.toList

end KernelHost.Pattern
