/-!
# Text on a terminal

What is left of a text on a stream that is no terminal: the control sequences of terminals are taken
out, and with them all control characters that are no white space.
-/

namespace KernelHost.Text

/-- The part of a text in front of its first line feed. -/
def firstLine (s : String) : String :=
  .ofList (s.toList.takeWhile (· ≠ '\n'))

/-- Where a reader of terminal text stands in a control sequence. -/
inductive TerminalState
  /-- Outside of control sequences. -/
  | plain
  /-- Behind an escape character. -/
  | escape
  /-- Behind an escape character and characters that announce its last one. -/
  | announced
  /-- Among the parameters of a control sequence. -/
  | parameters
  /-- At the beginning of a string for a device. -/
  | deviceEntry
  /-- Among the parameters of a string for a device. -/
  | deviceParameters
  /-- Behind characters that announce the last one in front of a string for a device. -/
  | deviceAnnounced
  /-- In the text of a command for the terminal's window. -/
  | command
  /-- In a string for the terminal. -/
  | string
  deriving DecidableEq, Repr

/--
Where a reader of terminal text stands.  Behind a white space character inside of a control sequence
text is shown again, up to the next control character, where the sequence goes on.
-/
structure TerminalReader where
  /-- The place in a control sequence. -/
  state : TerminalState := .plain
  /-- Whether text is being shown. -/
  isShowing : Bool := false
  deriving DecidableEq, Repr

/-- Whether a control character is white space, which is shown. -/
def isSpacing (c : Char) : Bool :=
  c == '\t' || c == '\n' || c == '\x0c' || c == '\r'

/-- Whether a character lies between two others. -/
def isBetween (first last c : Char) : Bool :=
  first ≤ c && c ≤ last

/-- Whether an ASCII character is shown outside of control sequences. -/
def isVisible (c : Char) : Bool :=
  isSpacing c || isBetween ' ' '~' c

/-- Whether a control byte that ends strings is one of the bytes of a character. -/
def holdsStringEnd (c : Char) : Bool :=
  (String.utf8EncodeChar c).contains 0x9C

namespace TerminalState

/-- The state behind a character that stands right behind an escape character. -/
def ofEscaped (c : Char) : TerminalState :=
  match c with
  | '[' => .parameters
  | ']' => .command
  | 'P' => .deviceEntry
  | 'X' | '^' | '_' => .string
  | _ =>
    if isBetween ' ' '/' c then .announced
    else if isBetween '0' '~' c then .plain
    else .escape

/-- The state behind an ASCII character that is not shown. -/
def next (state : TerminalState) (c : Char) : TerminalState :=
  match state with
  | .plain => .plain
  | .escape => ofEscaped c
  | .announced => if isBetween '0' '~' c then .plain else .announced
  | .parameters => if isBetween '@' '~' c then .plain else .parameters
  | .deviceEntry =>
    if isBetween ' ' '/' c then .deviceAnnounced
    else if isBetween '0' '?' c then .deviceParameters
    else if isBetween '@' '~' c then .string
    else .deviceEntry
  | .deviceParameters =>
    if isBetween ' ' '/' c then .deviceAnnounced
    else if isBetween '<' '~' c then .string
    else .deviceParameters
  | .deviceAnnounced => if isBetween '0' '~' c then .string else .deviceAnnounced
  | .command => if c == '\x07' then .plain else .command
  | .string => .string

/-- Whether white space is shown in a state. -/
def showsSpacing (state : TerminalState) : Bool :=
  match state with
  | .plain | .escape | .announced | .parameters => true
  | .deviceEntry | .deviceParameters | .deviceAnnounced | .command | .string => false

end TerminalState

namespace TerminalReader

/-- The reader behind a character, and whether that is shown. -/
def next (reader : TerminalReader) (c : Char) : TerminalReader × Bool :=
  if c == '\x1b' then (⟨.escape, false⟩, false)
  else if c == '\x18' || c == '\x1a' then (⟨.plain, false⟩, false)
  else if '\x7f' < c then
    if reader.isShowing || reader.state == .plain then (⟨.plain, true⟩, true)
    else if reader.state == .string && holdsStringEnd c then (⟨.plain, false⟩, false)
    else (reader, false)
  else if reader.isShowing || reader.state == .plain then
    (⟨reader.state, isVisible c⟩, isVisible c)
  else if isSpacing c && reader.state.showsSpacing then (⟨reader.state, true⟩, true)
  else (⟨reader.state.next c, false⟩, false)

/-- The characters that a reader shows. -/
def shown (reader : TerminalReader) : List Char → List Char
  | [] => []
  | c :: cs =>
    let (reader, isShown) := reader.next c
    if isShown then c :: reader.shown cs else reader.shown cs

/-- Nothing is shown that is not in the text. -/
theorem shown_sublist (reader : TerminalReader) (cs : List Char) :
    (reader.shown cs).Sublist cs := by
  induction cs generalizing reader with
  | nil => exact .slnil
  | cons c cs ih =>
    unfold shown
    split
    split
    · exact (ih _).cons_cons c
    · exact (ih _).cons c

end TerminalReader

/-- A text without control sequences and without control characters other than white space. -/
def uncontrolled (s : String) : String :=
  .ofList (TerminalReader.shown {} s.toList)

end KernelHost.Text
