import KernelHost.Pattern.Basic

/-!
# Written patterns

What the text of a pattern says, part by part, before it is settled what the parts mean.  A part
that holds others is deeper than they are; sequences, alternatives and sets with several members
count as one part each.
-/

namespace KernelHost.Pattern

/-- How a part of a pattern is to be understood. -/
inductive Flag
  /-- Letters stand for both of their cases. -/
  | caseless
  /-- Lines begin and end inside of a text. -/
  | multiLine
  /-- The dot stands for the ends of lines too. -/
  | dotAll
  /-- Repetitions are short, and those with a mark behind them are long. -/
  | swapped
  /-- Characters of all scripts are meant. -/
  | allScripts
  /-- Carriage returns belong to the ends of lines. -/
  | withReturns
  /-- Blanks and comments are passed over. -/
  | spaced
  deriving DecidableEq, Repr

/-- A kind of characters that a letter stands for. -/
inductive Kind
  | digit
  | blank
  /-- Characters of words. -/
  | word
  deriving DecidableEq, Repr

/-- A character as it is written. -/
structure Written where
  /-- The character. -/
  char : Char
  /-- Whether it is written as a byte, with two hexadecimal digits. -/
  isByte : Bool := false
  deriving DecidableEq, Repr

/-- An operator between sets. -/
inductive SetOperator
  /-- What both sets hold. -/
  | intersection
  /-- What the second set does not hold. -/
  | difference
  /-- What only one of the sets holds. -/
  | symmetricDifference
  deriving DecidableEq, Repr

/-- A written set of characters. -/
inductive SetForm
  /-- No character. -/
  | nothing
  /-- A character. -/
  | literal (c : Written)
  /-- The characters from one to another. -/
  | range (first last : Written)
  /-- A class of ASCII characters, or what lies outside of it. -/
  | ascii (set : CharSet) (negated : Bool)
  /-- A kind of characters, or what is not of it. -/
  | kind (kind : Kind) (negated : Bool)
  /-- The characters with a property, whose name and value are written. -/
  | property (name : List Char)
  /-- A set in brackets of its own, or what lies outside of it. -/
  | bracket (negated : Bool) (content : SetForm)
  /-- The members of two sets. -/
  | union (first rest : SetForm)
  /-- Two sets with an operator between them. -/
  | operation (operator : SetOperator) (left right : SetForm)
  deriving DecidableEq, Repr

/-- A written pattern. -/
inductive Form
  /-- No character. -/
  | nothing
  /-- A character. -/
  | literal (c : Written)
  /-- Any character. -/
  | dot
  /-- The start of the text or of a line. -/
  | start
  /-- The end of the text or of a line. -/
  | stop
  | textStart
  | textEnd
  /-- A condition on words. -/
  | word (condition : WordEdge)
  /-- A character of a kind, or one that is not of it. -/
  | kind (kind : Kind) (negated : Bool)
  /-- A character with a property, whose name and value are written. -/
  | property (name : List Char)
  /-- A character of a set in brackets, or one outside of it. -/
  | bracket (negated : Bool) (content : SetForm)
  /-- Flags that are switched for what follows in the group. -/
  | flags (switches : List (Flag × Bool))
  /-- A group whose place in the text is remembered. -/
  | remembered (body : Form)
  /-- A group in which flags are switched. -/
  | switched (switches : List (Flag × Bool)) (body : Form)
  /-- One part behind another. -/
  | sequence (first rest : Form)
  /-- One of two parts. -/
  | either (first rest : Form)
  /-- A part so many times at least, and at most if there is a limit, with or without a mark. -/
  | times (body : Form) (least : Nat) (most : Option Nat) (isMarked : Bool)
  deriving DecidableEq, Repr

/-- The number of sets that stand inside of each other. -/
def SetForm.depth : SetForm → Nat
  | .nothing | .literal _ | .range _ _ | .ascii _ _ | .kind _ _ | .property _ => 0
  | .bracket _ content => content.depth + 1
  | .union first (.union second rest) =>
    max (first.depth + 1) (SetForm.union second rest).depth
  | .union first rest => max first.depth rest.depth + 1
  | .operation _ left right => max left.depth right.depth + 1

/-- The number of parts of a pattern that stand inside of each other. -/
def Form.depth : Form → Nat
  | .nothing | .literal _ | .dot | .start | .stop | .textStart | .textEnd | .word _ | .kind _ _ => 0
  | .property _ | .flags _ => 0
  | .bracket _ content => content.depth + 1
  | .remembered body | .switched _ body | .times body _ _ _ => body.depth + 1
  | .sequence first (.sequence second rest) =>
    max (first.depth + 1) (Form.sequence second rest).depth
  | .sequence first rest => max first.depth rest.depth + 1
  | .either first (.either second rest) => max (first.depth + 1) (Form.either second rest).depth
  | .either first rest => max first.depth rest.depth + 1

/-- The union of written sets. -/
def SetForm.ofItems : List SetForm → SetForm
  | [] => .nothing
  | [item] => item
  | item :: next :: items => .union item (ofItems (next :: items))

/-- Parts one behind another. -/
def Form.ofParts : List Form → Form
  | [] => .nothing
  | [part] => part
  | part :: next :: parts => .sequence part (ofParts (next :: parts))

/-- One of some parts. -/
def Form.ofBranches : List Form → Form
  | [] => .nothing
  | [branch] => branch
  | branch :: next :: branches => .either branch (ofBranches (next :: branches))

/-- A group is one deeper than what it holds. -/
theorem Form.depth_remembered (body : Form) : (Form.remembered body).depth = body.depth + 1 := by
  simp [Form.depth]

end KernelHost.Pattern
